import Libevent.Proofs.Event.Bookkeeping

/-!
# `Libevent.Proofs.Event.Activation`: what becomes of an activation

An event that is in an active queue with the result bits `R` waits for its callback. `Kept` says
that nothing is lost: the next time its callback runs it is given at least `R`, and until then
the event stays in its queue and keeps `R`.

`activation_kept` proves it for every legal run in which the user leaves the event alone
(`EventAction.targets`) and every action spares it (`Spares`). Three actions need not:
`timeout_process` and `common_timeout_callback` delete an event whose timeout has expired and
activate it anew with `EV_TIMEOUT` only, and `event_remove_timer` clears the number of calls of a
signal event. `activation_lost` has a run for each of them.
-/

namespace Libevent

open Lib

variable {β : Type} {s t t' : EventBase β} {e : EvId}

/-- What the first callback of `e` after the state `s` was given. -/
def reported (s t : EventBase β) (e : EvId) : Option Nat :=
  ((t.log.drop s.log.length).find? fun p => p.1 == e).map Prod.snd

/-- The activation that `e` has in the state `s` is not lost in `t`. -/
def Kept (s : EventBase β) (e : EvId) (t : EventBase β) : Prop :=
  match reported s t e with
  | some res => (s.evs e).evRes ||| res = res
  | none => e ∈ t.activequeues (t.evs e).evPri ∧
      (s.evs e).evRes ||| (t.evs e).evRes = (t.evs e).evRes ∧ Callable (t.evs e)

instance (e : Event) : Decidable (Callable e) := by
  unfold Callable
  infer_instance

instance (s : EventBase β) (e : EvId) (t : EventBase β) : Decidable (Kept s e t) := by
  unfold Kept
  split <;> infer_instance

/-! ### The calls since a state -/

theorem reported_self (s : EventBase β) (e : EvId) : reported s s e = none := by
  simp [reported]

section
variable (hlog : s.log <+: t.log)
include hlog

/-- The calls since `s`, after some more of them. -/
theorem reported_append {l : List (EvId × Nat)} (hnew : t'.log = t.log ++ l) :
    reported s t' e = (reported s t e).or ((l.find? fun p => p.1 == e).map Prod.snd) := by
  unfold reported
  rw [hnew, List.drop_append_of_le_length hlog.length_le, List.find?_append]
  cases ((t.log.drop s.log.length).find? fun p => p.1 == e) <;> rfl

/-- What is reported stays. -/
theorem reported_mono {res : Nat} (hnew : t.log <+: t'.log) (h : reported s t e = some res) :
    reported s t' e = some res := by
  obtain ⟨l, hl⟩ := hnew
  rw [reported_append hlog hl.symm, h]
  rfl

theorem reported_of_waits (hw : Waits t e t') (h : reported s t e = none) :
    reported s t' e = none := by
  obtain ⟨l, hnew, hl⟩ := hw.calls
  have hno : (l.find? fun p => p.1 == e) = none := by
    rw [List.find?_eq_none]
    intro p hp
    simpa using hl p hp
  rw [reported_append hlog hnew, h, hno]
  rfl

theorem reported_of_reports (hr : Reports t e t') (h : reported s t e = none) :
    reported s t' e = some (t.evs e).evRes := by
  rw [reported_append hlog hr, h]
  simp

end

/-! ### One action and whole runs -/

/-- The event still has a callback to run. -/
theorem Waits.callable (h : Waits s e t) (hcall : Callable (s.evs e)) : Callable (t.evs e) := by
  refine ⟨h.internal, ?_⟩
  rw [h.closure]
  exact hcall.2.imp_right (Or.imp_right fun ⟨hcl, hn⟩ => ⟨hcl, by rw [h.ncalls hcl]; exact hn⟩)

/-- An action that spares the event does not lose its activation. -/
theorem Kept.step {a : EventAction} (h : Kept s e t) (hsound : Sound none t)
    (hlog : s.log <+: t.log) (hstep : Stepped t a t') (htarget : a.targets e = false)
    (hspares : Spares t e a) : Kept s e t' := by
  unfold Kept at h ⊢
  cases hrep : reported s t e with
  | some res =>
    rw [hrep] at h
    rw [reported_mono hlog hstep.log hrep]
    exact h
  | none =>
    rw [hrep] at h
    obtain ⟨hmem, hres, hcall⟩ := h
    have hact := ((hsound.inv.act.mem _ e).mp hmem).1
    rcases hstep.carried e hact hcall htarget hspares with hw | hr
    · rw [reported_of_waits hlog hw hrep]
      refine ⟨(hstep.sound.inv.act.mem _ e).mpr ⟨hw.active, rfl⟩, ?_, hw.callable hcall⟩
      obtain ⟨r, hr⟩ := hw.res
      rw [hr, ← Nat.or_assoc, hres]
    · rw [reported_of_reports hlog hr hrep]
      exact hres

/-- No activation is lost. Let a legal run from a new base lead to the state `s`, where `e` is in
an active queue and has a callback to run. In every legal continuation in which the user does
not delete, add or finalize `e`, and which spares `e`, the callback that is run for `e` is given
the bits that `e` had in `s`, and until then `e` stays in its queue and keeps them. -/
theorem activation_kept (debugMode : Bool) {evsel evsigsel : EventOp β} (hsel : evsel.NoFault)
    (hsig : evsigsel.NoFault) {npriorities : Nat} (hpri : 0 < npriorities) (b : β) {mm : Mm}
    (hmm : mm.Reliable) {as bs : List EventAction}
    (hlegal : Meets (eventStep debugMode evsel evsigsel) EventLegal
      (EventBase.start npriorities { evbase := b, mm := mm }) as)
    (hrun : run (eventStep debugMode evsel evsigsel)
      (EventBase.start npriorities { evbase := b, mm := mm }) as = .ok s)
    (hmem : e ∈ s.activequeues (s.evs e).evPri) (hcall : Callable (s.evs e))
    (hmeets : Meets (eventStep debugMode evsel evsigsel)
      (fun t a => EventLegal t a ∧ a.targets e = false ∧ Spares t e a) s bs)
    (hrun' : run (eventStep debugMode evsel evsigsel) s bs = .ok t) : Kept s e t := by
  have hs : Sound none s := (eventRun_yields hsel hsig (Sound.start hpri b hmm) hlegal).of_ok hrun
  have hstart : Sound none s ∧ s.log <+: s.log ∧ Kept s e s := by
    refine ⟨hs, List.prefix_rfl, ?_⟩
    unfold Kept
    rw [reported_self]
    exact ⟨hmem, Nat.or_self _, hcall⟩
  refine (run_invariant (I := fun u => Sound none u ∧ s.log <+: u.log ∧ Kept s e u)
    (fun u a u' hu ha hstep => ?_) hstart hmeets hrun').2.2
  have hst := (eventStep_yields hsel hsig hu.1 ha.1).of_ok hstep
  exact ⟨hst.sound, hu.2.1.trans hst.log, hu.2.2.step hu.1 hu.2.1 hst ha.2.1 ha.2.2⟩

/-- A reader with a timeout of one second, whose fd becomes ready. -/
def readyReader : List EventAction :=
  [.assign 1 3 EV_READ, .add 1 (some ⟨1, 0⟩), .ioActive 3 EV_READ]

/-- The activation is kept when another one follows. -/
theorem activation_kept_readyReader :
    ∃ s, idleRun readyReader = .ok s ∧
    (∃ t, run (eventStep false idleBackend idleBackend) s
      [.tick ⟨0, 5⟩, .timeoutProcess, .active 1 EV_WRITE 1, .processActive 0] = .ok t) ∧
    ∀ t, run (eventStep false idleBackend idleBackend) s
      [.tick ⟨0, 5⟩, .timeoutProcess, .active 1 EV_WRITE 1, .processActive 0] = .ok t →
      Kept s 1 t := by
  have hlegal : Meets (eventStep false idleBackend idleBackend) EventLegal
      (EventBase.start 1 { evbase := () }) readyReader := by decide
  refine ⟨_, rfl, ⟨_, rfl⟩, fun t hrun => ?_⟩
  exact activation_kept false idleBackend_noFault idleBackend_noFault (by decide) ()
    (fun _ => rfl) hlegal rfl (by decide) (by decide) (by decide) hrun

/-- The legal run `as` leads from a new base to a state in which `e` is in an active queue and has
a callback to run, and the legal actions `bs`, none of which is a deletion, an addition or a
finalization of `e` by the user, lose its activation. -/
def Loses (as : List EventAction) (e : EvId) (bs : List EventAction) : Prop :=
  Meets (eventStep false idleBackend idleBackend) EventLegal
    (EventBase.start 1 { evbase := () }) as ∧
  ∃ s, idleRun as = .ok s ∧ e ∈ s.activequeues (s.evs e).evPri ∧ Callable (s.evs e) ∧
    Meets (eventStep false idleBackend idleBackend)
      (fun t a => EventLegal t a ∧ a.targets e = false) s bs ∧
    ∃ t, run (eventStep false idleBackend idleBackend) s bs = .ok t ∧ ¬ Kept s e t

/-- The reader's timeout expires in the iteration in which its fd is ready: its callback is told
`EV_TIMEOUT` and not `EV_READ`. The same with a common timeout. A signal event with a timeout that
`event_remove_timer` takes away: its callback does not run. -/
theorem activation_lost : Loses readyReader 1 [.tick ⟨2, 0⟩, .timeoutProcess, .processActive 0] ∧
    Loses [.initCommonTimeout ⟨1, 0⟩ 9, .assign 1 3 EV_READ, .add 1 (some ⟨1, 0x50000000⟩),
        .tick ⟨2, 0⟩, .timeoutProcess, .ioActive 3 EV_READ] 1
      [.processActive 0, .processActive 0] ∧
    Loses [.assign 2 5 EV_SIGNAL, .add 2 (some ⟨1, 0⟩), .signalActive 5 1] 2
      [.removeTimer 2, .processActive 0] :=
  ⟨⟨by decide, _, rfl, by decide, by decide, by decide, _, rfl, by decide⟩,
    ⟨by decide, _, rfl, by decide, by decide, by decide, _, rfl, by decide⟩,
    ⟨by decide, _, rfl, by decide, by decide, by decide, _, rfl, by decide⟩⟩

end Libevent
