import Libevent.Proofs.Event.Callbacks

/-!
# `Libevent.Proofs.Event.Dispatch`: running the active callbacks

One round of `event_process_active_single_queue` takes the first callback of a queue out of it
and runs its closure. `Dispatched` says what the round does: the callback of an event is called
with the result of the event, other events stay as they are (those that a common timeout finds
due apart), and the base is sound again (`processActive_yields`).
-/

namespace Libevent

open Lib

variable {β : Type} {s s' : EventBase β} {ev : EvId} {debugMode : Bool} {evsel evsigsel : EventOp β}
  {c : CommonTimeoutList}

/-! ### Closures -/

/-- The callback of the event runs when the event is taken out of its queue, and is given
`ev_res`. This excludes the timers of the base, callbacks that are no events, events that are
being finalized, and signal events with no call to make. -/
def Callable (e : Event) : Prop :=
  e.evFlags.internal = false ∧ (e.evClosure = .event ∨ e.evClosure = .eventPersist ∨
    e.evClosure = .eventSignal ∧ e.evNcalls ≠ 0)

theorem Sound.call {skip : Option Nat} (h : Sound skip s) (ev : EvId) (res : Nat) :
    Sound skip (s.call ev res) :=
  h.congr rfl h.inv.now

theorem Sound.signalRound (h : Sound none s) (ev : EvId) (k : Nat) :
    Sound none (signalRound s ev k) := by
  have h1 : Sound none (s.setEv ev { s.evs ev with
      evNcalls := k, evPncalls := if k = 0 then false else (s.evs ev).evPncalls }) :=
    h.alike ⟨rfl, rfl, rfl, rfl, rfl, rfl⟩ rfl
  exact h1.congr rfl h1.inv.now

/-- A round of `event_signal_closure` calls the callback and changes the number of calls. -/
theorem signalRound_spec (s : EventBase β) (ev : EvId) (k : Nat) :
    (signalRound s ev k).log = s.log ++ [(ev, (s.evs ev).evRes)] ∧
      ∀ x, x ≠ ev → (signalRound s ev k).evs x = s.evs x := by
  have hself : (signalRound s ev k).evs ev = { s.evs ev with
      evNcalls := k, evPncalls := if k = 0 then false else (s.evs ev).evPncalls } := upd_self _ _ _
  refine ⟨?_, fun x hx => upd_ne _ _ hx⟩
  show s.log ++ [(ev, ((signalRound s ev k).evs ev).evRes)] = _
  rw [hself]

/-- What the closure of an event that is no timer does: it calls the callback of the event, if
any, and leaves the other events alone. -/
structure Ran (s : EventBase β) (ev : EvId) (s' : EventBase β) : Prop where
  sound : Sound none s'
  others : ∀ x, x ≠ ev → (s.evs x).evFlags.internal = false → s'.evs x = s.evs x
  calls : ∃ l, s'.log = s.log ++ l ∧ ∀ p ∈ l, p.1 = ev
  called : Callable (s.evs ev) → s'.log = s.log ++ [(ev, (s.evs ev).evRes)]

/-- A closure that only calls the callback. -/
theorem Sound.ran_call (h : Sound none s) (ev : EvId) : Ran s ev (s.call ev (s.evs ev).evRes) :=
  ⟨h.call ev _, fun _ _ _ => rfl, ⟨_, rfl, by simp⟩, fun _ => rfl⟩

theorem eventSignalClosure_ran (h : Sound none s) (hcl : (s.evs ev).evClosure = .eventSignal) :
    Ran s ev (eventSignalClosure s ev) := by
  unfold eventSignalClosure
  cases hn : (s.evs ev).evNcalls with
  | zero =>
    refine ⟨h, fun _ _ _ => rfl, ⟨[], by simp, by simp⟩, fun hc => ?_⟩
    simp [Callable, hcl, hn] at hc
  | succ k =>
    set s1 := s.setEv ev { s.evs ev with evPncalls := true } with hs1
    have h1 : Sound none s1 := h.alike ⟨rfl, rfl, rfl, rfl, rfl, rfl⟩ rfl
    obtain ⟨hlog, hevs⟩ := signalRound_spec s1 ev k
    have hres : (s1.evs ev).evRes = (s.evs ev).evRes := by rw [EventBase.setEv_evs, upd_self]
    have hlog' : (signalRound s1 ev k).log = s.log ++ [(ev, (s.evs ev).evRes)] := by
      rw [hlog, hres]; rfl
    refine ⟨h1.signalRound ev k, fun x hx _ => ?_, ⟨_, hlog', by simp⟩, fun _ => hlog'⟩
    rw [hevs x hx, EventBase.setEv_evs, upd_ne _ _ hx]

section
variable (hsel : evsel.NoFault) (hsig : evsigsel.NoFault) (h : Sound none s)
  (hint : s.External ev) (hkind : KindOk (s.evs ev))
include hsel hsig h hint hkind

theorem eventPersistClosure_yields (hcl : (s.evs ev).evClosure = .eventPersist) :
    Yields StaleWrite (eventPersistClosure debugMode evsel evsigsel s ev) (Ran s ev) := by
  have hinit : (s.evs ev).evFlags.init = true := by
    cases hi : (s.evs ev).evFlags.init with
    | true => rfl
    | false => exact absurd hcl ((h.inv.ev ev).plain hi).2.2
  have hcall : ∀ s1 : EventBase β, Sound none s1 → Added s ev s1 →
      Ran s ev (s1.call ev (s1.evs ev).evRes) := by
    intro s1 h1 ha
    have hlog : (s1.call ev (s1.evs ev).evRes).log = s.log ++ [(ev, (s.evs ev).evRes)] := by
      show s1.log ++ _ = _
      rw [ha.frame.log, ha.res]
    exact ⟨h1.call ev _, ha.others, ⟨_, hlog, by simp⟩, fun _ => hlog⟩
  unfold eventPersistClosure
  dsimp only
  split
  · next hset =>
    have hspec := persistRunAt_spec h.inv (h.persist ev) hcl hset
    have hadd : Yields StaleWrite (eventAddNolock debugMode evsel evsigsel 2 s ev
        (some (persistRunAt s ev)) true) fun p => Sound none p.2 ∧ Added s ev p.2 :=
      (eventAddNolock_yields hsel hsig 0 h hint hinit hkind
        fun t ht => by cases ht; exact hspec.2).mono fun p hp => ⟨hp.1, hp.2.1⟩
    have hnot : ¬ (!isSameCommonTimeout (s.evs ev).evTimeout (s.evs ev).evIoTimeout) = true := by
      simp [hspec.1]
    rw [if_neg hnot]
    exact hadd.bind fun p hp => hcall p.2 hp.1 hp.2
  · exact hcall s h (Added.refl s ev)

/-- The closure of an event that is no timer. -/
theorem runClosure_yields
    (hfin : (s.evs ev).evClosure.isFinal = true → (s.evs ev).evFlags.finalizing = true) :
    Yields StaleWrite (runClosure debugMode evsel evsigsel s ev) (Ran s ev) := by
  have hother : ∀ r, ¬ Callable (s.evs ev) → Ran s ev (s.call ev r) := fun r hnot =>
    ⟨h.call ev r, fun _ _ _ => rfl, ⟨_, rfl, by simp⟩, fun hc => absurd hc hnot⟩
  unfold runClosure
  cases hcl : (s.evs ev).evClosure with
  | eventSignal => exact eventSignalClosure_ran h hcl
  | eventPersist => exact eventPersistClosure_yields hsel hsig h hint hkind hcl
  | event =>
    have hnone : s.commonTimeoutQueues.findIdx? (fun ctl => ctl.timeoutEvent == ev) = none := by
      rw [List.findIdx?_eq_none_iff]
      intro c hc
      obtain ⟨i, hi⟩ := List.getElem?_of_mem hc
      simpa using h.inv.timer_ne hi hint
    simp only [hnone]
    exact h.ran_call ev
  | cbSelf => exact hother 0 (by simp [Callable, hcl])
  | cbFinalize | eventFinalize | eventFinalizeFree =>
    simp only [hfin (by rw [hcl]; rfl)]
    exact hother 0 (by simp [Callable, hcl])

end

/-- The closure of a timer is `common_timeout_callback` for its list. -/
theorem runClosure_timer (hsel : evsel.NoFault) (hsig : evsigsel.NoFault) {i : Nat}
    (h : Sound (some i) s) (hc : s.commonTimeoutQueues[i]? = some c) :
    Yields StaleWrite (runClosure debugMode evsel evsigsel s c.timeoutEvent) fun s' =>
      Sound none s' ∧ Frame s s' ∧ ∀ e, (s.evs e).evFlags.internal = false →
        NotDueIn s s.tvNow i e → s'.evs e = s.evs e := by
  have hcl := ((h.inv.ev c.timeoutEvent).internal (h.inv.timer_internal hc)).2.2.1
  have hidx : s.commonTimeoutQueues.findIdx? (fun ctl => ctl.timeoutEvent == c.timeoutEvent) =
      some i := by
    obtain ⟨hlt, rfl⟩ := List.getElem?_eq_some_iff.mp hc
    rw [List.findIdx?_eq_some_iff_getElem]
    refine ⟨hlt, by simp, fun j hj => ?_⟩
    have hne : j ≠ i := by omega
    simp only [Bool.not_eq_true, beq_eq_false_iff_ne]
    exact fun heq => hne (h.inv.timer_idx (List.getElem?_eq_getElem (by omega)) hc heq)
  unfold runClosure
  rw [hcl]
  simp only [hidx]
  exact commonTimeoutCallback_yields hsel hsig hc h

/-! ### One round of `event_process_active_single_queue` -/

/-- What a round does that takes `ev` out of its queue and runs it. -/
structure Dispatched (s : EventBase β) (ev : EvId) (s' : EventBase β) : Prop where
  sound : Sound none s'
  others : ∀ x, x ≠ ev → (s.evs x).evFlags.internal = false →
    (∀ i c, s.commonTimeoutQueues[i]? = some c → c.timeoutEvent = ev →
      NotDueIn s s.tvNow i x) → s'.evs x = s.evs x
  calls : ∃ l, s'.log = s.log ++ l ∧ ∀ p ∈ l, p.1 = ev
  called : Callable (s.evs ev) → s'.log = s.log ++ [(ev, (s.evs ev).evRes)]

/-- The removal of an event from its queue before its closure runs. -/
def takeActive (evsel evsigsel : EventOp β) (s : EventBase β) (ev : EvId) :
    Except Fault (EventBase β) :=
  let e := s.evs ev
  if e.evFlags.init && !(hasAny e.evEvents EV_PERSIST || e.evFlags.finalizing) then
    (eventDelNolock evsel evsigsel s ev false).map Prod.snd
  else eventQueueRemoveActive s ev

theorem processActive_cons {pri : Nat} {rest : List EvId} (hq : s.activequeues pri = ev :: rest) :
    processActive debugMode evsel evsigsel s pri =
      takeActive evsel evsigsel s ev >>= fun s1 => runClosure debugMode evsel evsigsel s1 ev := by
  unfold processActive takeActive
  simp only [hq]
  split
  · cases eventDelNolock evsel evsigsel s ev false <;> rfl
  · rfl

theorem takeActive_yields (hsel : evsel.NoFault) (hsig : evsigsel.NoFault) (h : Sound none s)
    (hact : (s.evs ev).evFlags.active = true) (hint : s.External ev) :
    Yields StaleWrite (takeActive evsel evsigsel s ev) fun s1 =>
      Sound none s1 ∧ (∃ fl : EvFlags, s1.evs = upd s.evs ev { s.evs ev with evFlags := fl } ∧
        fl.internal = (s.evs ev).evFlags.internal ∧
        fl.finalizing = (s.evs ev).evFlags.finalizing) ∧ Frame s s1 := by
  unfold takeActive
  dsimp only
  split
  · next hcond =>
    simp only [Bool.and_eq_true, Bool.not_eq_true', Bool.or_eq_false_iff] at hcond
    refine Yields.map ?_
    exact (eventDelNolock_sound hsel hsig h hint hcond.2.2).mono fun p hp =>
      ⟨hp.1, ⟨_, hp.2.evs, rfl, rfl⟩, hp.2.frame⟩
  · obtain ⟨hrun, hinv⟩ := eventQueueRemoveActive_spec h.inv hact
    refine Yields.of_eq hrun ⟨h.setFlags hinv rfl (s.dropActive_evs ev) ⟨rfl, fun hi => ?_,
      fun _ => id⟩, ⟨_, rfl, rfl, rfl⟩, rfl, rfl, rfl⟩
    cases hint.symm.trans hi

/-- A timer has no events, so that it is deleted before its callback runs. -/
theorem takeActive_timer (hsel : evsel.NoFault) (hsig : evsigsel.NoFault) (h : Sound none s)
    {i : Nat} (hc : s.commonTimeoutQueues[i]? = some c) :
    Yields StaleWrite (takeActive evsel evsigsel s c.timeoutEvent) fun s1 =>
      Sound (some i) s1 ∧ s1.commonTimeoutQueues = s.commonTimeoutQueues ∧
        (∀ x, x ≠ c.timeoutEvent → s1.evs x = s.evs x) ∧ Frame s s1 := by
  have hint := h.inv.timer_internal hc
  obtain ⟨hinit, hevents, -, hfin, -⟩ := (h.inv.ev c.timeoutEvent).internal hint
  unfold takeActive
  rw [if_pos (by simp [hinit, hevents, hfin, hasAny])]
  refine Yields.map (((eventDelNolock_yields hsel hsig h.inv (by simp [hfin])).weaken
    fun _ => And.left).mono fun p hp => ?_)
  refine ⟨h.deleted_timer hc hp, ?_, fun x hx => by rw [hp.evs, upd_ne _ _ hx], hp.frame⟩
  rw [hp.common]
  exact eraseCommon_eq_self fun d hd => h.inv.internal_not_mem hint hd

/-- The closure of an event that was taken out of its queue. -/
theorem Ran.dispatched {s1 : EventBase β} {fl : EvFlags} (hr : Ran s1 ev s')
    (hevs : s1.evs = upd s.evs ev { s.evs ev with evFlags := fl })
    (hfl : fl.internal = (s.evs ev).evFlags.internal) (hf : Frame s s1) : Dispatched s ev s' := by
  have hself : s1.evs ev = { s.evs ev with evFlags := fl } := by rw [hevs, upd_self]
  have hrest : ∀ x, x ≠ ev → s1.evs x = s.evs x := fun x hx => by rw [hevs, upd_ne _ _ hx]
  refine ⟨hr.sound, fun x hx hint _ => ?_, ?_, fun hcall => ?_⟩
  · rw [hr.others x hx (by rw [hrest x hx]; exact hint), hrest x hx]
  · obtain ⟨l, hlog, hl⟩ := hr.calls
    exact ⟨l, by rw [hlog, hf.log], hl⟩
  · rw [hr.called (by rw [hself]; exact ⟨hfl.trans hcall.1, hcall.2⟩), hf.log, hself]

/-- One round of `event_process_active_single_queue`. -/
theorem processActive_yields (hsel : evsel.NoFault) (hsig : evsigsel.NoFault) (h : Sound none s)
    (pri : Nat) :
    Yields StaleWrite (processActive debugMode evsel evsigsel s pri) fun s' =>
      (s.activequeues pri = [] ∧ s' = s) ∨
        ∃ ev rest, s.activequeues pri = ev :: rest ∧ Dispatched s ev s' := by
  cases hq : s.activequeues pri with
  | nil =>
    refine Yields.of_eq (a := s) ?_ (.inl ⟨rfl, rfl⟩)
    unfold processActive
    rw [hq]
  | cons ev rest =>
    have hact : (s.evs ev).evFlags.active = true := ((h.inv.act.mem pri ev).mp (by simp [hq])).1
    have hkind : KindOk (s.evs ev) := (h.inv.ev ev).kind (by simp [Event.queued, hact])
    rw [processActive_cons hq]
    suffices hmain : Yields StaleWrite (takeActive evsel evsigsel s ev >>= fun s1 =>
        runClosure debugMode evsel evsigsel s1 ev) (Dispatched s ev) from
      hmain.mono fun s' hd => .inr ⟨ev, rest, rfl, hd⟩
    cases hint : (s.evs ev).evFlags.internal with
    | false =>
      refine (takeActive_yields hsel hsig h hact hint).bind ?_
      rintro s1 ⟨h1, ⟨fl, hevs, hfl, hfin⟩, hf⟩
      have hself : s1.evs ev = { s.evs ev with evFlags := fl } := by rw [hevs, upd_self]
      refine (runClosure_yields hsel hsig h1 ?_ ?_ fun hcl => ?_).mono
        fun s' hr => hr.dispatched hevs hfl hf
      · rw [EventBase.External, hself, ← hint, ← hfl]
      · rw [hself]; exact hkind
      · rw [hself] at hcl ⊢
        rcases (h.inv.ev ev).final hcl with hfz | ⟨hsig', hio⟩
        · exact hfin.trans hfz
        · rw [(hkind hsig').1] at hio
          cases hio
    | true =>
      obtain ⟨c, hmem, rfl⟩ := h.inv.timers.internal ev hint
      obtain ⟨i, hc⟩ := List.getElem?_of_mem hmem
      refine (takeActive_timer hsel hsig h hc).bind ?_
      rintro s1 ⟨h1, hqueues, hevs, hf⟩
      refine (runClosure_timer hsel hsig h1 (by rw [hqueues]; exact hc)).mono ?_
      rintro s' ⟨hs', hf', hrest⟩
      refine ⟨hs', fun x hx hxint hdue => ?_, ⟨[], ?_, by simp⟩, fun hno => ?_⟩
      · rw [hrest x (by rw [hevs x hx]; exact hxint) ?_, hevs x hx]
        unfold NotDueIn
        rw [hqueues, hevs x hx, hf.now]
        exact hdue i c hc rfl
      · rw [hf'.log, hf.log, List.append_nil]
      · cases hint.symm.trans hno.1

/-- What `event_signal_closure` does after its callback returned: it calls the callback once
more, or it leaves every event as it is, up to `ev_pncalls`. -/
theorem continueClosure_spec (h : Sound none s) (brk : Bool) : Sound none (continueClosure s brk) ∧
      ((∃ ev, (continueClosure s brk).log = s.log ++ [(ev, (s.evs ev).evRes)] ∧
          ∀ x, x ≠ ev → (continueClosure s brk).evs x = s.evs x) ∨
        ((continueClosure s brk).log = s.log ∧
          ∀ x, ∃ b, (continueClosure s brk).evs x = { s.evs x with evPncalls := b })) := by
  have hend : ∀ {s1 : EventBase β}, Sound none s1 → Sound none { s1 with closure := none } :=
    fun h1 => h1.congr rfl h1.inv.now
  have hsame : ∀ x, ∃ b, s.evs x = { s.evs x with evPncalls := b } := fun x => ⟨_, rfl⟩
  unfold continueClosure
  cases s.closure with
  | none => exact ⟨h, .inr ⟨rfl, hsame⟩⟩
  | some c =>
    obtain ⟨ev, k⟩ := c
    cases brk with
    | true =>
      simp only [if_true]
      split
      · exact ⟨hend h, .inr ⟨rfl, hsame⟩⟩
      refine ⟨hend (h.alike ⟨rfl, rfl, rfl, rfl, rfl, rfl⟩ rfl), .inr ⟨rfl, fun x => ?_⟩⟩
      rcases eq_or_ne x ev with rfl | hx
      · exact ⟨false, upd_self _ _ _⟩
      · exact ⟨_, upd_ne _ _ hx⟩
    | false =>
      cases k with
      | zero => exact ⟨hend h, .inr ⟨rfl, hsame⟩⟩
      | succ k =>
        obtain ⟨hlog, hevs⟩ := signalRound_spec s ev k
        exact ⟨h.signalRound ev k, .inl ⟨ev, hlog, hevs⟩⟩

end Libevent
