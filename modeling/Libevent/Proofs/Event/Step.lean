import Libevent.Proofs.Event.Dispatch

/-!
# `Libevent.Proofs.Event.Step`: one action

`eventStep_yields`: a legal action keeps `Sound`, or it ends with the stale write of
`event_del_nolock_`. At the same time it says what becomes of an active event: as long as the
action spares the event (`Spares`), the event stays in its queue with its result bits (`Waits`),
or its callback runs and is given them (`Reports`).
-/

namespace Libevent

open Lib

variable {β : Type} {s s' : EventBase β} {ev x : EvId} {debugMode : Bool}
  {evsel evsigsel : EventOp β} {a : EventAction}

/-! ### What becomes of an active event -/

/-- The event is in its queue, with the bits it had and with its calls, and its callback did not
run. -/
structure Waits (s : EventBase β) (x : EvId) (s' : EventBase β) : Prop where
  active : (s'.evs x).evFlags.active = true
  internal : (s'.evs x).evFlags.internal = false
  res : ∃ r, (s'.evs x).evRes = (s.evs x).evRes ||| r
  closure : (s'.evs x).evClosure = (s.evs x).evClosure
  ncalls : (s.evs x).evClosure = .eventSignal → (s'.evs x).evNcalls = (s.evs x).evNcalls
  calls : ∃ l, s'.log = s.log ++ l ∧ ∀ p ∈ l, p.1 ≠ x

/-- The callback of the event ran with the bits the event had. -/
def Reports (s : EventBase β) (x : EvId) (s' : EventBase β) : Prop :=
  s'.log = s.log ++ [(x, (s.evs x).evRes)]

/-- An action that is a deletion, an addition or a finalization of `x` by its user. -/
def EventAction.targets (x : EvId) : EventAction → Bool
  | .add ev _ | .del ev | .finalize ev _ | .callbackCancel ev | .callbackFinalize ev => ev == x
  | _ => false

/-- The timeout of the event has expired. -/
def Due (s : EventBase β) (x : EvId) : Prop :=
  (s.evs x).evFlags.timeout = true ∧ timeKey (s.evs x).evTimeout.masked ≤ timeKey s.tvNow

instance (s : EventBase β) (x : EvId) : Decidable (Due s x) := by
  unfold Due
  infer_instance

/-- The action does not take `x` out of its queue without running its callback. -/
def Spares (s : EventBase β) (x : EvId) : EventAction → Prop
  | .removeTimer ev => ev = x → (s.evs x).evClosure = .eventSignal →
      (s.evs x).evFlags.timeout = false
  | .timeoutProcess => Due s x → s.isCommon (s.evs x).evTimeout = true
  | .processActive pri => Due s x → s.isCommon (s.evs x).evTimeout = true →
      ∀ c ∈ s.commonTimeoutQueues[commonTimeoutIdx (s.evs x).evTimeout]?,
        (s.activequeues pri).head? ≠ some c.timeoutEvent
  | _ => True

instance (s : EventBase β) (x : EvId) : (a : EventAction) → Decidable (Spares s x a)
  | .removeTimer ev => inferInstanceAs (Decidable (ev = x → _ → _))
  | .timeoutProcess => inferInstanceAs (Decidable (Due s x → _))
  | .processActive _ => inferInstanceAs (Decidable (Due s x → _ → _))
  | .assign .. | .prioritySet .. | .add .. | .del _ | .active .. | .activeLater ..
  | .finalize .. | .initCommonTimeout .. | .deferredInit .. | .deferredSchedule _
  | .callbackCancel _ | .callbackFinalize _ | .ioActive .. | .signalActive .. | .tick _
  | .newIteration | .makeLaterEventsActive | .continueClosure _ => isTrue trivial

section
variable (hact : (s.evs x).evFlags.active = true) (hint : (s.evs x).evFlags.internal = false)
  (hevs : s'.evs x = s.evs x)
include hact hint hevs

theorem Waits.of_eq (hcalls : ∃ l, s'.log = s.log ++ l ∧ ∀ p ∈ l, p.1 ≠ x) : Waits s x s' :=
  ⟨by rw [hevs]; exact hact, by rw [hevs]; exact hint, ⟨0, by rw [hevs, Nat.or_zero]⟩,
    by rw [hevs], fun _ => by rw [hevs], hcalls⟩

/-- An action that runs no callback and leaves the event as it is. -/
theorem Waits.of_frame (hlog : s'.log = s.log) : Waits s x s' :=
  Waits.of_eq hact hint hevs ⟨[], by rw [hlog, List.append_nil], by simp⟩

end

/-- An activation. -/
theorem Accumulated.waits (h : Accumulated s s') (hact : (s.evs x).evFlags.active = true)
    (hint : (s.evs x).evFlags.internal = false) : Waits s x s' := by
  obtain ⟨r, hr⟩ := h.active x hact
  exact ⟨by rw [hr]; exact hact, by rw [hr]; exact hint, ⟨r, by rw [hr]⟩, by rw [hr],
    fun _ => by rw [hr], [], by rw [h.frame.log, List.append_nil], by simp⟩

/-! ### One action -/

/-- What a legal action does: it keeps the invariant, it forgets no call of a callback, and an
active event that the action spares waits or is reported. -/
structure Stepped (s : EventBase β) (a : EventAction) (s' : EventBase β) : Prop where
  sound : Sound none s'
  log : s.log <+: s'.log
  carried : ∀ x, (s.evs x).evFlags.active = true → Callable (s.evs x) →
    a.targets x = false → Spares s x a → Waits s x s' ∨ Reports s x s'

/-- An action that runs no callback and changes only events that are not active or that it
targets. -/
theorem Stepped.of_others (h : Sound none s') (hlog : s'.log = s.log) (hevs : ∀ x, (s.evs
      x).evFlags.active = true → (s.evs x).evFlags.internal = false → a.targets x = false → s'.evs x
      = s.evs x) : Stepped s a s' :=
  ⟨h, by rw [hlog], fun x hact hcall ht _ =>
    .inl (Waits.of_frame hact hcall.1 (hevs x hact hcall.1 ht) hlog)⟩

theorem Accumulated.stepped (h : Accumulated s s') (hs : Sound none s') : Stepped s a s' :=
  ⟨hs, by rw [h.frame.log], fun _ hact hcall _ _ => .inl (h.waits hact hcall.1)⟩

theorem Unqueued.ne_active (h : Unqueued s ev) (hact : (s.evs x).evFlags.active = true) : x ≠ ev :=
  fun hx => by
    rw [hx, h.2.2.1] at hact
    cases hact

theorem eventAssign_stepped (h : Sound none s) {fd : Int} {events : Nat}
    (hl : EventLegal s (.assign ev fd events)) :
    Stepped s (.assign ev fd events) (eventAssign s ev fd events).2 := by
  have hevs : ∀ x, x ≠ ev → (eventAssign s ev fd events).2.evs x = s.evs x := by
    intro x hx
    unfold eventAssign
    split
    · exact upd_ne _ _ hx
    · exact upd_ne _ _ hx
  have hlog : (eventAssign s ev fd events).2.log = s.log := by
    unfold eventAssign
    split <;> rfl
  exact .of_others (eventAssign_sound h hl.1 hl.2.1 fd events) hlog
    fun x hact _ _ => hevs x (hl.2.1.ne_active hact)

theorem eventPrioritySet_stepped (h : Sound none s) (ev : EvId) (pri : Int) :
    Stepped s (.prioritySet ev pri) (eventPrioritySet s ev pri).2 := by
  refine .of_others (eventPrioritySet_sound h ev pri) ?_ fun x hact _ _ => ?_
  · unfold eventPrioritySet
    split
    · rfl
    · split <;> rfl
  unfold eventPrioritySet
  split
  · rfl
  next hno =>
  have hx : x ≠ ev := fun hx => hno (by rw [← hx]; exact hact)
  split
  · rfl
  · exact upd_ne _ _ hx

theorem eventDeferredCbInit_stepped (h : Sound none s) {pri : Nat}
    (hl : EventLegal s (.deferredInit ev pri)) :
    Stepped s (.deferredInit ev pri) (eventDeferredCbInit s ev pri) :=
  .of_others (eventDeferredCbInit_sound h hl.1 hl.2.1 hl.2.2.1) rfl
    fun _ hact _ _ => upd_ne _ _ (hl.2.1.ne_active hact)

theorem eventDel_stepped (hsel : evsel.NoFault) (hsig : evsigsel.NoFault) (h : Sound none s)
    (hu : Usable s ev) :
    Yields StaleWrite ((eventDelNolock evsel evsigsel s ev false).map Prod.snd)
      (Stepped s (.del ev)) := by
  refine Yields.map ?_
  cases hfin : (s.evs ev).evFlags.finalizing with
  | true =>
    rw [eventDelNolock_finalizing hfin]
    exact .of_others h rfl fun _ _ _ _ => rfl
  | false =>
    refine (eventDelNolock_sound hsel hsig h hu.internal hfin).mono fun p hp => ?_
    refine .of_others hp.1 hp.2.frame.log fun x _ _ ht => ?_
    rw [hp.2.evs, upd_ne _ _ fun hx => by simp [EventAction.targets, hx] at ht]

theorem eventCallbackCancel_stepped (hsel : evsel.NoFault) (hsig : evsigsel.NoFault)
    (h : Sound none s) (hint : s.External ev) :
    Yields StaleWrite ((eventCallbackCancelNolock evsel evsigsel s ev false).map Prod.snd)
      (Stepped s (.callbackCancel ev)) := by
  refine Yields.map ?_
  cases hfin : (s.evs ev).evFlags.finalizing with
  | true =>
    rw [eventCallbackCancelNolock, if_pos (by simp [hfin])]
    exact .of_others h rfl fun _ _ _ _ => rfl
  | false =>
    refine (eventCallbackCancelNolock_yields hsel hsig h hint hfin).mono fun p hp => ?_
    obtain ⟨fl, hevs, -⟩ := hp.2.evs
    refine .of_others hp.1 hp.2.frame.log fun x _ _ ht => ?_
    rw [hevs, upd_ne _ _ fun hx => by simp [EventAction.targets, hx] at ht]

/-- `event_remove_timer` clears `ev_io_timeout`, which shares its memory with the number of calls
of a signal event. -/
theorem eventRemoveTimer_stepped {E : Fault → Prop} (h : Sound none s) (hu : Usable s ev) :
    Yields E (eventRemoveTimerNolock s ev) (Stepped s (.removeTimer ev)) := by
  refine (eventRemoveTimerNolock_yields h.inv).mono ?_
  rintro s' (rfl | ⟨htime, s1, hoff, rfl⟩)
  · exact .of_others h rfl fun _ _ _ _ => rfl
  have h1 : Sound none s1 := h.erased hoff.inv hoff.evs hoff.common hu.internal
  refine ⟨h1.clearIoTimeout ⟨rfl, rfl, rfl, rfl, rfl, rfl⟩ rfl, ?_, fun x hact hcall _ hsp => ?_⟩
  · rw [← hoff.frame.log]
    exact List.prefix_rfl
  left
  rcases eq_or_ne x ev with rfl | hx
  · have hcl : (s.evs x).evClosure ≠ .eventSignal := fun hcl => by
      rw [hsp rfl hcl] at htime
      cases htime
    refine ⟨?_, ?_, ⟨0, ?_⟩, ?_, fun hs => absurd hs hcl, [], ?_, by simp⟩
    · rw [EventBase.setEv_evs, upd_self, hoff.evs, upd_self]; exact hact
    · rw [EventBase.setEv_evs, upd_self, hoff.evs, upd_self]; exact hcall.1
    · rw [EventBase.setEv_evs, upd_self, hoff.evs, upd_self, Nat.or_zero]
    · rw [EventBase.setEv_evs, upd_self, hoff.evs, upd_self]
    · rw [List.append_nil]; exact hoff.frame.log
  · refine Waits.of_frame hact hcall.1 ?_ hoff.frame.log
    rw [EventBase.setEv_evs, upd_ne _ _ hx, hoff.evs, upd_ne _ _ hx]

/-- An event that is not due stays as it is in `timeout_process`. -/
theorem timeoutProcess_stepped (hsel : evsel.NoFault) (hsig : evsigsel.NoFault) (h : Sound none s) :
    Yields StaleWrite (timeoutProcess evsel evsigsel s) (Stepped s .timeoutProcess) := by
  refine (timeoutProcess_yields hsel hsig h).mono fun s' hs' =>
    ⟨hs'.1, by rw [hs'.2.1.log], fun x hact hcall _ hsp => ?_⟩
  refine .inl (Waits.of_frame hact hcall.1 (hs'.2.2 x fun hmem => ?_) hs'.2.1.log)
  obtain ⟨htime, hcommon⟩ := (h.inv.time.heap_mem x).mp hmem
  have hmask := (h.inv.time.tv_ok x).masked_eq hcommon
  by_contra hle
  have hdue : Due s x := ⟨htime, by rw [hmask]; exact not_lt.mp hle⟩
  exact absurd (hsp hdue) (by rw [EventBase.isCommon, EventBase.nCommonTimeouts, hcommon]; simp)

theorem processActive_stepped (hsel : evsel.NoFault) (hsig : evsigsel.NoFault)
    (h : Sound none s) (pri : Nat) :
    Yields StaleWrite (processActive debugMode evsel evsigsel s pri)
      (Stepped s (.processActive pri)) := by
  refine (processActive_yields hsel hsig h pri).mono fun s' hs' => ?_
  rcases hs' with ⟨-, rfl⟩ | ⟨ev, rest, hq, hd⟩
  · exact .of_others h rfl fun _ _ _ _ => rfl
  obtain ⟨l, hlog, hl⟩ := hd.calls
  refine ⟨hd.sound, hlog ▸ List.prefix_append _ _, fun x hact hcall _ hsp => ?_⟩
  rcases eq_or_ne x ev with rfl | hx
  · exact .inr (hd.called hcall)
  refine .inl (Waits.of_eq hact hcall.1 (hd.others x hx hcall.1 ?_)
    ⟨l, hlog, fun p hp hpx => hx (hpx.symm.trans (hl p hp))⟩)
  rintro i c hc rfl d hd' hmem
  cases hc.symm.trans hd'
  obtain ⟨htime, hcommon, hidx⟩ := (h.inv.time.common_mem i c hc x).mp hmem
  by_contra hle
  exact hsp ⟨htime, not_lt.mp hle⟩ hcommon c (by rw [hidx]; exact hc) (by rw [hq]; rfl)

theorem continueClosure_stepped (h : Sound none s) (brk : Bool) :
    Stepped s (.continueClosure brk) (continueClosure s brk) := by
  obtain ⟨hs, hcalls⟩ := continueClosure_spec h brk
  refine ⟨hs, ?_, fun x hact hcall _ _ => ?_⟩
  · rcases hcalls with ⟨ev, hlog, -⟩ | ⟨hlog, -⟩
    · exact hlog ▸ List.prefix_append _ _
    · rw [hlog]
  rcases hcalls with ⟨ev, hlog, hevs⟩ | ⟨hlog, hevs⟩
  · rcases eq_or_ne x ev with rfl | hx
    · exact .inr hlog
    · exact .inl (Waits.of_eq hact hcall.1 (hevs x hx)
        ⟨_, hlog, fun p hp hpx => hx (by rw [List.mem_singleton.mp hp] at hpx; exact hpx.symm)⟩)
  · obtain ⟨b, hb⟩ := hevs x
    exact .inl ⟨by rw [hb]; exact hact, by rw [hb]; exact hcall.1, ⟨0, by rw [hb, Nat.or_zero]⟩,
      by rw [hb], fun _ => by rw [hb], [], by rw [hlog, List.append_nil], by simp⟩

/-- One legal action. -/
theorem eventStep_yields (hsel : evsel.NoFault) (hsig : evsigsel.NoFault) (h : Sound none s)
    (hl : EventLegal s a) :
    Yields StaleWrite (eventStep debugMode evsel evsigsel s a) (Stepped s a) := by
  cases a with
  | assign ev fd events => exact eventAssign_stepped h hl
  | prioritySet ev pri => exact eventPrioritySet_stepped h ev pri
  | add ev tv =>
    obtain ⟨hu, htv⟩ := hl
    refine Yields.map ((eventAddNolock_yields hsel hsig 0 h hu.internal hu.init hu.kind
      fun t ht => timeoutOk_of_legal h.inv (htv t ht) _).mono fun p hp => ?_)
    exact .of_others hp.1 hp.2.1.frame.log fun x _ hint ht =>
      hp.2.1.others x (fun hx => by simp [EventAction.targets, hx] at ht) hint
  | del ev => exact eventDel_stepped hsel hsig h hl
  | removeTimer ev => exact eventRemoveTimer_stepped h hl
  | active ev res ncalls =>
    exact (eventActiveNolock_yields h hl.kind res ncalls).mono fun s' hs' => hs'.2.1.stepped hs'.1
  | activeLater ev res =>
    exact (eventActiveLaterNolock_yields h hl.kind hl.internal res).mono fun s' hs' =>
      hs'.2.stepped hs'.1
  | finalize ev free =>
    refine (eventFinalizeNolock_yields hsel hsig h hl.internal hl.kind free).mono fun s' hs' => ?_
    exact .of_others hs'.1 hs'.2.2.log fun x _ _ ht =>
      hs'.2.1 x fun hx => by simp [EventAction.targets, hx] at ht
  | initCommonTimeout duration addr =>
    refine Yields.map ((eventBaseInitCommonTimeout_yields h hl.1 duration).mono fun p hp => ?_)
    exact .of_others hp.1 hp.2.2.log fun x hact _ _ => hp.2.1 x fun hx => by
      rw [hx, hl.1] at hact
      cases hact
  | deferredInit cb pri => exact eventDeferredCbInit_stepped h hl
  | deferredSchedule cb =>
    exact Yields.map ((eventDeferredCbSchedule_yields h hl.1 hl.2.1).mono fun p hp =>
      hp.2.stepped hp.1)
  | callbackCancel evcb => exact eventCallbackCancel_stepped hsel hsig h hl.1
  | callbackFinalize evcb =>
    refine (eventCallbackFinalizeNolock_yields hsel hsig h hl.1 fun hi => (hl.2 hi).kind).mono
      fun s' hs' => ?_
    exact .of_others hs'.1 hs'.2.2.log fun x _ _ ht =>
      hs'.2.1 x fun hx => by simp [EventAction.targets, hx] at ht
  | ioActive fd events =>
    exact (evmapIoActive_yields h fd events).mono fun s' hs' => hs'.2.stepped hs'.1
  | signalActive sig ncalls =>
    exact (evmapSignalActive_yields h sig ncalls).mono fun s' hs' => hs'.2.stepped hs'.1
  | tick now =>
    exact .of_others (h.congr rfl hl) rfl fun _ _ _ _ => rfl
  | newIteration =>
    exact .of_others (h.congr rfl h.inv.now) rfl fun _ _ _ _ => rfl
  | timeoutProcess => exact timeoutProcess_stepped hsel hsig h
  | makeLaterEventsActive =>
    exact (makeLaterEventsActive_yields s.activeLaterQueue s rfl h).mono fun s' hs' =>
      hs'.2.stepped hs'.1
  | processActive pri => exact processActive_stepped hsel hsig h pri
  | continueClosure brk => exact continueClosure_stepped h brk

end Libevent
