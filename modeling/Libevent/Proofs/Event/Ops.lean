import Libevent.Proofs.Event.Map
import Libevent.Proofs.Event.TimeoutQueues

/-!
# `Libevent.Proofs.Event.Ops`: activating and deleting events

`event_active`, `event_active_later_`, `event_del` and `event_remove_timer` keep the invariant. The
state after an activation is written out (`EventBase.activated`); what a deletion does is `Deleted`
(`eventDelNolock_yields`). A deletion can fault in one way only: the write through an `ev_pncalls`
whose `event_signal_closure` has returned (`StaleWrite`).
-/

namespace Libevent

open Lib

/-- The write of `event_del_nolock_` through a pointer to a dead stack frame. -/
def StaleWrite (f : Fault) : Prop := f = .useAfterFree

variable {β : Type} {s s' : EventBase β} {ev : EvId} {e' : Event} {E : Fault → Prop}
  {evsel evsigsel : EventOp β}

/-! ### Fields that no structure looks at -/

/-- The new event differs from the old one in fields that no structure looks at: the result,
the number of calls, and the timeout of a persistent event. -/
structure Alike (e e' : Event) : Prop where
  flags : e'.evFlags = e.evFlags
  pri : e'.evPri = e.evPri
  events : e'.evEvents = e.evEvents
  fd : e'.evFd = e.evFd
  closure : e'.evClosure = e.evClosure
  deadline : e'.evTimeout = e.evTimeout

theorem Alike.quiet {e : Event} (h : Alike e e') : Quiet e e' := by
  constructor <;> simp only [h.flags, h.deadline, h.pri, h.events, h.fd]

theorem Alike.eventOk {e : Event} (h : Alike e e') (hok : EventOk e) : EventOk e' where
  finalizing := by rw [h.flags]; exact hok.finalizing
  kind := by
    unfold KindOk
    rw [h.quiet.queued, h.events, h.fd]
    exact hok.kind
  inserted := by rw [h.flags, h.events]; exact hok.inserted
  final := by rw [h.flags, h.events, h.closure]; exact hok.final
  plain := by rw [h.flags, h.events, h.closure]; exact hok.plain
  internal := by rw [h.flags, h.events, h.closure, h.deadline]; exact hok.internal

theorem Inv.alike (h : Inv s) (ha : Alike (s.evs ev) e') : Inv (s.setEv ev e') :=
  h.quiet ha.quiet (ha.eventOk (h.ev ev))

/-- What the invariant looks at, the clock apart: not at the signal closure, the log and the
like. -/
def EventBase.view (s : EventBase β) :=
  (s.evs, s.commonTimeoutQueues, s.timeheap, s.nactivequeues, s.activequeues, s.activeLaterQueue,
    s.eventCountActive, s.evmap, s.eventCount)

theorem Inv.congr (h : Inv s) (hv : s'.view = s.view) (hnow : s'.tvNow.tvUsec < 1000000) :
    Inv s' := by
  simp only [EventBase.view, Prod.mk.injEq] at hv
  obtain ⟨hevs, hqueues, hheap, hn, hact, hlater, hcount, hmap, hec⟩ := hv
  constructor
  · rw [hevs, hheap, hqueues]; exact h.time
  · rw [hevs, hn, hact, hlater, hcount]; exact h.act
  · rw [hevs, hmap]; exact h.map
  · rw [hevs, hec]; exact h.count
  · rw [hevs]; exact h.ev
  · rw [hevs, hqueues]; exact h.timers
  · exact hnow

/-- What only the loop itself changes. -/
structure Frame (s s' : EventBase β) : Prop where
  now : s'.tvNow = s.tvNow
  log : s'.log = s.log
  closure : s'.closure.map Prod.fst = s.closure.map Prod.fst

/-- Nothing has happened. -/
theorem Frame.refl (s : EventBase β) : Frame s s := ⟨rfl, rfl, rfl⟩

theorem Frame.trans {s'' : EventBase β} (h : Frame s s') (h' : Frame s' s'') : Frame s s'' :=
  ⟨h'.now.trans h.now, h'.log.trans h.log, h'.closure.trans h.closure⟩

/-! ### `event_active` -/

/-- The event after `noteActive`. -/
def Event.noted (e : Event) (res : Nat) (ncalls : Int) : Event :=
  let e := { e with evRes := if e.evFlags.activeLater then e.evRes ||| res else res }
  if isSignal e.evEvents then { e with evNcalls := (ncalls % 65536).toNat, evPncalls := false }
  else e

section
variable (s ev) (res : Nat) (ncalls : Int)

theorem noteActive_evs :
    (noteActive s ev res ncalls).evs = upd s.evs ev ((s.evs ev).noted res ncalls) := rfl

theorem noteActive_eq : ∃ r n p b, noteActive s ev res ncalls = { s.setEv ev { s.evs ev with
      evRes := r, evNcalls := n, evPncalls := p } with eventContinue := b } := by
  unfold noteActive
  dsimp only
  split
  · exact ⟨_, _, _, _, rfl⟩
  · exact ⟨_, _, _, _, rfl⟩

end

theorem Event.noted_alike (e : Event) (res : Nat) (ncalls : Int) :
    Alike e (e.noted res ncalls) := by
  unfold Event.noted
  dsimp only
  split
  · exact ⟨rfl, rfl, rfl, rfl, rfl, rfl⟩
  · exact ⟨rfl, rfl, rfl, rfl, rfl, rfl⟩

theorem Inv.noteActive (h : Inv s) (res : Nat) (ncalls : Int) : Inv (noteActive s ev res ncalls) :=
  (h.alike ((s.evs ev).noted_alike res ncalls)).congr rfl h.now

/-- The base after `event_active_nolock_`. -/
def EventBase.activated (s : EventBase β) (ev : EvId) (res : Nat) (ncalls : Int) : EventBase β :=
  let flags := (s.evs ev).evFlags
  if flags.finalizing then s
  else if flags.active then s.setEv ev { s.evs ev with evRes := (s.evs ev).evRes ||| res }
  else if flags.activeLater then ((noteActive s ev res ncalls).dropLater ev).pushActive ev
  else (noteActive s ev res ncalls).pushActive ev

/-- `event_callback_activate_nolock_` of a callback on no active queue. -/
theorem eventCallbackActivateNolock_eq (hfin : (s.evs ev).evFlags.finalizing = false)
    (hact : (s.evs ev).evFlags.active = false) (hlat : (s.evs ev).evFlags.activeLater = false)
    (hpri : (s.evs ev).evPri < s.nactivequeues) :
    eventCallbackActivateNolock s ev = .ok (1, s.pushActive ev) := by
  unfold eventCallbackActivateNolock
  rw [if_neg (by simp [hfin]), if_neg (by simp [hact]), if_neg (by simp [hact]),
    if_neg (by simp [hlat]), if_neg (by simp [hlat])]
  show (eventQueueInsertActive s ev >>= fun s => pure (1, s)) = _
  rw [eventQueueInsertActive_eq hact hpri]
  rfl

/-- `event_callback_activate_nolock_` of a callback that was to become active later. -/
theorem eventCallbackActivateNolock_later (h : Inv s) (hfin : (s.evs ev).evFlags.finalizing = false)
    (hlat : (s.evs ev).evFlags.activeLater = true) :
    eventCallbackActivateNolock s ev = .ok (0, (s.dropLater ev).pushActive ev) ∧
      Inv ((s.dropLater ev).pushActive ev) := by
  have hact := h.act.not_active hlat
  obtain ⟨hdrop, hinv⟩ := eventQueueRemoveActiveLater_spec h hlat
  have hself : (s.dropLater ev).evs ev = { s.evs ev with
      evFlags := { (s.evs ev).evFlags with activeLater := false } } := upd_self _ _ _
  have hkind : KindOk (s.evs ev) := (h.ev ev).kind (by simp [Event.queued, hlat])
  obtain ⟨hpush, hinv'⟩ := eventQueueInsertActive_spec hinv (by rw [hself]; exact hact)
    (by rw [hself]) (by rw [hself]; exact hkind)
  refine ⟨?_, hinv'⟩
  unfold eventCallbackActivateNolock
  rw [if_neg (by simp [hfin]), if_neg (by simp [hact]), if_neg (by simp [hact]), if_pos hlat,
    if_pos hlat, hdrop]
  show (eventQueueInsertActive (s.dropLater ev) ev >>= fun s => pure (0, s)) = _
  rw [hpush]
  rfl

/-- `event_active_nolock_`. -/
theorem eventActiveNolock_spec (h : Inv s) (hkind : KindOk (s.evs ev)) (res : Nat) (ncalls : Int) :
    eventActiveNolock s ev res ncalls = .ok (s.activated ev res ncalls) ∧
      Inv (s.activated ev res ncalls) := by
  set s1 := noteActive s ev res ncalls with hs1
  have hinv1 : Inv s1 := h.noteActive res ncalls
  have hself : s1.evs ev = (s.evs ev).noted res ncalls := by
    rw [noteActive_evs, upd_self]
  have hnoted := (s.evs ev).noted_alike res ncalls
  have hflags : (s1.evs ev).evFlags = (s.evs ev).evFlags := by rw [hself, hnoted.flags]
  have hkind1 : KindOk (s1.evs ev) := by
    unfold KindOk
    rw [hself, hnoted.events, hnoted.fd]
    exact hkind
  unfold eventActiveNolock EventBase.activated
  dsimp only
  cases hfin : (s.evs ev).evFlags.finalizing with
  | true => exact ⟨rfl, h⟩
  | false =>
    have hboth : ¬ ((s.evs ev).evFlags.active && (s.evs ev).evFlags.activeLater) = true := by
      rw [Bool.and_eq_true]
      exact h.act.not_both ev
    simp only [if_neg hboth]
    cases hact : (s.evs ev).evFlags.active with
    | true =>
      exact ⟨rfl, h.alike ⟨rfl, rfl, rfl, rfl, rfl, rfl⟩⟩
    | false =>
      cases hlat : (s.evs ev).evFlags.activeLater with
      | true =>
        obtain ⟨hrun, hinv⟩ := eventCallbackActivateNolock_later hinv1
          (by rw [hflags]; exact hfin) (by rw [hflags]; exact hlat)
        rw [hrun]
        exact ⟨rfl, hinv⟩
      | false =>
        rw [eventCallbackActivateNolock_eq (by rw [hflags]; exact hfin) (by rw [hflags]; exact hact)
          (by rw [hflags]; exact hlat) (hinv1.act.pri ev)]
        exact ⟨rfl, (eventQueueInsertActive_spec hinv1 (by rw [hflags]; exact hact)
          (by rw [hflags]; exact hlat) hkind1).2⟩

/-- The event after `event_active_nolock_`. -/
def Event.activated (e : Event) (res : Nat) (ncalls : Int) : Event :=
  if e.evFlags.finalizing then e
  else if e.evFlags.active then { e with evRes := e.evRes ||| res }
  else
    { e.noted res ncalls with evFlags := { e.evFlags with active := true, activeLater := false } }

section
variable (s ev) (res : Nat) (ncalls : Int)

theorem activated_evs :
    (s.activated ev res ncalls).evs = upd s.evs ev ((s.evs ev).activated res ncalls) := by
  have hnoted := ((s.evs ev).noted_alike res ncalls).flags
  unfold EventBase.activated Event.activated
  dsimp only
  split
  · exact (upd_eq_self rfl).symm
  split
  · rfl
  split
  · rw [EventBase.pushActive_evs, EventBase.dropLater_evs, noteActive_evs]
    simp only [upd_self, upd_upd, hnoted]
  next hlat =>
  rw [EventBase.pushActive_evs, noteActive_evs]
  simp only [upd_self, upd_upd, hnoted, Bool.eq_false_iff.mpr hlat]

/-- What an activation leaves alone. -/
theorem activated_rest : let s' := s.activated ev res ncalls
    s'.timeheap = s.timeheap ∧ s'.commonTimeoutQueues = s.commonTimeoutQueues ∧
      s'.closure = s.closure ∧ Frame s s' := by
  unfold EventBase.activated
  dsimp only
  split
  · exact ⟨rfl, rfl, rfl, Frame.refl s⟩
  split
  · exact ⟨rfl, rfl, rfl, rfl, rfl, rfl⟩
  · split <;> exact ⟨rfl, rfl, rfl, rfl, rfl, rfl⟩

end

/-! ### `event_del` -/

/-- `s'` is `s` with the event off the structures of its timeout. -/
structure TimeoutOff (s : EventBase β) (ev : EvId) (s' : EventBase β) : Prop where
  inv : Inv s'
  evs : s'.evs =
    upd s.evs ev { s.evs ev with evFlags := { (s.evs ev).evFlags with timeout := false } }
  common : s'.commonTimeoutQueues = eraseCommon ev s.commonTimeoutQueues
  heap_lt : s.timeheap.Mem ev → s'.timeheap.n < s.timeheap.n
  activequeues : s'.activequeues = s.activequeues
  frame : Frame s s'

/-- `s'` is `s` with the event off the active queues. -/
structure ActiveOff (s : EventBase β) (ev : EvId) (s' : EventBase β) : Prop where
  inv : Inv s'
  evs : s'.evs = upd s.evs ev { s.evs ev with
    evFlags := { (s.evs ev).evFlags with active := false, activeLater := false } }
  queues : ∀ i, s'.activequeues i = (s.activequeues i).erase ev
  common : s'.commonTimeoutQueues = s.commonTimeoutQueues
  timeheap : s'.timeheap = s.timeheap
  frame : Frame s s'

/-- `s₁` is `s`, but the running closure may have been ended. -/
structure Aborted (s s₁ : EventBase β) : Prop where
  inv : Inv s → Inv s₁
  evs : s₁.evs = s.evs
  common : s₁.commonTimeoutQueues = s.commonTimeoutQueues
  timeheap : s₁.timeheap = s.timeheap
  activequeues : s₁.activequeues = s.activequeues
  frame : Frame s s₁

/-- `s'` is `s` with the event off its timeout and off the active queues, and with new flags. -/
structure Deleted (s : EventBase β) (ev : EvId) (fl : EvFlags) (s' : EventBase β) : Prop where
  inv : Inv s'
  evs : s'.evs = upd s.evs ev { s.evs ev with evFlags := fl }
  common : s'.commonTimeoutQueues = eraseCommon ev s.commonTimeoutQueues
  heap_lt : s.timeheap.Mem ev → s'.timeheap.n < s.timeheap.n
  queues : ∀ i, s'.activequeues i = (s.activequeues i).erase ev
  frame : Frame s s'

/-- The flags of an event on no structure. -/
def EvFlags.unqueued (fl : EvFlags) : EvFlags :=
  { fl with timeout := false, inserted := false, active := false, activeLater := false }

/-- The timeout part of `event_del_nolock_`. -/
theorem removeTimeout_yields (h : Inv s) (ev : EvId) :
    Yields E (if (s.evs ev).evFlags.timeout = true then eventQueueRemoveTimeout s ev else pure s)
      (TimeoutOff s ev) := by
  cases hflag : (s.evs ev).evFlags.timeout with
  | true =>
    obtain ⟨heap, hrun, hinv, hlt⟩ := eventQueueRemoveTimeout_spec h hflag
    exact Yields.of_eq hrun ⟨hinv, rfl, rfl, hlt, rfl, rfl, rfl, rfl⟩
  | false =>
    refine Yields.of_eq rfl ⟨h, (upd_eq_self ?_).symm, ?_,
      fun hm => absurd hm (h.time.not_mem_heap hflag), rfl, Frame.refl s⟩
    · rw [← hflag]
    · exact (eraseCommon_eq_self fun c hc => h.time.not_mem_common hflag hc).symm

/-- The active part of `event_del_nolock_`. -/
theorem removeActive_yields (h : Inv s) (ev : EvId) :
    Yields E (if (s.evs ev).evFlags.active = true then eventQueueRemoveActive s ev
      else if (s.evs ev).evFlags.activeLater = true then eventQueueRemoveActiveLater s ev
      else pure s) (ActiveOff s ev) := by
  have hout : ∀ i, ¬ ((s.evs ev).evFlags.active = true ∧ (s.evs ev).evPri = i) →
      (s.activequeues i).erase ev = s.activequeues i := fun i hi =>
    List.erase_of_not_mem fun hm => hi ((h.act.mem i ev).mp hm)
  cases hact : (s.evs ev).evFlags.active with
  | true =>
    have hlat := h.act.not_later hact
    obtain ⟨hrun, hinv⟩ := eventQueueRemoveActive_spec h hact
    refine Yields.of_eq hrun ⟨hinv, by rw [EventBase.dropActive_evs, ← hlat], fun i => ?_, rfl,
      rfl, rfl, rfl, rfl⟩
    show (if i = (s.evs ev).evPri then (s.activequeues (s.evs ev).evPri).erase ev
      else s.activequeues i) = _
    split
    · next hi => rw [hi]
    · next hi => rw [hout i fun hp => hi hp.2.symm]
  | false =>
    have hsame : ∀ i, s.activequeues i = (s.activequeues i).erase ev := fun i =>
      (hout i (by simp [hact])).symm
    cases hlat : (s.evs ev).evFlags.activeLater with
    | true =>
      obtain ⟨hrun, hinv⟩ := eventQueueRemoveActiveLater_spec h hlat
      exact Yields.of_eq hrun ⟨hinv, by rw [EventBase.dropLater_evs, ← hact], hsame, rfl, rfl,
        rfl, rfl, rfl⟩
    | false =>
      refine Yields.of_eq rfl ⟨h, (upd_eq_self ?_).symm, hsame, rfl, rfl, Frame.refl s⟩
      have hfl : ({ (s.evs ev).evFlags with active := false, activeLater := false } : EvFlags) =
          (s.evs ev).evFlags := EvFlags.ext rfl rfl hact.symm rfl hlat.symm rfl rfl
      rw [hfl]

theorem Aborted.refl (s : EventBase β) : Aborted s s :=
  ⟨id, rfl, rfl, rfl, rfl, Frame.refl s⟩

/-- A signal event whose `ev_pncalls` is followed when the event is deleted, though the
`event_signal_closure` to which it points has returned. -/
def StaleCalls (s : EventBase β) (ev : EvId) : Prop :=
  isSignal (s.evs ev).evEvents = true ∧ (s.evs ev).evNcalls ≠ 0 ∧ (s.evs ev).evPncalls = true ∧
    s.closure.map Prod.fst ≠ some ev

/-- The signal part of `event_del_nolock_`: nothing, or it ends the running closure of the
event. -/
theorem abortSignal_yields (s : EventBase β) (ev : EvId) :
    Yields (fun f => StaleWrite f ∧ StaleCalls s ev)
      (if isSignal (s.evs ev).evEvents = true then abortSignalLoop s ev else pure s)
      (Aborted s) := by
  split
  · next hs =>
    unfold abortSignalLoop
    split
    · next hcalls =>
      cases hc : s.closure with
      | none => exact ⟨rfl, hs, hcalls.1, hcalls.2, by simp [hc]⟩
      | some p =>
        dsimp only
        split
        · next he =>
          exact ⟨fun h => h.congr rfl h.now, rfl, rfl, rfl, rfl, rfl, rfl, by rw [hc, ← he]; rfl⟩
        · next hother => exact ⟨rfl, hs, hcalls.1, hcalls.2, by simpa [hc] using hother⟩
    · exact Aborted.refl s
  · exact Aborted.refl s

/-- The three parts together. -/
theorem Aborted.deleted {s1 s2 s3 : EventBase β} (h1 : Aborted s s1) (h2 : TimeoutOff s1 ev s2)
    (h3 : ActiveOff s2 ev s3) :
    Deleted s ev { (s.evs ev).evFlags with timeout := false, active := false, activeLater := false }
      s3 := by
  refine ⟨h3.inv, ?_, ?_, ?_, fun i => ?_, ?_⟩
  · rw [h3.evs, h2.evs, h1.evs, upd_self, upd_upd]
  · rw [h3.common, h2.common, h1.common]
  · rw [h3.timeheap, ← h1.timeheap]; exact h2.heap_lt
  · rw [h3.queues, h2.activequeues, h1.activequeues]
  · exact (h1.frame.trans h2.frame).trans h3.frame

theorem eventUnqueue_yields (h : Inv s) :
    Yields (fun f => StaleWrite f ∧ StaleCalls s ev) (eventUnqueue s ev) (Deleted s ev
      { (s.evs ev).evFlags with timeout := false, active := false, activeLater := false }) := by
  refine Yields.ite_bind (abortSignal_yields s ev) fun s1 h1 => ?_
  refine Yields.ite_bind (removeTimeout_yields (h1.inv h) ev) fun s2 h2 => ?_
  exact (removeActive_yields h2.inv ev).mono fun s3 h3 => h1.deleted h2 h3

/-- `event_del_nolock_` of an event that is not being finalized. -/
theorem eventDelNolock_yields (hsel : evsel.NoFault) (hsig : evsigsel.NoFault) (h : Inv s)
    {even : Bool} (hfin : (!even && (s.evs ev).evFlags.finalizing) = false) :
    Yields (fun f => StaleWrite f ∧ StaleCalls s ev)
      (eventDelNolock evsel evsigsel s ev even) fun p =>
        Deleted s ev (s.evs ev).evFlags.unqueued p.2 := by
  unfold eventDelNolock
  rw [if_neg (by simp [hfin])]
  refine (eventUnqueue_yields h).bind fun s1 h1 => ?_
  have hflags : (s1.evs ev).evFlags = { (s.evs ev).evFlags with
      timeout := false, active := false, activeLater := false } := by rw [h1.evs, upd_self]
  split
  · next hins =>
    obtain ⟨r, m, hrun, hinv⟩ := eventDelInserted_spec hsel hsig h1.inv hins
    refine Yields.of_eq hrun ⟨hinv, ?_, h1.common, h1.heap_lt, h1.queues,
      { h1.frame with }⟩
    rw [EventBase.dropInserted_evs, h1.evs, upd_self, upd_upd]
    rfl
  next hins =>
  refine Yields.of_eq rfl ⟨h1.inv, ?_, h1.common, h1.heap_lt, h1.queues, h1.frame⟩
  have hfl : (s.evs ev).evFlags.unqueued = { (s.evs ev).evFlags with
      timeout := false, active := false, activeLater := false } := by
    rw [hflags] at hins
    exact EvFlags.ext rfl (Bool.eq_false_iff.mpr hins).symm rfl rfl rfl rfl rfl
  rw [h1.evs, hfl]

/-- `event_del_nolock_` writes through a stale `ev_pncalls`. -/
theorem eventDelNolock_stale (hstale : StaleCalls s ev) {even : Bool}
    (hfin : (!even && (s.evs ev).evFlags.finalizing) = false) :
    eventDelNolock evsel evsigsel s ev even = .error .useAfterFree := by
  obtain ⟨hsignal, hcalls, hptr, hclosure⟩ := hstale
  have habort : abortSignalLoop s ev = .error .useAfterFree := by
    unfold abortSignalLoop
    rw [if_pos ⟨hcalls, hptr⟩]
    cases hc : s.closure with
    | none => rfl
    | some p => exact if_neg fun he => hclosure (by rw [hc, ← he]; rfl)
  unfold eventDelNolock eventUnqueue
  rw [if_neg (by simp [hfin]), if_pos hsignal, habort]
  rfl

theorem eventDelNolock_finalizing (hfin : (s.evs ev).evFlags.finalizing = true) :
    eventDelNolock evsel evsigsel s ev false = .ok (0, s) := by
  unfold eventDelNolock
  rw [if_pos (by simp [hfin])]

/-- `event_remove_timer_nolock_`. -/
theorem eventRemoveTimerNolock_yields (h : Inv s) :
    Yields E (eventRemoveTimerNolock s ev) fun s' => s' = s ∨
      (s.evs ev).evFlags.timeout = true ∧ ∃ s1, TimeoutOff s ev s1 ∧ s' = s1.setEv ev
        { s1.evs ev with evIoTimeout := {}, evNcalls := 0, evPncalls := false } := by
  unfold eventRemoveTimerNolock
  split
  · next hflag =>
    have hoff : Yields E (eventQueueRemoveTimeout s ev) (TimeoutOff s ev) := by
      have := removeTimeout_yields (E := E) h ev
      rwa [if_pos hflag] at this
    exact hoff.bind fun s1 h1 => .inr ⟨hflag, s1, h1, rfl⟩
  · exact .inl rfl

end Libevent
