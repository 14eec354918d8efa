import Libevent.Proofs.Event.Step

/-!
# `Libevent.Proofs.Event.Bookkeeping`: flags, structures and counters agree

`Bookkeeping s` says of a base in its own words what `event_base_assert_ok_nolock_` is after:
every flag of an event stands for one place in one structure, and the two counters count the
flags. `eventRun_bookkeeping` proves it for every state that a legal run reaches. A legal run
ends early in one way only: `event_del_nolock_` writes through `ev_pncalls` after the
`event_signal_closure` to which the pointer belongs has returned.
-/

namespace Libevent

open Lib

variable {β : Type} {s s' : EventBase β} {ev : EvId} {debugMode : Bool}
  {evsel evsigsel : EventOp β} {e : EvId} {npriorities : Nat}

/-! ### Runs -/

theorem MapInv.start (b : β) {mm : Mm} (hmm : mm.Reliable) :
    MapInv (fun _ => {}) ({ evbase := b, mm := mm } : Evmap β) where
  mm := hmm
  io_mem := by simp [Evmap.io]
  io_nodup := by simp [Evmap.io]
  counts := fun fd => ⟨rfl, rfl, rfl⟩
  io_bound := by simp
  sig_mem := by simp [Evmap.sig]
  sig_nodup := by simp [Evmap.sig]
  sig_bound := by simp

theorem TimeInv.start : TimeInv (fun _ => {}) { p := fun _ => 0 } [] where
  heap_ok := MinHeap.Ok.empty 0
  heap_mem := by simp [MinHeap.Mem]
  common_mem := by simp
  common_nodup := by simp
  common_sorted := by simp
  tv_ok := fun _ => .inl (show 0 < 1000000 by decide)

theorem ActiveInv.start (hpri : 0 < npriorities) :
    ActiveInv (fun _ => {}) npriorities (fun _ => []) [] 0 where
  mem := by simp
  nodup := by simp
  later_mem := by simp
  later_nodup := by simp
  not_both := by simp
  pri := fun _ => hpri
  count_eq := by simp

/-- The memory of an event on which no function was called yet. -/
theorem EventOk.start : EventOk {} where
  finalizing := by decide
  kind := fun h => absurd h (by decide)
  inserted := by decide
  final := by decide
  plain := by decide
  internal := by decide

theorem Sound.start (hpri : 0 < npriorities) (b : β) {mm : Mm} (hmm : mm.Reliable) :
    Sound none (EventBase.start npriorities ({ evbase := b, mm := mm } : Evmap β)) where
  inv := {
    time := TimeInv.start
    act := ActiveInv.start hpri
    map := MapInv.start b hmm
    count := Tally.zero
    ev := fun _ => EventOk.start
    timers := ⟨by simp [EventBase.start], by simp [EventBase.start], by simp [EventBase.start],
      by simp [EventBase.start], Nat.zero_le _⟩
    now := show 0 < 1000000 by decide }
  persist := fun _ _ => .inl rfl
  deadline := fun i _ c head hc => by simp [EventBase.start] at hc

/-- Every state of a legal run is sound. -/
theorem eventRun_yields (hsel : evsel.NoFault) (hsig : evsigsel.NoFault) (h : Sound none s)
    {as : List EventAction} (hl : Meets (eventStep debugMode evsel evsigsel) EventLegal s as) :
    Yields StaleWrite (run (eventStep debugMode evsel evsigsel) s as) (Sound none) :=
  Yields.run (fun _ _ hs ha => (eventStep_yields hsel hsig hs ha).mono fun _ hs' => hs'.sound) h hl

/-- A state that legal actions reach from a new base, with an allocator that does not fail. -/
def EventReached (debugMode : Bool) (evsel evsigsel : EventOp β) (s : EventBase β) : Prop :=
  ∃ (npriorities : Nat) (b : β) (mm : Mm) (as : List EventAction), 0 < npriorities ∧ mm.Reliable ∧
    Meets (eventStep debugMode evsel evsigsel) EventLegal
      (EventBase.start npriorities { evbase := b, mm := mm }) as ∧
    run (eventStep debugMode evsel evsigsel)
      (EventBase.start npriorities { evbase := b, mm := mm }) as = .ok s

theorem EventReached.sound (hsel : evsel.NoFault) (hsig : evsigsel.NoFault)
    (h : EventReached debugMode evsel evsigsel s) : Sound none s := by
  obtain ⟨npriorities, b, mm, as, hpri, hmm, hlegal, hrun⟩ := h
  exact (eventRun_yields hsel hsig (Sound.start hpri b hmm) hlegal).of_ok hrun

/-! ### The invariant in terms of places -/

namespace EventBase

/-- The cells of the time heap. -/
def heapCells (s : EventBase β) : List EvId := (List.range s.timeheap.n).map s.timeheap.p

/-- The list that the index in `tv_usec` of the event's timeout names. -/
def ownCommonTimeout (s : EventBase β) (e : EvId) : List EvId :=
  (s.commonTimeoutQueues[commonTimeoutIdx (s.evs e).evTimeout]?.map CommonTimeoutList.events).getD
    []

/-- The list of the map for the fd or the signal of the event. -/
def ownMapEntry (s : EventBase β) (e : EvId) : List EvId :=
  let fd := (s.evs e).evFd.toNat
  if isIo (s.evs e).evEvents then (s.evmap.io fd).events else s.evmap.sig fd

end EventBase

/-- What the flags and the counters of a base say. -/
structure Bookkeeping (s : EventBase β) : Prop where
  timeout : ∀ e, (s.evs e).evFlags.timeout = true ↔
    (s.heapCells.count e = 1 ∧ (s.ownCommonTimeout e).count e = 0) ∨
      (s.heapCells.count e = 0 ∧ (s.ownCommonTimeout e).count e = 1)
  timeout_own : ∀ i c, s.commonTimeoutQueues[i]? = some c → ∀ e ∈ c.events,
    commonTimeoutIdx (s.evs e).evTimeout = i
  active : ∀ e, (s.evs e).evFlags.active = true ↔ (s.activequeues (s.evs e).evPri).count e = 1
  active_own : ∀ i, ∀ e ∈ s.activequeues i, (s.evs e).evPri = i
  pri : ∀ e, (s.evs e).evPri < s.nactivequeues
  activeLater : ∀ e, (s.evs e).evFlags.activeLater = true ↔ s.activeLaterQueue.count e = 1
  not_both : ∀ e, ¬((s.evs e).evFlags.active = true ∧ (s.evs e).evFlags.activeLater = true)
  inserted : ∀ e, (s.evs e).evFlags.inserted = true ∧ 0 ≤ (s.evs e).evFd ↔
    (s.ownMapEntry e).count e = 1
  inserted_io : ∀ fd, ∀ e ∈ (s.evmap.io fd).events,
    isIo (s.evs e).evEvents = true ∧ (s.evs e).evFd = fd
  inserted_signal : ∀ sig, ∀ e ∈ s.evmap.sig sig,
    isSignal (s.evs e).evEvents = true ∧ (s.evs e).evFd = sig
  countActive : s.eventCountActive =
    (∑ i ∈ Finset.range s.nactivequeues, ((s.activequeues i).length : Int)) +
      s.activeLaterQueue.length
  count : Tally (fun e => weight (s.evs e)) s.eventCount
  /-- No event is in one place twice. -/
  once : s.heapCells.Nodup ∧ (∀ c ∈ s.commonTimeoutQueues, c.events.Nodup) ∧
    (∀ i, (s.activequeues i).Nodup) ∧ s.activeLaterQueue.Nodup ∧
    (∀ fd, (s.evmap.io fd).events.Nodup) ∧ ∀ sig, (s.evmap.sig sig).Nodup

/-- The event is in none of the places of the base. -/
structure OffBase (s : EventBase β) (e : EvId) : Prop where
  heap : e ∉ s.heapCells
  common : ∀ c ∈ s.commonTimeoutQueues, e ∉ c.events
  active : ∀ i, e ∉ s.activequeues i
  activeLater : e ∉ s.activeLaterQueue
  io : ∀ fd, e ∉ (s.evmap.io fd).events
  sig : ∀ sig, e ∉ s.evmap.sig sig

theorem count_eq_one_iff {l : List EvId} (h : l.Nodup) : l.count e = 1 ↔ e ∈ l :=
  ⟨fun hc => List.count_pos_iff.mp (by omega), List.count_eq_one_of_mem h⟩

theorem EventBase.mem_heapCells : e ∈ s.heapCells ↔ s.timeheap.Mem e := by
  simp [EventBase.heapCells, MinHeap.Mem]

theorem Inv.heapCells_nodup (h : Inv s) : s.heapCells.Nodup := by
  refine List.Nodup.map_on (fun i hi j hj heq => ?_) List.nodup_range
  exact h.time.heap_ok.inj (List.mem_range.mp hi) (List.mem_range.mp hj) heq

/-- The own list of an event with a common timeout exists, since the index is one of the
base's. -/
theorem Inv.mem_ownCommonTimeout (h : Inv s) :
    e ∈ s.ownCommonTimeout e ↔ (s.evs e).evFlags.timeout = true ∧
      isCommonTimeout (s.evs e).evTimeout s.commonTimeoutQueues.length = true := by
  unfold EventBase.ownCommonTimeout
  cases hc : s.commonTimeoutQueues[commonTimeoutIdx (s.evs e).evTimeout]? with
  | some c => simp [h.time.common_mem _ c hc e]
  | none =>
    have hno : isCommonTimeout (s.evs e).evTimeout s.commonTimeoutQueues.length ≠ true :=
      fun hcommon => by
        obtain ⟨c, hc'⟩ := getElem?_commonTimeoutIdx hcommon
        cases hc'.symm.trans hc
    simp [hno]

theorem Inv.ownCommonTimeout_nodup (h : Inv s) (e : EvId) : (s.ownCommonTimeout e).Nodup := by
  unfold EventBase.ownCommonTimeout
  cases hc : s.commonTimeoutQueues[commonTimeoutIdx (s.evs e).evTimeout]? with
  | some c => exact h.time.common_nodup c (List.mem_of_getElem? hc)
  | none => exact List.nodup_nil

theorem Inv.mem_ownMapEntry (h : Inv s) :
    e ∈ s.ownMapEntry e ↔ (s.evs e).evFlags.inserted = true ∧ 0 ≤ (s.evs e).evFd := by
  have hfd : (s.evs e).evFd = ((s.evs e).evFd.toNat : Int) ↔ 0 ≤ (s.evs e).evFd := by omega
  unfold EventBase.ownMapEntry
  split
  · next hio => rw [h.map.io_mem, hfd, and_iff_right hio]
  next hio =>
  have hno : isIo (s.evs e).evEvents = false := by simpa using hio
  rw [h.map.sig_mem, hfd, and_iff_right hno]

theorem Inv.ownMapEntry_nodup (h : Inv s) (e : EvId) : (s.ownMapEntry e).Nodup := by
  unfold EventBase.ownMapEntry
  split
  · exact h.map.io_nodup _
  · exact h.map.sig_nodup _

/-- An event without flags is nowhere. -/
theorem Inv.offBase (h : Inv s) (he : Unqueued s e) : OffBase s e := by
  obtain ⟨htimeout, hinserted, hactive, hlater⟩ := he
  refine ⟨?_, fun c hc hmem => ?_, fun i => ?_, ?_, fun fd => ?_, fun sig => ?_⟩
  · simp [EventBase.mem_heapCells, h.time.heap_mem, htimeout]
  · obtain ⟨i, hi⟩ := List.getElem?_of_mem hc
    simp [h.time.common_mem i c hi e, htimeout] at hmem
  · simp [h.act.mem, hactive]
  · simp [h.act.later_mem, hlater]
  · simp [h.map.io_mem, hinserted]
  · simp [h.map.sig_mem, hinserted]

/-- The invariant says that the books are in order. -/
theorem Inv.bookkeeping (h : Inv s) : Bookkeeping s where
  timeout := fun e => by
    simp only [count_eq_one_iff h.heapCells_nodup, count_eq_one_iff (h.ownCommonTimeout_nodup e),
      List.count_eq_zero, EventBase.mem_heapCells, h.mem_ownCommonTimeout, h.time.heap_mem e]
    cases isCommonTimeout (s.evs e).evTimeout s.commonTimeoutQueues.length <;> simp
  timeout_own := fun i c hc e he => ((h.time.common_mem i c hc e).mp he).2.2
  active := fun e => by
    rw [count_eq_one_iff (h.act.nodup _), h.act.mem]
    simp
  active_own := fun i e he => ((h.act.mem i e).mp he).2
  pri := h.act.pri
  activeLater := fun e => by rw [count_eq_one_iff h.act.later_nodup, h.act.later_mem]
  not_both := h.act.not_both
  inserted := fun e => by rw [count_eq_one_iff (h.ownMapEntry_nodup e), h.mem_ownMapEntry]
  inserted_io := fun fd e he => ((h.map.io_mem fd e).mp he).2
  inserted_signal := fun sig e he => by
    obtain ⟨hins, hio, hfd⟩ := (h.map.sig_mem sig e).mp he
    refine ⟨((h.ev e).inserted hins).resolve_left ?_, hfd⟩
    rw [hio]
    simp
  countActive := h.act.count_eq
  count := h.count
  once := ⟨h.heapCells_nodup, h.time.common_nodup, h.act.nodup, h.act.later_nodup, h.map.io_nodup,
    h.map.sig_nodup⟩

/-- The bookkeeping of an event base. From a new base, in every state that a run of legal
actions reaches, the books are in order. The events are any, and so are the number of
priorities and the two backends (`evsel`, `evsigsel`), whose calls end; allocations succeed. A
run stops before its end only when `event_del_nolock_` writes through the `ev_pncalls` of an
event whose `event_signal_closure` has returned: the defect that `timeoutProcess_stale` shows. -/
theorem eventRun_bookkeeping (debugMode : Bool) {evsel evsigsel : EventOp β}
    (hsel : evsel.NoFault) (hsig : evsigsel.NoFault) {npriorities : Nat} (hpri : 0 < npriorities)
    (b : β) {mm : Mm} (hmm : mm.Reliable) {as : List EventAction}
    (hlegal : Meets (eventStep debugMode evsel evsigsel) EventLegal
      (EventBase.start npriorities { evbase := b, mm := mm }) as) :
    (∀ s, run (eventStep debugMode evsel evsigsel)
      (EventBase.start npriorities { evbase := b, mm := mm }) as = .ok s → Bookkeeping s) ∧
    ∀ f, run (eventStep debugMode evsel evsigsel)
      (EventBase.start npriorities { evbase := b, mm := mm }) as = .error f → StaleWrite f := by
  have hrun := eventRun_yields hsel hsig (Sound.start hpri b hmm) hlegal
  exact ⟨fun s hs => (hrun.of_ok hs).inv.bookkeeping, fun f hf => hrun.of_error hf⟩

/-- A backend whose calls succeed and keep no state. -/
def idleBackend : EventOp Unit where
  add := fun b _ _ _ fdinfo => .ok (0, b, fdinfo)
  del := fun b _ _ _ fdinfo => .ok (0, b, fdinfo)

theorem idleBackend_noFault : idleBackend.NoFault where
  add := fun _ _ _ _ _ => ⟨_, rfl⟩
  del := fun _ _ _ _ _ => ⟨_, rfl⟩

/-- A run from a new base with this backend. -/
def idleRun (as : List EventAction) : Except Fault (EventBase Unit) :=
  run (eventStep false idleBackend idleBackend) (EventBase.start 1 { evbase := () }) as

/-- A reader with a common timeout whose fd becomes ready, and a signal event. -/
def sampleRun : List EventAction :=
  [.initCommonTimeout ⟨1, 0⟩ 9, .assign 1 3 (EV_READ ||| EV_PERSIST), .assign 2 5 EV_SIGNAL,
    .add 1 (some ⟨1, 0x50000000⟩), .add 2 none, .ioActive 3 EV_READ, .signalActive 5 2,
    .processActive 0, .processActive 0, .del 2, .continueClosure false, .removeTimer 1]

/-- The books are in order after this run. -/
theorem eventRun_bookkeeping_sampleRun :
    (∃ s, idleRun sampleRun = .ok s) ∧
    ∀ s, idleRun sampleRun = .ok s → Bookkeeping s :=
  ⟨⟨_, rfl⟩, (eventRun_bookkeeping false idleBackend_noFault idleBackend_noFault
    (by decide) () (fun _ => rfl) (by decide)).1⟩

end Libevent
