import Libevent.Proofs.Event.Bookkeeping

/-!
# `Libevent.Proofs.Event.Deadlines`: no common timeout misses its deadline

`CommonTimeoutsOk s`: every list of common timeouts is sorted, and the timer of a list with
events is active, or it is in the time heap with a deadline that is not after that of the first
event. `eventRun_commonTimeouts` proves it for every state of a legal run in which no allocation
fails.

`common_timeout_schedule` drops the result of `event_add_nolock_`. When the time heap is full
and cannot grow, the timer is not scheduled, and the events of its list never expire
(`commonTimeout_missed`).
-/

namespace Libevent

open Lib

variable {β : Type} {s : EventBase β} {c : CommonTimeoutList}

/-- The common timeouts of a base: the lists are sorted, and no timer is late. The magic bits
are masked. -/
def CommonTimeoutsOk (s : EventBase β) : Prop :=
  ∀ c ∈ s.commonTimeoutQueues, (c.events.Pairwise fun a b =>
      timeKey (s.evs a).evTimeout.masked ≤ timeKey (s.evs b).evTimeout.masked) ∧
    ∀ head ∈ c.events.head?, (s.evs c.timeoutEvent).evFlags.active = true ∨
      c.timeoutEvent ∈ s.heapCells ∧
        timeKey (s.evs c.timeoutEvent).evTimeout ≤ timeKey (s.evs head).evTimeout.masked

instance (s : EventBase β) : Decidable (CommonTimeoutsOk s) := by
  unfold CommonTimeoutsOk
  infer_instance

/-- The timeouts of the events on one list have the same magic bits, so that the list is sorted
with and without them. -/
theorem TimeInv.masked_sorted {evs : EvId → Event} {heap : MinHeap EvId}
    {queues : List CommonTimeoutList} (h : TimeInv evs heap queues) {i : Nat}
    (hc : queues[i]? = some c) :
    c.events.Pairwise fun a b =>
      timeKey (evs a).evTimeout.masked ≤ timeKey (evs b).evTimeout.masked := by
  refine (h.common_sorted c (List.mem_of_getElem? hc)).imp_of_mem fun {a b} ha hb hle => ?_
  obtain ⟨-, hca, hia⟩ := (h.common_mem i c hc a).mp ha
  obtain ⟨-, hcb, hib⟩ := (h.common_mem i c hc b).mp hb
  have hsame := (h.tv_ok a).same (h.tv_ok b) hca hcb (hia.trans hib.symm)
  exact (timeKey_masked_le hsame).mpr hle

/-- The timeout of a timer is no common timeout: a timer that is pending is in the heap. -/
theorem Inv.timer_mem_heapCells (h : Inv s) (hc : c ∈ s.commonTimeoutQueues)
    (htime : (s.evs c.timeoutEvent).evFlags.timeout = true) :
    c.timeoutEvent ∈ s.heapCells := by
  obtain ⟨-, -, -, -, -, husec⟩ := (h.ev c.timeoutEvent).internal (h.timers.timer c hc)
  rw [EventBase.mem_heapCells, h.time.heap_mem]
  exact ⟨htime, isCommonTimeout_of_lt (by omega) _⟩

theorem Sound.commonTimeoutsOk (h : Sound none s) : CommonTimeoutsOk s := by
  intro c hmem
  obtain ⟨i, hc⟩ := List.getElem?_of_mem hmem
  refine ⟨h.inv.time.masked_sorted hc, fun head hhead => ?_⟩
  exact (h.deadline i (by simp) c head hc hhead).imp_right fun ⟨htime, hle⟩ =>
    ⟨h.inv.timer_mem_heapCells hmem htime, hle⟩

/-- No common timeout misses its deadline in a legal run from a new base, when no allocation
fails. -/
theorem eventRun_commonTimeouts (debugMode : Bool) {evsel evsigsel : EventOp β}
    (hsel : evsel.NoFault) (hsig : evsigsel.NoFault) {npriorities : Nat} (hpri : 0 < npriorities)
    (b : β) {mm : Mm} (hmm : mm.Reliable) {as : List EventAction}
    (hlegal : Meets (eventStep debugMode evsel evsigsel) EventLegal
      (EventBase.start npriorities { evbase := b, mm := mm }) as)
    (hrun : run (eventStep debugMode evsel evsigsel)
      (EventBase.start npriorities { evbase := b, mm := mm }) as = .ok s) :
    CommonTimeoutsOk s :=
  ((eventRun_yields hsel hsig (Sound.start hpri b hmm) hlegal).of_ok hrun).commonTimeoutsOk

/-- The timeout that `event_base_init_common_timeout` returns for the list number `i` of
`i + 1` seconds. -/
def commonTv (i : Nat) : Timeval := ⟨(i : Int) + 1, COMMON_TIMEOUT_MAGIC ||| i <<< 20⟩

/-- Nine lists, of 1 to 9 seconds, whose timers are the events 100 to 108. Events 0 and 9 are on
the first one; with them, the timers of eight lists fill the heap. The first timer fires, an
event is added to the ninth list before its callback runs, and then event 0 expires. -/
def fullHeapRun : List EventAction :=
  ((List.range 9).map fun i => .initCommonTimeout ⟨(i : Int) + 1, 0⟩ (100 + i)) ++
  ((List.range 10).map fun i => .assign i (-1) 0) ++
  [.add 0 (some (commonTv 0)), .tick ⟨0, 500000⟩, .add 9 (some (commonTv 0))] ++
  ((List.range 7).map fun i => .add (i + 1) (some (commonTv (i + 1)))) ++
  [.tick ⟨1, 0⟩, .timeoutProcess, .add 8 (some (commonTv 8)), .processActive 0]

/-- The heap grows, and no deadline is lost. -/
theorem eventRun_commonTimeouts_fullHeapRun :
    (∃ s, idleRun fullHeapRun = .ok s) ∧
    ∀ s, idleRun fullHeapRun = .ok s → CommonTimeoutsOk s :=
  ⟨⟨_, rfl⟩, fun _ hrun => eventRun_commonTimeouts false idleBackend_noFault idleBackend_noFault
    (by decide) () (fun _ => rfl) (by decide) hrun⟩

/-- The heap cannot grow: `common_timeout_callback` leaves event 9 in the first list, and the
timer of the list is neither active nor pending. -/
theorem commonTimeout_missed : Meets (eventStep false idleBackend idleBackend) EventLegal
      (EventBase.start 1 { evbase := (), mm := { fails := fun i => i == 11 } }) fullHeapRun ∧
    ∃ s, run (eventStep false idleBackend idleBackend)
      (EventBase.start 1 { evbase := (), mm := { fails := fun i => i == 11 } }) fullHeapRun =
        .ok s ∧ ¬ CommonTimeoutsOk s :=
  ⟨by decide, _, rfl, by decide⟩

end Libevent
