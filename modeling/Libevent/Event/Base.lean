import Libevent.Event.Timeout
import Libevent.Evmap
import Libevent.MinHeap

/-!
# `Libevent.Event.Base`: `struct event_base` and its queues

The state of one base, and the `event_queue_*` functions of `event.c`, each of which changes
one flag of an event together with the structure behind it and the counters.

One thread is modelled: the loop and the callbacks it runs. Locks, condition variables and
`evthread_notify_base` are left out. `gettime` gives `tvNow`, whether it comes from the cache
or from the clock.
-/

namespace Libevent

/-- `struct common_timeout_list`. -/
structure CommonTimeoutList where
  events : List EvId := []
  duration : Timeval
  timeoutEvent : EvId
  deriving DecidableEq, Repr

/-- `struct event_base`. `evs` are the events that exist, by address; `closure` is the event
of the `event_signal_closure` that is running, with its local variable `ncalls`; `log` are the
callbacks that ran so far, each with the result that it was given. -/
structure EventBase (β : Type) where
  evs : EvId → Event := fun _ => {}
  nactivequeues : Nat
  activequeues : Nat → List EvId := fun _ => []
  activeLaterQueue : List EvId := []
  nDeferredsQueued : Nat := 0
  eventCount : Int := 0
  eventCountMax : Int := 0
  eventCountActive : Int := 0
  eventCountActiveMax : Int := 0
  eventRunningPriority : Int := -1
  eventContinue : Bool := false
  timeheap : MinHeap EvId := { p := fun _ => 0 }
  commonTimeoutQueues : List CommonTimeoutList := []
  nCommonTimeoutsAllocated : Nat := 0
  evmap : Evmap β
  tvNow : Timeval := {}
  closure : Option (EvId × Nat) := none
  log : List (EvId × Nat) := []

namespace EventBase

variable {β : Type} (s : EventBase β)

/-- Writes the event `ev`. -/
def setEv (ev : EvId) (e : Event) : EventBase β :=
  { s with evs := fun x => if x = ev then e else s.evs x }

/-- Writes the flags of `ev`. -/
def setFlags (ev : EvId) (flags : EvFlags) : EventBase β :=
  s.setEv ev { s.evs ev with evFlags := flags }

def setMm (mm : Mm) : EventBase β :=
  { s with evmap := { s.evmap with mm := mm } }

/-- `n_common_timeouts`. -/
def nCommonTimeouts : Nat := s.commonTimeoutQueues.length

/-- `is_common_timeout`. -/
def isCommon (tv : Timeval) : Bool := isCommonTimeout tv s.nCommonTimeouts

/-- Whether the event counts in `event_count`. -/
def counted (ev : EvId) : Int :=
  if (s.evs ev).evFlags.internal then 0 else 1

/-- `INCR_EVENT_COUNT`. -/
def incrEventCount (ev : EvId) : EventBase β :=
  { s with
      eventCount := s.eventCount + s.counted ev
      eventCountMax := max s.eventCountMax (s.eventCount + s.counted ev) }

/-- `DECR_EVENT_COUNT`. -/
def decrEventCount (ev : EvId) : EventBase β :=
  { s with eventCount := s.eventCount - s.counted ev }

/-- `event_count_active++`, with `MAX_EVENT_COUNT`. -/
def incrActive : EventBase β :=
  { s with
      eventCountActive := s.eventCountActive + 1
      eventCountActiveMax := max s.eventCountActiveMax (s.eventCountActive + 1) }

/-- `event_count_active--`. -/
def decrActive : EventBase β :=
  { s with eventCountActive := s.eventCountActive - 1 }

/-- Writes `activequeues[pri]`. -/
def setQueue (pri : Nat) (q : List EvId) : EventBase β :=
  { s with activequeues := fun i => if i = pri then q else s.activequeues i }

/-- Writes the events of the common-timeout list number `i`. -/
def setCommon (i : Nat) (events : List EvId) : EventBase β :=
  { s with
      commonTimeoutQueues := s.commonTimeoutQueues.modify i fun c => { c with events := events } }

end EventBase

section
variable {β : Type} (s : EventBase β)

/-- `min_heap_elem_greater`. -/
def minHeapElemGreater (evs : EvId → Event) (a b : EvId) : Bool :=
  evutilTimercmpGt (evs a).evTimeout (evs b).evTimeout

/-- `event_queue_insert_inserted`. -/
def eventQueueInsertInserted (ev : EvId) : Except Fault (EventBase β) :=
  if (s.evs ev).evFlags.inserted then .error .assertFailed
  else .ok ((s.incrEventCount ev).setFlags ev { (s.evs ev).evFlags with inserted := true })

/-- `event_queue_remove_inserted`. -/
def eventQueueRemoveInserted (ev : EvId) : Except Fault (EventBase β) :=
  if !(s.evs ev).evFlags.inserted then .error .assertFailed
  else .ok ((s.decrEventCount ev).setFlags ev { (s.evs ev).evFlags with inserted := false })

/-- `event_queue_insert_active`. -/
def eventQueueInsertActive (evcb : EvId) : Except Fault (EventBase β) :=
  if (s.evs evcb).evFlags.active then .ok s
  else
    let pri := (s.evs evcb).evPri
    if ¬ pri < s.nactivequeues then .error .assertFailed
    else
      .ok (((s.incrEventCount evcb).setFlags evcb
        { (s.evs evcb).evFlags with active := true }).incrActive.setQueue pri
          (s.activequeues pri ++ [evcb]))

/-- `event_queue_remove_active`. -/
def eventQueueRemoveActive (evcb : EvId) : Except Fault (EventBase β) :=
  if !(s.evs evcb).evFlags.active then .error .assertFailed
  else
    let pri := (s.evs evcb).evPri
    if evcb ∉ s.activequeues pri then .error .notLinked
    else
      .ok (((s.decrEventCount evcb).setFlags evcb
        { (s.evs evcb).evFlags with active := false }).decrActive.setQueue pri
          ((s.activequeues pri).erase evcb))

/-- `event_queue_insert_active_later`. -/
def eventQueueInsertActiveLater (evcb : EvId) : Except Fault (EventBase β) :=
  if (s.evs evcb).evFlags.activeLater || (s.evs evcb).evFlags.active then .ok s
  else if ¬ (s.evs evcb).evPri < s.nactivequeues then .error .assertFailed
  else
    .ok { ((s.incrEventCount evcb).setFlags evcb
      { (s.evs evcb).evFlags with activeLater := true }).incrActive with
        activeLaterQueue := s.activeLaterQueue ++ [evcb] }

/-- `event_queue_remove_active_later`. -/
def eventQueueRemoveActiveLater (evcb : EvId) : Except Fault (EventBase β) :=
  if !(s.evs evcb).evFlags.activeLater then .error .assertFailed
  else if evcb ∉ s.activeLaterQueue then .error .notLinked
  else
    .ok { ((s.decrEventCount evcb).setFlags evcb
      { (s.evs evcb).evFlags with activeLater := false }).decrActive with
        activeLaterQueue := s.activeLaterQueue.erase evcb }

/-- The walk of `insert_common_timeout_inorder` over the list from its tail on: `ev` comes
after the first event that is not later. -/
def insertFromTail (evs : EvId → Event) (ev : EvId) : List EvId → Except Fault (List EvId)
  | [] => .ok [ev]
  | e :: es =>
    if !isSameCommonTimeout (evs e).evTimeout (evs ev).evTimeout then .error .assertFailed
    else if evutilTimercmpGe (evs ev).evTimeout (evs e).evTimeout then .ok (ev :: e :: es)
    else
      match insertFromTail evs ev es with
      | .error err => .error err
      | .ok es => .ok (e :: es)

/-- `insert_common_timeout_inorder`, on the events of the list. -/
def insertCommonTimeoutInorder (evs : EvId → Event) (events : List EvId) (ev : EvId) :
    Except Fault (List EvId) :=
  match insertFromTail evs ev events.reverse with
  | .error err => .error err
  | .ok es => .ok es.reverse

/-- `event_queue_insert_timeout`. The result of `min_heap_push_` is not looked at. -/
def eventQueueInsertTimeout (ev : EvId) : Except Fault (EventBase β) :=
  if (s.evs ev).evFlags.timeout then .error .assertFailed
  else
    let s := (s.incrEventCount ev).setFlags ev { (s.evs ev).evFlags with timeout := true }
    if s.isCommon (s.evs ev).evTimeout then
      match s.commonTimeoutQueues[commonTimeoutIdx (s.evs ev).evTimeout]? with
      | none => .error .outOfBounds
      | some ctl =>
        match insertCommonTimeoutInorder s.evs ctl.events ev with
        | .error err => .error err
        | .ok events => .ok (s.setCommon (commonTimeoutIdx (s.evs ev).evTimeout) events)
    else
      match minHeapPush (minHeapElemGreater s.evs) s.timeheap s.evmap.mm ev with
      | (_, heap, mm) => .ok ({ s with timeheap := heap }.setMm mm)

/-- `event_queue_remove_timeout`. -/
def eventQueueRemoveTimeout (ev : EvId) : Except Fault (EventBase β) :=
  if !(s.evs ev).evFlags.timeout then .error .assertFailed
  else
    let s := (s.decrEventCount ev).setFlags ev { (s.evs ev).evFlags with timeout := false }
    if s.isCommon (s.evs ev).evTimeout then
      match s.commonTimeoutQueues[commonTimeoutIdx (s.evs ev).evTimeout]? with
      | none => .error .outOfBounds
      | some ctl =>
        if ev ∉ ctl.events then .error .notLinked
        else .ok (s.setCommon (commonTimeoutIdx (s.evs ev).evTimeout) (ctl.events.erase ev))
    else .ok { s with timeheap := (minHeapErase (minHeapElemGreater s.evs) s.timeheap ev).2 }

/-- The loop of `event_queue_make_later_events_active`. -/
def makeLaterEventsActive : List EvId → EventBase β → Except Fault (EventBase β)
  | [], s => .ok { s with activeLaterQueue := [] }
  | evcb :: rest, s =>
    let pri := (s.evs evcb).evPri
    if ¬ pri < s.nactivequeues then .error .assertFailed
    else
      makeLaterEventsActive rest { (s.setFlags evcb
            { (s.evs evcb).evFlags with activeLater := false, active := true }).setQueue pri
              (s.activequeues pri ++ [evcb]) with
          activeLaterQueue := rest
          nDeferredsQueued :=
            s.nDeferredsQueued + if (s.evs evcb).evClosure = .cbSelf then 1 else 0 }

/-- `event_queue_make_later_events_active`. -/
def eventQueueMakeLaterEventsActive : Except Fault (EventBase β) :=
  makeLaterEventsActive s.activeLaterQueue s

end

end Libevent
