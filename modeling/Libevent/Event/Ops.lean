import Libevent.Event.Base

/-!
# `Libevent.Event.Ops`: adding, deleting and activating events

`event_assign`, `event_add`, `event_del`, `event_remove_timer`, `event_active`,
`event_active_later_`, `event_finalize`, `event_priority_set` and the deferred callbacks.
-/

namespace Libevent

/-- `events & (EV_READ|EV_WRITE|EV_CLOSED)`. -/
def isIo (events : Nat) : Bool :=
  hasAny events (EV_READ ||| EV_WRITE ||| EV_CLOSED)

/-- `events & EV_SIGNAL`. -/
def isSignal (events : Nat) : Bool :=
  hasAny events EV_SIGNAL

section
variable {β : Type} (debugMode : Bool) (evsel evsigsel : EventOp β) (s : EventBase β) (ev : EvId)

/-- The closure that `event_assign` gives an event. -/
def assignClosure (events : Nat) : Closure :=
  if isSignal events then .eventSignal
  else if hasAny events EV_PERSIST then .eventPersist
  else .event

/-- `event_assign`. It returns -1, with the event half written, for `EV_SIGNAL` together with
an I/O event. -/
def eventAssign (fd : Int) (events : Nat) : Int × EventBase β :=
  let e :=
    { s.evs ev with
        evFd := fd, evEvents := events, evRes := 0, evFlags := { init := true }
        evNcalls := 0, evPncalls := false }
  if isSignal events && isIo events then (-1, s.setEv ev e)
  else
    (0, { s.setEv ev { e with
                evIoTimeout := if hasAny events EV_PERSIST then {} else e.evIoTimeout
                evClosure := assignClosure events
                evPri := s.nactivequeues / 2 } with
          timeheap := s.timeheap.clearIdx ev })

/-- `event_priority_set`. -/
def eventPrioritySet (pri : Int) : Int × EventBase β :=
  if (s.evs ev).evFlags.active then (-1, s)
  else if pri < 0 ∨ pri ≥ s.nactivequeues then (-1, s)
  else (0, s.setEv ev { s.evs ev with evPri := pri.toNat })

/-- `if (ev->ev_ncalls && ev->ev_pncalls) *ev->ev_pncalls = 0;`. The pointer is to the local
variable of the `event_signal_closure` that was last started for the event; when that one has
returned, the write goes to a dead stack frame. -/
def abortSignalLoop : Except Fault (EventBase β) :=
  if (s.evs ev).evNcalls ≠ 0 ∧ (s.evs ev).evPncalls then
    match s.closure with
    | none => .error .useAfterFree
    | some (e, _) =>
      if e = ev then .ok { s with closure := some (ev, 0) } else .error .useAfterFree
  else .ok s

/-- `event_callback_activate_nolock_`. -/
def eventCallbackActivateNolock (evcb : EvId) : Except Fault (Int × EventBase β) :=
  let flags := (s.evs evcb).evFlags
  if flags.finalizing then .ok (0, s)
  else if flags.active && flags.activeLater then .error .assertFailed
  else if flags.active then .ok (0, s)
  else do
    let s ← if flags.activeLater then eventQueueRemoveActiveLater s evcb else pure s
    let s ← eventQueueInsertActive s evcb
    pure (if flags.activeLater then 0 else 1, s)

/-- `event_callback_activate_later_nolock_`. -/
def eventCallbackActivateLaterNolock (evcb : EvId) : Except Fault (Int × EventBase β) :=
  if (s.evs evcb).evFlags.active || (s.evs evcb).evFlags.activeLater then .ok (0, s)
  else do
    let s ← eventQueueInsertActiveLater s evcb
    pure (1, s)

/-- The part of `event_active_nolock_` before the callback is queued: the result bits, the
check for a more urgent event, and the number of calls of a signal event. -/
def noteActive (res : Nat) (ncalls : Int) : EventBase β :=
  let e := s.evs ev
  let e := { e with evRes := if e.evFlags.activeLater then e.evRes ||| res else res }
  let e :=
    if isSignal e.evEvents then { e with evNcalls := (ncalls % 65536).toNat, evPncalls := false }
    else e
  { s.setEv ev e with
      eventContinue := s.eventContinue || decide ((e.evPri : Int) < s.eventRunningPriority) }

/-- `event_active_nolock_`. -/
def eventActiveNolock (res : Nat) (ncalls : Int) : Except Fault (EventBase β) :=
  let flags := (s.evs ev).evFlags
  if flags.finalizing then .ok s
  else if flags.active && flags.activeLater then .error .assertFailed
  else if flags.active then
    -- we get different kinds of events, add them together
    .ok (s.setEv ev { s.evs ev with evRes := (s.evs ev).evRes ||| res })
  else do
    let (_, s) ← eventCallbackActivateNolock (noteActive s ev res ncalls) ev
    pure s

/-- `event_active_later_nolock_`. -/
def eventActiveLaterNolock (res : Nat) : Except Fault (EventBase β) :=
  if (s.evs ev).evFlags.active || (s.evs ev).evFlags.activeLater then
    .ok (s.setEv ev { s.evs ev with evRes := (s.evs ev).evRes ||| res })
  else do
    let (_, s) ← eventCallbackActivateLaterNolock (s.setEv ev { s.evs ev with evRes := res }) ev
    pure s

/-- The event is on no timeout or active structure any more: the first half of
`event_del_nolock_`. -/
def eventUnqueue : Except Fault (EventBase β) := do
  let s ← if isSignal (s.evs ev).evEvents then abortSignalLoop s ev else pure s
  let s ← if (s.evs ev).evFlags.timeout then eventQueueRemoveTimeout s ev else pure s
  if (s.evs ev).evFlags.active then eventQueueRemoveActive s ev
  else if (s.evs ev).evFlags.activeLater then eventQueueRemoveActiveLater s ev
  else pure s

/-- `evmap_io_del_` or `evmap_signal_del_`, by the kind of the event. -/
def evmapDel : Except Fault (Int × Evmap β) :=
  if isIo (s.evs ev).evEvents then evmapIoDel evsel s.evs s.evmap (s.evs ev).evFd ev
  else evmapSignalDel evsigsel s.evs s.evmap (s.evs ev).evFd ev

/-- `event_del_nolock_`. -/
def eventDelNolock (evenIfFinalizing : Bool) : Except Fault (Int × EventBase β) :=
  if !evenIfFinalizing && (s.evs ev).evFlags.finalizing then .ok (0, s)
  else do
    let s ← eventUnqueue s ev
    if (s.evs ev).evFlags.inserted then do
      let s ← eventQueueRemoveInserted s ev
      let (res, evmap) ← evmapDel evsel evsigsel s ev
      pure (if res = 1 then 0 else res, { s with evmap := evmap })
    else pure (0, s)

/-- `event_remove_timer_nolock_`. `evutil_timerclear(&ev->ev_.ev_io.ev_timeout)` also clears
the storage of `ev_ncalls` and `ev_pncalls`. -/
def eventRemoveTimerNolock : Except Fault (EventBase β) :=
  if (s.evs ev).evFlags.timeout then do
    let s ← eventQueueRemoveTimeout s ev
    pure (s.setEv ev { s.evs ev with evIoTimeout := {}, evNcalls := 0, evPncalls := false })
  else .ok s

/-- `evmap_io_add_` or `evmap_signal_add_`, by the kind of the event. -/
def evmapAdd : Except Fault (Int × Evmap β) :=
  if isIo (s.evs ev).evEvents then
    evmapIoAdd debugMode evsel s.evs s.evmap (s.evs ev).evFd ev
  else evmapSignalAdd evsigsel s.evs s.evmap (s.evs ev).evFd ev

/-- The part of `event_add_nolock_` that enters the event in the map. -/
def eventAddInserted : Except Fault (Int × EventBase β) :=
  let flags := (s.evs ev).evFlags
  if (isIo (s.evs ev).evEvents || isSignal (s.evs ev).evEvents) &&
      !(flags.inserted || flags.active || flags.activeLater) then do
    let (res, evmap) ← evmapAdd debugMode evsel evsigsel s ev
    let s := { s with evmap := evmap }
    let s ← if res ≠ -1 then eventQueueInsertInserted s ev else pure s
    pure (if res = 1 then 0 else res, s)
  else .ok (0, s)

/-- `min_heap_reserve_` at the head of `event_add_nolock_`. -/
def reserveForTimeout (tv : Option Timeval) : Bool × EventBase β :=
  if tv.isSome && !(s.evs ev).evFlags.timeout then
    match minHeapReserve s.timeheap s.evmap.mm (1 + s.timeheap.n) with
    | (ok, heap, mm) => (ok, { s with timeheap := heap }.setMm mm)
  else (true, s)

/-- The deadline that `event_add_nolock_` gives the event. -/
def deadline (tv : Timeval) (tvIsAbsolute : Bool) : Timeval :=
  if tvIsAbsolute then tv
  else if s.isCommon tv then
    let sum := evutilTimeradd s.tvNow tv.masked
    { sum with tvUsec := sum.tvUsec ||| magicBits tv.tvUsec }
  else evutilTimeradd s.tvNow tv

/-- The event leaves the structures of its old timeout: it is not pending on a timeout any
more, and not active because of one. -/
def dropOldTimeout : Except Fault (EventBase β) := do
  let s ← if (s.evs ev).evFlags.timeout then eventQueueRemoveTimeout s ev else pure s
  if (s.evs ev).evFlags.active && hasAny (s.evs ev).evRes EV_TIMEOUT then do
    let s ← if isSignal (s.evs ev).evEvents then abortSignalLoop s ev else pure s
    eventQueueRemoveActive s ev
  else pure s

/-- The part of `event_add_nolock_` that sets the timeout. `schedule` is
`common_timeout_schedule`. -/
def eventAddTimeout (schedule : EventBase β → CommonTimeoutList → EvId → Except Fault (EventBase β))
    (s : EventBase β) (ev : EvId) (tv : Timeval) (tvIsAbsolute : Bool) :
    Except Fault (EventBase β) := do
  let s :=
    if (s.evs ev).evClosure = .eventPersist ∧ tvIsAbsolute = false then
      s.setEv ev { s.evs ev with evIoTimeout := tv }
    else s
  let s ← dropOldTimeout s ev
  let s := s.setEv ev { s.evs ev with evTimeout := deadline s tv tvIsAbsolute }
  let s ← eventQueueInsertTimeout s ev
  if s.isCommon tv then
    match s.commonTimeoutQueues[commonTimeoutIdx (s.evs ev).evTimeout]? with
    | none => .error .outOfBounds
    | some ctl => if ctl.events.head? = some ev then schedule s ctl ev else pure s
  else pure s

/-- `event_add_nolock_`. It calls itself through `common_timeout_schedule`, for the timer of
a common timeout, whose own timeout is not common: `fuel` is the depth of the calls. -/
def eventAddNolock : (fuel : Nat) → EventBase β → EvId → Option Timeval → Bool →
    Except Fault (Int × EventBase β)
  | 0, _, _, _, _ => .error .outOfFuel
  | fuel + 1, s, ev, tv, tvIsAbsolute =>
    if (s.evs ev).evFlags.finalizing then .ok (-1, s)
    else
      match reserveForTimeout s ev tv with
      | (false, s) => .ok (-1, s)
      | (true, s) => do
          let (res, s) ← eventAddInserted debugMode evsel evsigsel s ev
          match tv with
          | none => pure (res, s)
          | some tv =>
            if res = -1 then pure (res, s)
            else do
              -- common_timeout_schedule
              let s ← eventAddTimeout (fun s ctl head => do
                  let (_, s) ← eventAddNolock fuel s ctl.timeoutEvent
                    (some (s.evs head).evTimeout.masked) true
                  pure s)
                s ev tv tvIsAbsolute
              pure (res, s)

/-- `common_timeout_schedule`. -/
def commonTimeoutSchedule (ctl : CommonTimeoutList) (head : EvId) : Except Fault (EventBase β) := do
  let (_, s) ← eventAddNolock debugMode evsel evsigsel 1 s ctl.timeoutEvent
    (some (s.evs head).evTimeout.masked) true
  pure s

/-- `event_add`. -/
def eventAdd (tv : Option Timeval) : Except Fault (Int × EventBase β) :=
  eventAddNolock debugMode evsel evsigsel 2 s ev tv false

/-- `event_finalize_nolock_`, with `EVENT_FINALIZE_FREE_` or without. -/
def eventFinalizeNolock (free : Bool) : Except Fault (EventBase β) := do
  let (_, s) ← eventDelNolock evsel evsigsel s ev false
  let s := s.setEv ev
    { s.evs ev with evClosure := if free then .eventFinalizeFree else .eventFinalize }
  let s ← eventActiveNolock s ev EV_FINALIZE 1
  pure (s.setFlags ev { (s.evs ev).evFlags with finalizing := true })

/-! ### Callbacks that are not part of an event -/

/-- `event_deferred_cb_init_`. -/
def eventDeferredCbInit (cb : EvId) (pri : Nat) : EventBase β :=
  s.setEv cb { evPri := pri, evClosure := .cbSelf }

def MAX_DEFERREDS_QUEUED : Nat := 32

/-- `event_deferred_cb_schedule_`. -/
def eventDeferredCbSchedule (cb : EvId) : Except Fault (Int × EventBase β) :=
  if s.nDeferredsQueued > MAX_DEFERREDS_QUEUED then eventCallbackActivateLaterNolock s cb
  else do
    let (r, s) ← eventCallbackActivateNolock s cb
    pure (r, if r ≠ 0 then { s with nDeferredsQueued := s.nDeferredsQueued + 1 } else s)

/-- `event_callback_cancel_nolock_`. -/
def eventCallbackCancelNolock (evcb : EvId) (evenIfFinalizing : Bool) :
    Except Fault (Int × EventBase β) :=
  let flags := (s.evs evcb).evFlags
  if flags.finalizing && !evenIfFinalizing then .ok (0, s)
  else if flags.init then eventDelNolock evsel evsigsel s evcb evenIfFinalizing
  else if flags.active && flags.activeLater then .error .assertFailed
  else if flags.active then do
    let s ← eventQueueRemoveActive s evcb
    pure (0, s)
  else if flags.activeLater then do
    let s ← eventQueueRemoveActiveLater s evcb
    pure (0, s)
  else .ok (0, s)

/-- `event_callback_finalize_nolock_`. -/
def eventCallbackFinalizeNolock (evcb : EvId) : Except Fault (EventBase β) := do
  let (_, s) ←
    if (s.evs evcb).evFlags.init then eventDelNolock evsel evsigsel s evcb false
    else eventCallbackCancelNolock evsel evsigsel s evcb false
  let (_, s) ← eventCallbackActivateNolock
    (s.setEv evcb { s.evs evcb with evClosure := .cbFinalize }) evcb
  pure (s.setFlags evcb { (s.evs evcb).evFlags with finalizing := true })

end

end Libevent
