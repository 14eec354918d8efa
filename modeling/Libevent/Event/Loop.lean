import Libevent.Event.Ops
import Libevent.Lib.Run

/-!
# `Libevent.Event.Loop`: the loop, and everything that can happen to a base

Timeouts (`timeout_process`, `common_timeout_callback`), activations that the backends report
(`evmap_io_active_`, `evmap_signal_active_`), and the callbacks of the active queues. What a
callback does to the base comes as later actions: running a callback is one `EventAction`, and
each call that it makes is another. `event_signal_closure` runs its callback several times, so
each round of it is an action.
-/

namespace Libevent

section
variable {β : Type} (debugMode : Bool) (evsel evsigsel : EventOp β) (s : EventBase β)

/-! ### Timeouts -/

/-- The loop of `timeout_process`. Each round takes one event out of the heap. -/
def timeoutProcessLoop (now : Timeval) : (fuel : Nat) → EventBase β → Except Fault (EventBase β)
  | 0, _ => .error .outOfFuel
  | fuel + 1, s =>
    match minHeapTop s.timeheap with
    | none => .ok s
    | some ev =>
      if evutilTimercmpGt (s.evs ev).evTimeout now then .ok s
      else do
        let (_, s) ← eventDelNolock evsel evsigsel s ev false
        let s ← eventActiveNolock s ev EV_TIMEOUT 1
        timeoutProcessLoop now fuel s

/-- `timeout_process`. -/
def timeoutProcess : Except Fault (EventBase β) :=
  if s.timeheap.n = 0 then .ok s
  else timeoutProcessLoop evsel evsigsel s.tvNow (s.timeheap.n + 1) s

/-- `timeout_next`: how long the backend may wait, `none` for as long as it takes. -/
def timeoutNext : Except Fault (Option Timeval) :=
  match minHeapTop s.timeheap with
  | none => .ok none
  | some ev =>
    if evutilTimercmpGe s.tvNow (s.evs ev).evTimeout then .ok (some {})
    else
      let tv := evutilTimersub (s.evs ev).evTimeout s.tvNow
      if tv.tvSec < 0 then .error .assertFailed else .ok (some tv)

/-- `event_haveevents`. -/
def eventHaveevents (virtualEventCount : Nat) : Bool :=
  0 < virtualEventCount || 0 < s.eventCount

/-- `event_base_loop` in front of `evsel->dispatch`: how long the backend may wait, or `none` when
the loop ends with 1. -/
def eventBaseLoopWait (nonblock noExitOnEmpty : Bool) (virtualEventCount : Nat) :
    Except Fault (Option (Option Timeval)) :=
  (if s.eventCountActive = 0 ∧ nonblock = false then timeoutNext s else .ok (some {})).map fun tv =>
    if noExitOnEmpty = false ∧ eventHaveevents s virtualEventCount = false ∧
      s.eventCountActive = 0 then
      none
    else some tv

/-- The loop of `common_timeout_callback` for the list number `i`: it ends with the first
event of the list that is not due, if there is one. -/
def commonTimeoutLoop (now : Timeval) (i : Nat) :
    (fuel : Nat) → EventBase β → Except Fault (EventBase β)
  | 0, _ => .error .outOfFuel
  | fuel + 1, s =>
    match s.commonTimeoutQueues[i]? with
    | none => .error .outOfBounds
    | some ctl =>
      match ctl.events.head? with
      | none => .ok s
      | some ev =>
        let tv := (s.evs ev).evTimeout
        if tv.tvSec > now.tvSec ∨
            (tv.tvSec = now.tvSec ∧ tv.tvUsec &&& MICROSECONDS_MASK > now.tvUsec) then
          commonTimeoutSchedule debugMode evsel evsigsel s ctl ev
        else do
          let (_, s) ← eventDelNolock evsel evsigsel s ev false
          let s ← eventActiveNolock s ev EV_TIMEOUT 1
          commonTimeoutLoop now i fuel s

/-- `common_timeout_callback`, for the list number `i`. -/
def commonTimeoutCallback (i : Nat) : Except Fault (EventBase β) :=
  match s.commonTimeoutQueues[i]? with
  | none => .error .outOfBounds
  | some ctl =>
    commonTimeoutLoop debugMode evsel evsigsel s.tvNow i (ctl.events.length + 1) s

/-- The duration as `event_base_init_common_timeout` looks for it. -/
def normalDuration (duration : Timeval) : Timeval :=
  if duration.tvUsec > 1000000 then
    let usec :=
      if s.isCommon duration then duration.tvUsec &&& MICROSECONDS_MASK else duration.tvUsec
    ⟨duration.tvSec + (usec / 1000000 : Nat), usec % 1000000⟩
  else duration

/-- The new list of `event_base_init_common_timeout`, with its timer at the address `addr`. -/
def addCommonTimeout (duration : Timeval) (addr : EvId) : EventBase β :=
  let s := (eventAssign (s.setEv addr {}) addr (-1) 0).2
  let s := s.setFlags addr { (s.evs addr).evFlags with internal := true }
  let s := (eventPrioritySet s addr 0).2
  { s with
      commonTimeoutQueues := s.commonTimeoutQueues ++
        [{ duration := ⟨duration.tvSec, duration.tvUsec ||| COMMON_TIMEOUT_MAGIC |||
            s.nCommonTimeouts <<< COMMON_TIMEOUT_IDX_SHIFT⟩
           timeoutEvent := addr }] }

/-- `mm_realloc` of the array of lists, when it is full. -/
def growCommonTimeouts : Bool × EventBase β :=
  if s.nCommonTimeoutsAllocated = s.nCommonTimeouts then
    if s.evmap.mm.alloc.1 then
      (true, { s with
        nCommonTimeoutsAllocated := if s.nCommonTimeouts < 16 then 16 else s.nCommonTimeouts * 2
        }.setMm s.evmap.mm.alloc.2)
    else (false, s.setMm s.evmap.mm.alloc.2)
  else (true, s)

/-- The list that `event_base_init_common_timeout` returns, found or made. A new list and its
timer are at the address `addr`. -/
def findCommonTimeout (duration : Timeval) (addr : EvId) : Option Timeval × EventBase β :=
  match s.commonTimeoutQueues.find? fun ctl =>
      duration.tvSec == ctl.duration.tvSec &&
        duration.tvUsec == ctl.duration.tvUsec &&& MICROSECONDS_MASK with
  | some ctl => (some ctl.duration, s)
  | none =>
    if s.nCommonTimeouts = MAX_COMMON_TIMEOUTS then (none, s)
    else
      match growCommonTimeouts s with
      | (false, s) => (none, s)
      | (true, s) =>
        if s.evmap.mm.alloc.1 then
          let s := addCommonTimeout (s.setMm s.evmap.mm.alloc.2) duration addr
          (s.commonTimeoutQueues.getLast?.map CommonTimeoutList.duration, s)
        else (none, s.setMm s.evmap.mm.alloc.2)

/-- `event_base_init_common_timeout`: the timeval to use, `none` for `NULL`. -/
def eventBaseInitCommonTimeout (duration : Timeval) (addr : EvId) :
    Except Fault (Option Timeval × EventBase β) :=
  match findCommonTimeout s (normalDuration s duration) addr with
  | (none, s) => .ok (none, s)
  | (some tv, s) => if s.isCommon tv then .ok (some tv, s) else .error .assertFailed

/-! ### What the backends report -/

/-- `LIST_FOREACH` of `evmap_io_active_`. -/
def ioActiveList (events : Nat) : List EvId → EventBase β → Except Fault (EventBase β)
  | [], s => .ok s
  | ev :: evs, s => do
      let s ←
        if hasAny (s.evs ev).evEvents events then
          eventActiveNolock s ev ((s.evs ev).evEvents &&& events) 1
        else pure s
      ioActiveList events evs s

/-- `evmap_io_active_`. -/
def evmapIoActive (fd : Int) (events : Nat) : Except Fault (EventBase β) :=
  if fd < 0 ∨ fd ≥ s.evmap.nentries then .ok s
  else
    match s.evmap.entries fd.toNat with
    | none => .ok s
    | some ctx => ioActiveList events ctx.events s

/-- `LIST_FOREACH` of `evmap_signal_active_`. -/
def signalActiveList (ncalls : Int) : List EvId → EventBase β → Except Fault (EventBase β)
  | [], s => .ok s
  | ev :: evs, s => do
      let s ← eventActiveNolock s ev EV_SIGNAL ncalls
      signalActiveList ncalls evs s

/-- `evmap_signal_active_`. -/
def evmapSignalActive (sig ncalls : Int) : Except Fault (EventBase β) :=
  if sig < 0 ∨ sig ≥ s.evmap.sigNentries then .ok s
  else
    match s.evmap.sigEntries sig.toNat with
    | none => .ok s
    | some evs => signalActiveList ncalls evs s

/-! ### Callbacks -/

/-- The callback of `ev` is called with the result `res`. -/
def EventBase.call (ev : EvId) (res : Nat) : EventBase β :=
  { s with log := s.log ++ [(ev, res)] }

/-- One round of `event_signal_closure` with `ncalls = k + 1`. -/
def signalRound (ev : EvId) (k : Nat) : EventBase β :=
  let s := s.setEv ev
    { s.evs ev with evNcalls := k, evPncalls := if k = 0 then false else (s.evs ev).evPncalls }
  { s.call ev (s.evs ev).evRes with closure := some (ev, k) }

/-- The start of `event_signal_closure`, up to the first call of the callback. -/
def eventSignalClosure (ev : EvId) : EventBase β :=
  match (s.evs ev).evNcalls with
  | 0 => s
  | k + 1 => signalRound (s.setEv ev { s.evs ev with evPncalls := true }) ev k

/-- The time for which `event_persist_closure` adds the event again. -/
def persistRunAt (ev : EvId) : Timeval :=
  let e := s.evs ev
  let now := s.tvNow
  let common := s.isCommon e.evTimeout
  let delay := if common then e.evIoTimeout.masked else e.evIoTimeout
  let relativeTo :=
    if hasAny e.evRes EV_TIMEOUT then (if common then e.evTimeout.masked else e.evTimeout)
    else now
  let runAt := evutilTimeradd relativeTo delay
  let runAt := if evutilTimercmpLt runAt now then evutilTimeradd now delay else runAt
  { runAt with tvUsec := runAt.tvUsec ||| if common then magicBits e.evIoTimeout.tvUsec else 0 }

/-- `event_persist_closure`. -/
def eventPersistClosure (ev : EvId) : Except Fault (EventBase β) := do
  let e := s.evs ev
  let s ←
    if e.evIoTimeout.tvSec ≠ 0 ∨ e.evIoTimeout.tvUsec ≠ 0 then
      if !isSameCommonTimeout e.evTimeout e.evIoTimeout then .error .assertFailed
      else do
        let (_, s) ← eventAddNolock debugMode evsel evsigsel 2 s ev (some (persistRunAt s ev)) true
        pure s
    else pure s
  pure (s.call ev (s.evs ev).evRes)

/-- The closure of the callback `evcb`, after it left the active queue. The timers of the
common timeouts are the internal events. -/
def runClosure (evcb : EvId) : Except Fault (EventBase β) :=
  match (s.evs evcb).evClosure with
  | .eventSignal => .ok (eventSignalClosure s evcb)
  | .eventPersist => eventPersistClosure debugMode evsel evsigsel s evcb
  | .event =>
    match s.commonTimeoutQueues.findIdx? fun ctl => ctl.timeoutEvent == evcb with
    | some i => commonTimeoutCallback debugMode evsel evsigsel s i
    | none => .ok (s.call evcb (s.evs evcb).evRes)
  | .cbSelf => .ok (s.call evcb 0)
  | .cbFinalize | .eventFinalize | .eventFinalizeFree =>
    if !(s.evs evcb).evFlags.finalizing then .error .assertFailed else .ok (s.call evcb 0)

/-- One round of `event_process_active_single_queue` on `activequeues[pri]`. -/
def processActive (pri : Nat) : Except Fault (EventBase β) :=
  match s.activequeues pri with
  | [] => .ok s
  | evcb :: _ => do
      let e := s.evs evcb
      let s ←
        if e.evFlags.init && !(hasAny e.evEvents EV_PERSIST || e.evFlags.finalizing) then do
          let (_, s) ← eventDelNolock evsel evsigsel s evcb false
          pure s
        else eventQueueRemoveActive s evcb
      runClosure debugMode evsel evsigsel s evcb

/-- The next round of the `event_signal_closure` that is running, after its callback returned,
or its end. With `brk`, `event_base_loopbreak` was called. -/
def continueClosure (brk : Bool) : EventBase β :=
  match s.closure with
  | none => s
  | some (ev, k) =>
    if brk then
      { (if k = 0 then s else s.setEv ev { s.evs ev with evPncalls := false }) with
        closure := none }
    else
      match k with
      | 0 => { s with closure := none }
      | k + 1 => signalRound s ev k

/-! ### Actions -/

/-- Everything that can happen to a base. -/
inductive EventAction where
  | assign (ev : EvId) (fd : Int) (events : Nat)
  | prioritySet (ev : EvId) (pri : Int)
  | add (ev : EvId) (tv : Option Timeval)
  | del (ev : EvId)
  | removeTimer (ev : EvId)
  | active (ev : EvId) (res : Nat) (ncalls : Int)
  | activeLater (ev : EvId) (res : Nat)
  | finalize (ev : EvId) (free : Bool)
  | initCommonTimeout (duration : Timeval) (addr : EvId)
  | deferredInit (cb : EvId) (pri : Nat)
  | deferredSchedule (cb : EvId)
  | callbackCancel (evcb : EvId)
  | callbackFinalize (evcb : EvId)
  | ioActive (fd : Int) (events : Nat)
  | signalActive (sig ncalls : Int)
  | tick (now : Timeval)
  | newIteration
  | timeoutProcess
  | makeLaterEventsActive
  | processActive (pri : Nat)
  | continueClosure (brk : Bool)
  deriving DecidableEq, Repr

/-- One action. -/
def eventStep : EventAction → Except Fault (EventBase β)
  | .assign ev fd events => .ok (eventAssign s ev fd events).2
  | .prioritySet ev pri => .ok (eventPrioritySet s ev pri).2
  | .add ev tv => (eventAdd debugMode evsel evsigsel s ev tv).map Prod.snd
  | .del ev => (eventDelNolock evsel evsigsel s ev false).map Prod.snd
  | .removeTimer ev => eventRemoveTimerNolock s ev
  | .active ev res ncalls => eventActiveNolock s ev res ncalls
  | .activeLater ev res => eventActiveLaterNolock s ev res
  | .finalize ev free => eventFinalizeNolock evsel evsigsel s ev free
  | .initCommonTimeout duration addr =>
    (eventBaseInitCommonTimeout s duration addr).map Prod.snd
  | .deferredInit cb pri => .ok (eventDeferredCbInit s cb pri)
  | .deferredSchedule cb => (eventDeferredCbSchedule s cb).map Prod.snd
  | .callbackCancel evcb => (eventCallbackCancelNolock evsel evsigsel s evcb false).map Prod.snd
  | .callbackFinalize evcb => eventCallbackFinalizeNolock evsel evsigsel s evcb
  | .ioActive fd events => evmapIoActive s fd events
  | .signalActive sig ncalls => evmapSignalActive s sig ncalls
  | .tick now => .ok { s with tvNow := now }
  | .newIteration => .ok { s with eventContinue := false, nDeferredsQueued := 0 }
  | .timeoutProcess => Libevent.timeoutProcess evsel evsigsel s
  | .makeLaterEventsActive => eventQueueMakeLaterEventsActive s
  | .processActive pri => Libevent.processActive debugMode evsel evsigsel s pri
  | .continueClosure brk => .ok (Libevent.continueClosure s brk)

/-- An event that its user may hand to the base: `event_assign` succeeded on it, and it is not
one of the base's own. A signal number is not negative. -/
structure Usable (s : EventBase β) (ev : EvId) : Prop where
  init : (s.evs ev).evFlags.init = true
  internal : (s.evs ev).evFlags.internal = false
  kind : isSignal (s.evs ev).evEvents = true →
    isIo (s.evs ev).evEvents = false ∧ 0 ≤ (s.evs ev).evFd

/-- The event is on no structure of the base. -/
def Unqueued (ev : EvId) : Prop :=
  (s.evs ev).evFlags.timeout = false ∧ (s.evs ev).evFlags.inserted = false ∧
    (s.evs ev).evFlags.active = false ∧ (s.evs ev).evFlags.activeLater = false

/-- A timeout for `event_add`: a normal one, or one that `event_base_init_common_timeout` of
this base returned. -/
def TimeoutLegal (tv : Timeval) : Prop :=
  tv.tvUsec < 1000000 ∨ ∃ ctl ∈ s.commonTimeoutQueues, tv = ctl.duration

/-- What the callers promise. Only an event that is neither pending nor active is assigned, and
not while its own `event_signal_closure` is running. The loop does not run inside a
callback. -/
def EventLegal : EventAction → Prop
  | .assign ev _ _ => (s.evs ev).evFlags.internal = false ∧ Unqueued s ev ∧
      ∀ k, s.closure ≠ some (ev, k)
  | .prioritySet ev _ => Usable s ev
  | .add ev tv => Usable s ev ∧ ∀ t, tv = some t → TimeoutLegal s t
  | .del ev => Usable s ev
  | .removeTimer ev => Usable s ev
  | .active ev _ _ => Usable s ev
  | .activeLater ev _ => Usable s ev
  | .finalize ev _ => Usable s ev
  | .initCommonTimeout _ addr => (s.evs addr).evFlags = {} ∧ ∀ k, s.closure ≠ some (addr, k)
  | .deferredInit cb pri => (s.evs cb).evFlags.internal = false ∧ Unqueued s cb ∧
      pri < s.nactivequeues ∧ ∀ k, s.closure ≠ some (cb, k)
  | .deferredSchedule cb => (s.evs cb).evFlags.internal = false ∧
      (s.evs cb).evFlags.init = false ∧ (s.evs cb).evClosure = .cbSelf
  | .callbackCancel evcb => (s.evs evcb).evFlags.internal = false ∧
      ((s.evs evcb).evFlags.init = true → Usable s evcb)
  | .callbackFinalize evcb => (s.evs evcb).evFlags.internal = false ∧
      ((s.evs evcb).evFlags.init = true → Usable s evcb)
  | .tick now => now.tvUsec < 1000000
  | .timeoutProcess => s.closure = none
  | .makeLaterEventsActive => s.closure = none
  | .processActive _ => s.closure = none
  | .ioActive _ _ | .signalActive _ _ | .newIteration | .continueClosure _ => True

instance (s : EventBase β) (ev : EvId) : Decidable (Usable s ev) :=
  decidable_of_iff ((s.evs ev).evFlags.init = true ∧ (s.evs ev).evFlags.internal = false ∧
    (isSignal (s.evs ev).evEvents = true → isIo (s.evs ev).evEvents = false ∧ 0 ≤ (s.evs ev).evFd))
    ⟨fun ⟨hinit, hint, hkind⟩ => ⟨hinit, hint, hkind⟩, fun h => ⟨h.init, h.internal, h.kind⟩⟩

instance (s : EventBase β) (ev : EvId) : Decidable (Unqueued s ev) :=
  inferInstanceAs (Decidable (_ ∧ _ ∧ _ ∧ _))

instance (s : EventBase β) (tv : Timeval) : Decidable (TimeoutLegal s tv) :=
  inferInstanceAs (Decidable (_ ∨ _))

/-- Whether the `event_signal_closure` of `ev` is running. -/
instance (s : EventBase β) (ev : EvId) : Decidable (∀ k, s.closure ≠ some (ev, k)) :=
  match h : s.closure with
  | none => isTrue fun k => by simp
  | some (e, k) => decidable_of_iff (e ≠ ev)
      ⟨fun hne j heq => hne (by cases heq; rfl), fun hall heq => hall k (by rw [heq])⟩

instance (s : EventBase β) (tv : Option Timeval) :
    Decidable (∀ t, tv = some t → TimeoutLegal s t) :=
  match tv with
  | none => isTrue fun t ht => by cases ht
  | some t => decidable_of_iff (TimeoutLegal s t)
      ⟨fun h t' ht => by cases ht; exact h, fun h => h t rfl⟩

instance (s : EventBase β) (a : EventAction) : Decidable (EventLegal s a) := by
  cases a <;> unfold EventLegal <;> infer_instance

/-- A base with `npriorities` queues and no events. -/
def EventBase.start (npriorities : Nat) (evmap : Evmap β) : EventBase β :=
  { nactivequeues := npriorities, evmap := evmap }

end

end Libevent
