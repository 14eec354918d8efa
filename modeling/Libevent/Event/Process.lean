import Libevent.Event.Loop

/-!
# `Libevent.Event.Process`: `event_process_active` in `event_base_loop`

The control flow of `event_process_active` and `event_process_active_single_queue`, as a machine
that stops whenever a callback is running, so that what the callback does comes as actions. `Pc` is
where the loop is.

An iteration of `event_base_loop` begins with `iterate`, which clears `event_continue`. What the
backend and the timeouts activate follows, and then `process` enters `event_process_active`. Each
`proceed` takes the loop to the next place where it looks at the base.
-/

namespace Libevent

/-- How long the loop runs callbacks before it looks for new events. A `tvSec` of -1 stands for no
limit of the time. -/
structure DispatchLimits where
  maxDispatchTime : Timeval := ⟨-1, 0⟩
  maxDispatchCallbacks : Nat := INT_MAX
  limitCallbacksAfterPrio : Nat := INT_MAX
  deriving DecidableEq, Repr

/-- `event_config_set_max_dispatch_interval`, and what `event_base_new_with_config` makes of it. -/
def eventConfigSetMaxDispatchInterval (maxInterval : Option Timeval)
    (maxCallbacks minPriority : Int) : DispatchLimits :=
  let time := maxInterval.getD ⟨-1, 0⟩
  let callbacks := if maxCallbacks ≥ 0 then maxCallbacks.toNat else INT_MAX
  { maxDispatchTime := time
    maxDispatchCallbacks := callbacks
    limitCallbacksAfterPrio :=
      if callbacks = INT_MAX ∧ time.tvSec = -1 then INT_MAX else minPriority.toNat }

/-- Where the loop is: outside of an iteration, before `event_process_active`, at the head of its
loop for the priority `i`, at the head of `event_process_active_single_queue`, or in a callback of
that queue. `count` is the local variable of that function. -/
inductive Pc where
  | idle
  | polling
  | scan (i : Nat)
  | queue (i count : Nat)
  | callback (i count : Nat)
  deriving DecidableEq, Repr

/-- A base and its loop. `endtime` is the local variable of `event_process_active`. `started` is the
callback that the last action started, with the number of its queue. -/
structure LoopState (β : Type) where
  base : EventBase β
  limits : DispatchLimits := {}
  pc : Pc := .idle
  endtime : Option Timeval := none
  started : Option (EvId × Nat) := none

/-- What happens to the base and its loop. `act` is a call that the running callback makes, or that
the backend makes before the callbacks are run. With `brk`, `event_base_loopbreak` was called. -/
inductive LoopAction where
  | act (a : EventAction)
  | loopcontinue
  | iterate
  | process
  | proceed (brk : Bool)
  deriving DecidableEq, Repr

section
variable {β : Type} (debugMode : Bool) (evsel evsigsel : EventOp β) (s : LoopState β)

/-- `event_process_active` returns. -/
def LoopState.done : LoopState β :=
  { s with base := { s.base with eventRunningPriority := -1 }, pc := .idle }

/-- `event_process_active_single_queue` returned `count` for the queue `i`. -/
def LoopState.returned (i count : Nat) : LoopState β :=
  if count > 0 then s.done else { s with pc := .scan (i + 1) }

/-- `max_to_process` for the queue `i`. -/
def LoopState.maxToProcess (i : Nat) : Nat :=
  if i < s.limits.limitCallbacksAfterPrio then INT_MAX else s.limits.maxDispatchCallbacks

/-- Whether the time is up for the queue `i`. -/
def LoopState.timeUp (i : Nat) : Bool :=
  if i < s.limits.limitCallbacksAfterPrio then false
  else
    match s.endtime with
    | none => false
    | some endtime => evutilTimercmpGe s.base.tvNow endtime

/-- `event_process_active`, before its loop. -/
def LoopState.enter : LoopState β :=
  { s with
      pc := .scan 0
      endtime :=
        if s.limits.maxDispatchTime.tvSec ≥ 0 then
          some (evutilTimeradd s.limits.maxDispatchTime s.base.tvNow)
        else none }

/-- The head of the loop of `event_process_active`. -/
def LoopState.scan (s : LoopState β) (i : Nat) : LoopState β :=
  if i < s.base.nactivequeues then
    if s.base.activequeues i = [] then { s with pc := .scan (i + 1) }
    else { s with base := { s.base with eventRunningPriority := i }, pc := .queue i 0 }
  else s.done

/-- The head of the loop of `event_process_active_single_queue`, up to where a callback is
running. -/
def LoopState.next (i count : Nat) : Except Fault (LoopState β) :=
  match s.base.activequeues i with
  | [] => .ok (s.returned i count)
  | evcb :: _ => do
      let base ← processActive debugMode evsel evsigsel s.base i
      let count := if (s.base.evs evcb).evFlags.internal then count else count + 1
      pure { s with
        base := base
        pc := .callback i count
        started := if base.log.length = s.base.log.length then none else some (evcb, i) }

/-- The callback returned: the end of the loop of `event_process_active_single_queue`. -/
def LoopState.resume (i count : Nat) (brk : Bool) : LoopState β :=
  let s := { s with base := continueClosure s.base brk }
  match s.base.closure with
  | some (ev, _) => { s with started := some (ev, i) }
  | none =>
    if brk then s.done
    else if count ≥ s.maxToProcess i then s.returned i count
    else if count ≠ 0 ∧ s.timeUp i then s.returned i count
    else if s.base.eventContinue then s.returned i count
    else { s with pc := .queue i count }

/-- The loop goes on from where it is. -/
def LoopState.proceed (brk : Bool) : Except Fault (LoopState β) :=
  match s.pc with
  | .idle | .polling => .ok s
  | .scan i => .ok (s.scan i)
  | .queue i count => s.next debugMode evsel evsigsel i count
  | .callback i count => .ok (s.resume i count brk)

/-- One action. -/
def loopStep (a : LoopAction) : Except Fault (LoopState β) :=
  let s := { s with started := none }
  match a with
  | .act a => (eventStep debugMode evsel evsigsel s.base a).map fun base => { s with base := base }
  | .loopcontinue => .ok { s with base := { s.base with eventContinue := true } }
  | .iterate =>
    (eventStep debugMode evsel evsigsel s.base .newIteration).map fun base =>
      { s with base := base, pc := .polling }
  | .process => .ok s.enter
  | .proceed brk => s.proceed debugMode evsel evsigsel brk

end

/-! ### Who makes which call -/

section
variable {β : Type} (s : LoopState β)

/-- The event is in no active queue. -/
def Idle (s : EventBase β) (ev : EvId) : Prop :=
  ∀ i, ev ∉ s.activequeues i

/-- What the program does, in a callback or outside of the loop: it does not touch the events of the
base, it initializes no event that is active, and `event_deferred_cb_schedule_` and
`event_callback_finalize_` are given callbacks that are not part of an event. -/
def UserCall (s : EventBase β) : EventAction → Prop
  | .assign ev _ _ => (s.evs ev).evFlags.internal = false ∧ Idle s ev
  | .prioritySet ev _ => (s.evs ev).evFlags.internal = false
  | .initCommonTimeout _ addr => Idle s addr
  | .deferredInit cb _ => (s.evs cb).evFlags.internal = false ∧ Idle s cb
  | .deferredSchedule cb => (s.evs cb).evFlags.init = false
  | .callbackFinalize cb => (s.evs cb).evFlags.init = false
  | .add _ _ | .del _ | .removeTimer _ | .active _ _ _ | .activeLater _ _ | .finalize _ _
  | .callbackCancel _ | .tick _ => True
  | .ioActive _ _ | .signalActive _ _ | .newIteration | .timeoutProcess | .makeLaterEventsActive
  | .processActive _ | .continueClosure _ => False

/-- What an iteration of the loop does before it runs callbacks. -/
def LoopCall : EventAction → Prop
  | .ioActive _ _ | .signalActive _ _ | .timeoutProcess | .makeLaterEventsActive | .tick _ => True
  | _ => False

/-- What `evsig_cb` does, the callback of an internal event. The timers of the common timeouts are
run by `processActive`. -/
def InternalCall : EventAction → Prop
  | .signalActive _ _ | .tick _ => True
  | _ => False

/-- Which actions come where. With a `count` of 0 only callbacks of internal events have run; later
in the queue, either kind may be running. -/
def LoopLegal : LoopAction → Prop
  | .act a =>
    match s.pc with
    | .idle => UserCall s.base a
    | .polling => LoopCall a
    | .callback _ count => InternalCall a ∨ (count ≠ 0 ∧ UserCall s.base a)
    | .scan _ | .queue _ _ => False
  | .loopcontinue =>
    match s.pc with
    | .idle => True
    | .callback _ count => count ≠ 0
    | .polling | .scan _ | .queue _ _ => False
  | .iterate => s.pc = .idle ∨ s.pc = .polling
  | .process => s.pc = .polling
  | .proceed _ => True

end

end Libevent
