import Libevent.Basic

/-!
# `Libevent.Event.Types`: `struct event`

The fields of `struct event` and of the `struct event_callback` inside it, as
`event2/event_struct.h` declares them. An `EvId` stands for the address of the structure.

`ev_timeout_pos.min_heap_idx` is kept by the time heap (`Libevent.MinHeap`), and the masks
(`short` in the source) are natural numbers.

Left out: the callback pointer and its argument (`ev_callback`, `ev_arg`), which no modelled
function inspects, and `ev_base`, since one base is modelled at a time. The links
`ev_io_next`, `ev_signal_next`, `ev_next_with_common_timeout` and `evcb_active_next` are the
order of the lists that hold the event.
-/

namespace Libevent

/-- `struct timeval`. The top bits of `tvUsec` can carry a common-timeout index. -/
@[ext]
structure Timeval where
  tvSec : Int := 0
  tvUsec : Nat := 0
  deriving DecidableEq, Repr

/-- The `EVLIST_*` bits of `evcb_flags`. `EVLIST_SIGNAL` is never set. -/
@[ext]
structure EvFlags where
  timeout : Bool := false
  inserted : Bool := false
  active : Bool := false
  internal : Bool := false
  activeLater : Bool := false
  finalizing : Bool := false
  init : Bool := false
  deriving DecidableEq, Repr

/-- The `EV_CLOSURE_*` codes. -/
inductive Closure where
  | event
  | eventSignal
  | eventPersist
  | cbSelf
  | cbFinalize
  | eventFinalize
  | eventFinalizeFree
  deriving DecidableEq, Repr

/-- `struct event`. A callback that is not part of an event (a deferred callback) is an
`Event` without `EVLIST_INIT`: of its fields only `evFlags`, `evPri` and `evClosure` are
used. `ev_io.ev_timeout` (`evIoTimeout`) shares its storage with `ev_ncalls` and
`ev_pncalls`; an event uses one or the other, by its `EV_SIGNAL` bit. `evNcalls` is the
`short` as an unsigned number, and `evPncalls` says that `ev_pncalls` is not `NULL`: it was
set to point at the counter of a run of `event_signal_closure`. -/
structure Event where
  evFlags : EvFlags := {}
  evPri : Nat := 0
  evClosure : Closure := .event
  evFd : Int := 0
  evIoTimeout : Timeval := {}
  evNcalls : Nat := 0
  evPncalls : Bool := false
  evEvents : Nat := 0
  evRes : Nat := 0
  evTimeout : Timeval := {}
  deriving DecidableEq, Repr

end Libevent
