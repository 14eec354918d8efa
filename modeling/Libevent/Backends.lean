import Libevent.Epoll.System
import Libevent.Poll
import Libevent.Select

/-!
# `Libevent.Backends`: fds, events and dispatches over time, on poll and on select

The systems whose runs the theorems about the poll and the select backend are about: events are
added to and deleted from the map of their fds, and now and then the base dispatches. The same
actions run on both; each takes its own part of what the kernel reports.
-/

namespace Libevent

/-- What can happen to the fds of a base. A dispatch begins and ends. -/
inductive FdAction where
  | add (ev : EvId)
  | del (ev : EvId)
  | dispatch
  | dispatched (start : Nat) (revents : Option (Nat → BitVec 16))
      (ready : Option ((Nat → Bool) × (Nat → Bool)))

section
variable (debugMode locking : Bool) (evs : EvId → Event)

/-- One action on a base with the poll backend. -/
def pollStep (m : Evmap PollOp) : FdAction → Except Fault (Evmap PollOp)
  | .add ev => (evmapIoAdd debugMode (pollops m) evs m (evs ev).evFd ev).map Prod.snd
  | .del ev => (pollIoDel evs m (evs ev).evFd ev).map Prod.snd
  | .dispatch => (pollDispatch locking m.evbase).map fun pop => { m with evbase := pop }
  | .dispatched start revents _ =>
    (pollDispatched locking revents start m.evbase).map fun pop => { m with evbase := pop }

/-- One action on a base with the select backend. -/
def selectStep (m : Evmap SelectOp) : FdAction → Except Fault (Evmap SelectOp)
  | .add ev => (evmapIoAdd debugMode selectops evs m (evs ev).evFd ev).map Prod.snd
  | .del ev => (evmapIoDel selectops evs m (evs ev).evFd ev).map Prod.snd
  | .dispatch => (selectDispatch m.evbase).map fun sop => { m with evbase := sop }
  | .dispatched start _ ready =>
    (selectDispatched ready start m.evbase).map fun sop => { m with evbase := sop }

/-- What the callers promise. Only an event that is not on the list of its fd is added, and only one
that is on it is deleted (they check `EVLIST_INSERTED`). One dispatch runs at a time, and if the
base has no lock, nothing else happens while it waits. -/
def FdLegal (m : Evmap PollOp) : FdAction → Prop
  | .add ev => (0 ≤ (evs ev).evFd → ev ∉ m.ioEvents (evs ev).evFd.toNat) ∧
      (locking = true ∨ m.evbase.polling = none)
  | .del ev => (0 ≤ (evs ev).evFd → ev ∈ m.ioEvents (evs ev).evFd.toNat) ∧
      (locking = true ∨ m.evbase.polling = none)
  | .dispatch => m.evbase.polling = none
  | .dispatched _ _ _ => m.evbase.polling ≠ none

end

end Libevent
