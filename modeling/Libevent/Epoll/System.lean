import Libevent.Epoll.Backend
import Libevent.Lib.Run

/-!
# `Libevent.Epoll.System`: fds, events and dispatches over time

The system whose runs the epoll theorems are about: events are added to and deleted from the
map of their fds (`evmap_io_add_`, `evmap_io_del_`), and now and then the base dispatches.
`evs` gives the fd and the mask of each event; they do not change while the event is on a
list.

`changelistStep` is about the changelist alone: its functions are also called directly, with any
old events and any events of an fd, and the map may grow by itself.
-/

namespace Libevent

/-- What can happen to the fds of a base. -/
inductive IoAction where
  | add (ev : EvId)
  | del (ev : EvId)
  | dispatch
  deriving DecidableEq, Repr

/-- The events on the list of `fd`. -/
def Evmap.ioEvents {β : Type} (m : Evmap β) (fd : Nat) : List EvId :=
  match m.entries fd with
  | none => []
  | some ctx => ctx.events

section
variable (debugMode : Bool) (evsel : EventOp EpollBase) (evs : EvId → Event)

/-- One action. -/
def ioStep (m : Evmap EpollBase) : IoAction → Except Fault (Evmap EpollBase)
  | .add ev => (evmapIoAdd debugMode evsel evs m (evs ev).evFd ev).map Prod.snd
  | .del ev => (evmapIoDel evsel evs m (evs ev).evFd ev).map Prod.snd
  | .dispatch => epollDispatch m

/-- What the callers of `evmap_io_add_` and `evmap_io_del_` promise (they check
`EVLIST_INSERTED`): only an event that is not on the list is added, and only one that is on
the list is deleted. An event without an fd is on no list. -/
def IoLegal (m : Evmap EpollBase) : IoAction → Prop
  | .add ev => 0 ≤ (evs ev).evFd → ev ∉ m.ioEvents (evs ev).evFd.toNat
  | .del ev => 0 ≤ (evs ev).evFd → ev ∈ m.ioEvents (evs ev).evFd.toNat
  | .dispatch => True

end

/-! ### The changelist alone -/

/-- What can happen to the changelist and to the map that points into it. -/
inductive ChangelistAction where
  | ioAdd (ev : EvId)
  | ioDel (ev : EvId)
  | add (fd old events : Nat)
  | del (fd old events : Nat)
  | removeAll
  | grow (fd : Nat)
  deriving DecidableEq, Repr

/-- A call of `event_changelist_add_` or `event_changelist_del_` with the `fdinfo` of the record of
`fd`. -/
def changelistCall (call : EpollBase → (fd old events fdinfo : Nat) →
      Except Fault (Int × EpollBase × Nat)) (m : Evmap EpollBase) (fd old events : Nat) :
    Except Fault (Evmap EpollBase) :=
  match m.entries fd with
  | none => .error .nullDeref
  | some ctx =>
    match call m.evbase fd old events ctx.fdinfo with
    | .error e => .error e
    | .ok (_, b, fdinfo) => .ok (({ m with evbase := b }).setIo fd { ctx with fdinfo := fdinfo })

/-- One action. -/
def changelistStep (debugMode : Bool) (evs : EvId → Event) (m : Evmap EpollBase) :
    ChangelistAction → Except Fault (Evmap EpollBase)
  | .ioAdd ev =>
    (evmapIoAdd debugMode epollopsChangelist evs m (evs ev).evFd ev).map Prod.snd
  | .ioDel ev => (evmapIoDel epollopsChangelist evs m (evs ev).evFd ev).map Prod.snd
  | .add fd old events => changelistCall epollopsChangelist.add m fd old events
  | .del fd old events => changelistCall epollopsChangelist.del m fd old events
  | .removeAll =>
    match eventChangelistRemoveAll m.evbase.changelist.changes 0 m with
    | .error e => .error e
    | .ok m =>
      .ok { m with
        evbase := { m.evbase with changelist := { m.evbase.changelist with changes := [] } } }
  | .grow fd => .ok (getIoSlotAndCtor m fd).2

/-- What the callers promise: the event that is deleted is on its list, and the changelist hears of
an fd only after the map has made its record, and never of `EV_SIGNAL` (signals go to the signal
backend). -/
def ChangelistLegal (evs : EvId → Event) (m : Evmap EpollBase) : ChangelistAction → Prop
  | .ioDel ev => 0 ≤ (evs ev).evFd → ev ∈ m.ioEvents (evs ev).evFd.toNat
  | .add fd _ events => (m.entries fd).isSome ∧ hasAny events EV_SIGNAL = false
  | .del fd _ _ => (m.entries fd).isSome
  | _ => True

/-- A base that has no events yet. -/
def Evmap.start : Evmap EpollBase := { evbase := {} }

end Libevent
