import Libevent.Changelist
import Libevent.Epoll.OpTable
import Libevent.Evmap

/-!
# `Libevent.Epoll.Backend`: the two epoll backends

`epoll.c`. The kernel side of an epoll fd is its interest table: for each registered fd the
mask of its last registration. `epollCtl` is what `epoll_ctl` does to it, with the two errors
that do not depend on the file behind the fd. `calls` records every call with its outcome.

`epollops` applies each change at once. `epollopsChangelist` puts it in the changelist, and
`epollDispatch` (the part of `epoll_dispatch` before `epoll_wait`) applies the list.
-/

namespace Libevent

inductive Errno where
  | eexist
  | enoent
  deriving DecidableEq, Repr

/-- One call of `epoll_ctl` and its outcome (`none` is success). -/
structure CtlCall where
  op : Nat
  fd : Nat
  events : Nat
  errno : Option Errno
  deriving DecidableEq, Repr

/-- `struct epollop`, together with the kernel's interest table for its `epfd`. -/
structure Epollop where
  interest : Nat → Option Nat := fun _ => none
  calls : List CtlCall := []

namespace Epollop

/-- The interest table with the entry of `fd` replaced. -/
def setInterest (ep : Epollop) (fd : Nat) (mask : Option Nat) : Epollop :=
  { ep with interest := fun x => if x = fd then mask else ep.interest x }

/-- What the kernel answers to `op` on `fd`. -/
def ctlErrno (ep : Epollop) (op fd : Nat) : Option Errno :=
  if op = EPOLL_CTL_ADD then (if (ep.interest fd).isSome then some .eexist else none)
  else if (ep.interest fd).isSome then none else some .enoent

end Epollop

/-- `epoll_ctl(epfd, op, fd, {events})`. -/
def epollCtl (ep : Epollop) (op fd events : Nat) : Option Errno × Epollop :=
  let errno := ep.ctlErrno op fd
  let ep' := { ep with calls := ⟨op, fd, events, errno⟩ :: ep.calls }
  match errno with
  | some e => (some e, ep')
  | none => (none, ep'.setInterest fd (if op = EPOLL_CTL_DEL then none else some events))

/-- `EPOLL_OP_TABLE_INDEX`. -/
def epollOpTableIndex (c : EventChange) : Nat :=
  (c.closeChange &&& (EV_CHANGE_ADD ||| EV_CHANGE_DEL)) |||
  ((c.readChange &&& (EV_CHANGE_ADD ||| EV_CHANGE_DEL)) <<< 2) |||
  ((c.writeChange &&& (EV_CHANGE_ADD ||| EV_CHANGE_DEL)) <<< 4) |||
  ((c.oldEvents &&& (EV_READ ||| EV_WRITE)) <<< 5) |||
  ((c.oldEvents &&& EV_CLOSED) <<< 1)

/-- The mask that `epoll_apply_one_change` registers: `EPOLLET` comes from the read and the
write change only. -/
def etEvents (ch : EventChange) (events : Nat) : Nat :=
  if hasAny (ch.readChange ||| ch.writeChange) EV_CHANGE_ET then events ||| EPOLLET else events

/-- What `epoll_apply_one_change` does after a failed `epoll_ctl`: a MOD that finds no entry
is retried as an ADD, an ADD that finds one as a MOD, and a DEL that finds none is fine. -/
def epollRetry (ep : Epollop) (op fd events : Nat) (errno : Errno) : Int × Epollop :=
  if op = EPOLL_CTL_MOD ∧ errno = .enoent then
    match epollCtl ep EPOLL_CTL_ADD fd events with
    | (none, ep) => (0, ep)
    | (some _, ep) => (-1, ep)
  else if op = EPOLL_CTL_ADD ∧ errno = .eexist then
    match epollCtl ep EPOLL_CTL_MOD fd events with
    | (none, ep) => (0, ep)
    | (some _, ep) => (-1, ep)
  else if op = EPOLL_CTL_DEL ∧ errno = .enoent then (0, ep)
  else (-1, ep)

/-- `epoll_apply_one_change`. -/
def epollApplyOneChange (ep : Epollop) (ch : EventChange) : Except Fault (Int × Epollop) :=
  match epollOpTable[epollOpTableIndex ch]? with
  | none => .error .outOfBounds
  | some o =>
    if o.events = 0 then
      if o.op = 0 then .ok (0, ep) else .error .assertFailed
    else
      match epollCtl ep o.op ch.fd (etEvents ch o.events) with
      | (none, ep) => .ok (0, ep)
      | (some errno, ep) => .ok (epollRetry ep o.op ch.fd (etEvents ch o.events) errno)

/-- The backend state: the changelist of the base (unused by `epollops`) and `struct
epollop`. -/
structure EpollBase where
  changelist : EventChangelist := {}
  epollop : Epollop := {}
  mm : Mm := {}

/-- The change that `epoll_nochangelist_add` applies. -/
def nochangelistAddChange (fd old events : Nat) : EventChange :=
  let chg := EV_CHANGE_ADD ||| (events &&& EV_ET)
  { fd := fd, oldEvents := old
    writeChange := if hasAny events EV_WRITE then chg else 0
    readChange := if hasAny events EV_READ then chg else 0
    closeChange := if hasAny events EV_CLOSED then chg else 0 }

/-- The change that `epoll_nochangelist_del` applies. It does not carry `EV_ET`. -/
def nochangelistDelChange (fd old events : Nat) : EventChange :=
  { fd := fd, oldEvents := old
    writeChange := if hasAny events EV_WRITE then EV_CHANGE_DEL else 0
    readChange := if hasAny events EV_READ then EV_CHANGE_DEL else 0
    closeChange := if hasAny events EV_CLOSED then EV_CHANGE_DEL else 0 }

/-- Applies one change to the backend state; `fdinfo` is not used. -/
def EpollBase.applyOne (b : EpollBase) (ch : EventChange) (fdinfo : Nat) :
    Except Fault (Int × EpollBase × Nat) :=
  match epollApplyOneChange b.epollop ch with
  | .error e => .error e
  | .ok (r, ep) => .ok (r, { b with epollop := ep }, fdinfo)

/-- `epollops`: `epoll_nochangelist_add` and `epoll_nochangelist_del`. -/
def epollops : EventOp EpollBase where
  add b fd old events fdinfo := b.applyOne (nochangelistAddChange fd old events) fdinfo
  del b fd old events fdinfo := b.applyOne (nochangelistDelChange fd old events) fdinfo

/-- The backend state after a changelist function. -/
def EpollBase.ofChangelist (b : EpollBase) (r : Except Fault (Int × EventChangelist × Mm × Nat)) :
    Except Fault (Int × EpollBase × Nat) :=
  match r with
  | .error e => .error e
  | .ok (r, cl, mm, fdinfo) => .ok (r, { b with changelist := cl, mm := mm }, fdinfo)

/-- `epollops_changelist`. -/
def epollopsChangelist : EventOp EpollBase where
  add b fd old events fdinfo :=
    b.ofChangelist (eventChangelistAdd b.changelist b.mm fd old events fdinfo)
  del b fd old events fdinfo :=
    b.ofChangelist (eventChangelistDel b.changelist b.mm fd old events fdinfo)

/-- `epoll_apply_changes`: applies the changes in order. The result is -1 if one of them
failed. -/
def epollApplyChanges : List EventChange → Epollop → Except Fault (Int × Epollop)
  | [], ep => .ok (0, ep)
  | ch :: chs, ep =>
    match epollApplyOneChange ep ch with
    | .error e => .error e
    | .ok (r, ep) =>
      match epollApplyChanges chs ep with
      | .error e => .error e
      | .ok (r', ep) => .ok (if r < 0 then -1 else r', ep)

/-- `event_change_get_fdinfo`: the record whose `fdinfo` belongs to a change. A change of a signal
is looked up in `sigmap`, where the records have no `fdinfo` (`fdinfo_len` of `evsigops` is 0). -/
def eventChangeGetFdinfo {β : Type} (m : Evmap β) (change : EventChange) : Except Fault EvmapIo :=
  if hasAny change.readChange EV_CHANGE_SIGNAL then .error .outOfBounds
  else
    match m.entries change.fd with
    | none => .error .nullDeref
    | some ctx => .ok ctx

/-- The loop of `event_changelist_remove_all_`, at the change number `i`: the `fdinfo` of
each fd that has a change must point back at the change, and is reset. -/
def eventChangelistRemoveAll {β : Type} : List EventChange → Nat → Evmap β → Except Fault (Evmap β)
  | [], _, m => .ok m
  | ch :: chs, i, m =>
    match eventChangeGetFdinfo m ch with
    | .error e => .error e
    | .ok ctx =>
      if ctx.fdinfo ≠ i + 1 then .error .assertFailed
      else eventChangelistRemoveAll chs (i + 1) (m.setIo ch.fd { ctx with fdinfo := 0 })

/-- The part of `epoll_dispatch` before `epoll_wait`: `epoll_apply_changes`, then
`event_changelist_remove_all_`. -/
def epollDispatch (m : Evmap EpollBase) : Except Fault (Evmap EpollBase) :=
  match epollApplyChanges m.evbase.changelist.changes m.evbase.epollop with
  | .error e => .error e
  | .ok (_, ep) =>
    match eventChangelistRemoveAll m.evbase.changelist.changes 0
        { m with evbase := { m.evbase with epollop := ep } } with
    | .error e => .error e
    | .ok m =>
      .ok { m with
        evbase := { m.evbase with changelist := { m.evbase.changelist with changes := [] } } }

end Libevent
