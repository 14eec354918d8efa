import Libevent.Evmap

/-!
# `Libevent.Poll`: the poll backend

`poll.c`. The backend keeps an array of `struct pollfd` without holes. The position of an fd in the
array, plus one, is in the `struct pollidx` that the map allocates for the fd (`fdinfo`). `poll_del`
fills the hole with the last entry, and writes to the `pollidx` of another fd. That write is left in
`moved`, and `pollIoDel` carries it out at the end of `evmap_io_del_`; nothing reads the record in
between.

An array is a function and the number of the entries that are allocated: an access outside is a
fault.

`poll_dispatch` is in two parts. While the base waits in `poll`, the lock of the base is free, and
other threads may add and delete events. They work on `event_set`, and `poll` on a copy of it. A
base without a lock does not make the copy.
-/

namespace Libevent

def POLLIN : BitVec 16 := 0x0001
def POLLOUT : BitVec 16 := 0x0004
def POLLERR : BitVec 16 := 0x0008
def POLLHUP : BitVec 16 := 0x0010
def POLLNVAL : BitVec 16 := 0x0020

/-- `struct pollfd`. -/
structure PollFd where
  fd : Nat := 0
  events : BitVec 16 := 0
  revents : BitVec 16 := 0
  deriving DecidableEq, Repr

/-- The bits that `poll_add` sets. -/
def PollFd.enable (pfd : PollFd) (events : Nat) : PollFd :=
  let pfd := { pfd with revents := 0 }
  let pfd := if hasAny events EV_WRITE then { pfd with events := pfd.events ||| POLLOUT } else pfd
  if hasAny events EV_READ then { pfd with events := pfd.events ||| POLLIN } else pfd

/-- The bits that `poll_del` clears. -/
def PollFd.disable (pfd : PollFd) (events : Nat) : PollFd :=
  let pfd := if hasAny events EV_READ then { pfd with events := pfd.events &&& ~~~POLLIN } else pfd
  if hasAny events EV_WRITE then { pfd with events := pfd.events &&& ~~~POLLOUT } else pfd

/-- `struct pollop`. -/
structure PollOp where
  eventCount : Nat := 0
  nfds : Nat := 0
  reallocCopy : Bool := false
  /-- `event_set`, of which `eventCount` entries are allocated. -/
  eventSet : Nat → PollFd := fun _ => {}
  /-- `event_set_copy`, of which `copyCount` entries are allocated. -/
  eventSetCopy : Nat → PollFd := fun _ => {}
  copyCount : Nat := 0
  mm : Mm := {}
  /-- A write to the `pollidx` of another fd: the fd and its `idxplus1`. -/
  moved : Option (Nat × Nat) := none
  /-- The variable `nfds` of the `poll_dispatch` that is waiting. -/
  polling : Option Nat := none
  /-- The calls of `evmap_io_active_` by the last dispatch: the fd and the events. -/
  active : List (Nat × Nat) := []

namespace PollOp

/-- `event_set[i]`. -/
def entry (pop : PollOp) (i : Nat) : Except Fault PollFd :=
  if i < pop.eventCount then .ok (pop.eventSet i) else .error .outOfBounds

/-- `event_set[i] = pfd`. -/
def setEntry (pop : PollOp) (i : Nat) (pfd : PollFd) : Except Fault PollOp :=
  if i < pop.eventCount then
    .ok { pop with eventSet := fun j => if j = i then pfd else pop.eventSet j }
  else .error .outOfBounds

/-- The beginning of `poll_add`: more entries, when there is only one left. The flag says that
`mm_realloc` did not fail. -/
def grow (pop : PollOp) : Bool × PollOp :=
  if pop.nfds + 1 ≥ pop.eventCount then
    if pop.mm.alloc.1 then
      (true, { pop with
        eventCount := if pop.eventCount < 32 then 32 else pop.eventCount * 2
        reallocCopy := true
        mm := pop.mm.alloc.2 })
    else (false, { pop with mm := pop.mm.alloc.2 })
  else (true, pop)

end PollOp

/-- `poll_add`. -/
def pollAdd (pop : PollOp) (fd _old events idxplus1 : Nat) : Except Fault (Int × PollOp × Nat) :=
  if hasAny events EV_SIGNAL then .error .assertFailed
  else if !hasAny events (EV_READ ||| EV_WRITE) then .ok (0, pop, idxplus1)
  else
    match pop.grow with
    | (false, pop) => .ok (-1, pop, idxplus1)
    | (true, pop) => do
        let i := if idxplus1 ≠ 0 then idxplus1 - 1 else pop.nfds
        let pfd ← pop.entry i
        -- an fd that has no entry gets the first one that is free
        let pfd := if idxplus1 ≠ 0 then pfd else { pfd with events := 0, fd := fd }
        let pop := if idxplus1 ≠ 0 then pop else { pop with nfds := pop.nfds + 1 }
        let pop ← pop.setEntry i (pfd.enable events)
        pure (0, pop, i + 1)

/-- The end of `poll_del`: the entry `i` of `fd` goes, and the last one is shifted down into its
position. `fdinfo` is `evmap_io_get_fdinfo_`: the `idxplus1` of an fd, `none` for `NULL`. -/
def PollOp.dropEntry (fdinfo : Nat → Option Nat) (pop : PollOp) (fd i : Nat) :
    Except Fault PollOp :=
  -- with `nfds` at zero, the last entry would be `event_set[-1]`
  if pop.nfds = 0 then .error .outOfBounds
  else
    let pop := { pop with nfds := pop.nfds - 1 }
    if i ≠ pop.nfds then do
      let last ← pop.entry pop.nfds
      let pop ← pop.setEntry i last
      -- the `idxplus1` of `fd` itself is zero by now
      match if last.fd = fd then some 0 else fdinfo last.fd with
      | none => .error .assertFailed
      | some idx =>
        if idx ≠ pop.nfds + 1 then .error .assertFailed
        else pure { pop with moved := some (last.fd, i + 1) }
    else .ok pop

/-- `poll_del`. -/
def pollDel (fdinfo : Nat → Option Nat) (pop : PollOp) (fd _old events idxplus1 : Nat) :
    Except Fault (Int × PollOp × Nat) :=
  if hasAny events EV_SIGNAL then .error .assertFailed
  else if !hasAny events (EV_READ ||| EV_WRITE) then .ok (0, pop, idxplus1)
  else if idxplus1 = 0 then .ok (-1, pop, idxplus1)
  else do
    let i := idxplus1 - 1
    let pfd ← pop.entry i
    let pfd := pfd.disable events
    let pop ← pop.setEntry i pfd
    if pfd.events ≠ 0 then pure (0, pop, idxplus1)
    else
      let pop ← pop.dropEntry fdinfo fd i
      pure (0, pop, 0)

/-- `pollops`, for a base with the map `m`. -/
def pollops (m : Evmap PollOp) : EventOp PollOp where
  add := pollAdd
  del := pollDel fun fd => (m.entries fd).map (·.fdinfo)

/-- The write that `poll_del` has left. -/
def storeMoved (m : Evmap PollOp) : Evmap PollOp :=
  match m.evbase.moved with
  | none => m
  | some (fd, idxplus1) =>
    { m with
      evbase := { m.evbase with moved := none }
      entries := fun x =>
        if x = fd then (m.entries x).map fun ctx => { ctx with fdinfo := idxplus1 }
        else m.entries x }

/-- `evmap_io_del_` on a base with the poll backend. -/
def pollIoDel (evs : EvId → Event) (m : Evmap PollOp) (fd : Int) (ev : EvId) :
    Except Fault (Int × Evmap PollOp) :=
  (evmapIoDel (pollops m) evs m fd ev).map fun (r, m) => (r, storeMoved m)

/-- The events that `poll_dispatch` reports for `revents`. A file that is closed counts as readable
and writable. -/
def pollResult (what : BitVec 16) : Nat :=
  let what :=
    if what &&& (POLLHUP ||| POLLERR ||| POLLNVAL) ≠ 0 then what ||| (POLLIN ||| POLLOUT) else what
  (if what &&& POLLIN ≠ 0 then EV_READ else 0) ||| (if what &&& POLLOUT ≠ 0 then EV_WRITE else 0)

/-- The loop of `poll_dispatch` over the entries, from a random one on: `j` turns are left, and the
last entry that has been looked at is `i`. -/
def pollLoop (set : Nat → PollFd) (count nfds : Nat) : (j i : Nat) → Except Fault (List (Nat × Nat))
  | 0, _ => .ok []
  | j + 1, i => do
      let i := if i + 1 = nfds then 0 else i + 1
      if i < count then
        let active ← pollLoop set count nfds j i
        let res := pollResult (set i).revents
        pure (if res = 0 then active else ((set i).fd, res) :: active)
      else .error .outOfBounds

/-- The calls of `evmap_io_active_` for the entries of `set`. -/
def pollActive (set : Nat → PollFd) (count nfds start : Nat) : Except Fault (List (Nat × Nat)) :=
  if nfds = 0 then .ok [] else pollLoop set count nfds nfds (start % nfds)

/-- What `poll` writes to the first `nfds` entries. -/
def pollReport (set : Nat → PollFd) (nfds : Nat) (revents : Nat → BitVec 16) : Nat → PollFd :=
  fun i => if i < nfds then { set i with revents := revents i } else set i

/-- `poll_dispatch` up to `poll`. -/
def pollDispatch (locking : Bool) (pop : PollOp) : Except Fault PollOp :=
  if locking then
    if pop.reallocCopy ∧ !pop.mm.alloc.1 then .ok { pop with mm := pop.mm.alloc.2 }
    else
      let pop := if pop.reallocCopy then
          { pop with copyCount := pop.eventCount, reallocCopy := false, mm := pop.mm.alloc.2 }
        else pop
      if pop.nfds ≤ pop.eventCount ∧ pop.nfds ≤ pop.copyCount then
        .ok { pop with
          eventSetCopy := fun i => if i < pop.nfds then pop.eventSet i else pop.eventSetCopy i
          polling := some pop.nfds }
      else .error .outOfBounds
  else .ok { pop with polling := some pop.nfds }

/-- `poll_dispatch` from `poll` on. `revents` is what the kernel has written to each entry, `none`
when `poll` has failed, and `start` is the random number. -/
def pollDispatched (locking : Bool) (revents : Option (Nat → BitVec 16)) (start : Nat)
    (pop : PollOp) : Except Fault PollOp :=
  match pop.polling, revents with
  | none, _ => .ok pop
  | some _, none => .ok { pop with polling := none }
  | some nfds, some revents =>
    if locking then do
      let set := pollReport pop.eventSetCopy nfds revents
      let active ← pollActive set pop.copyCount nfds start
      pure { pop with eventSetCopy := set, polling := none, active := active }
    else do
      let set := pollReport pop.eventSet nfds revents
      let active ← pollActive set pop.eventCount nfds start
      pure { pop with eventSet := set, polling := none, active := active }

end Libevent
