import Libevent.Evmap

/-!
# `Libevent.Select`: the select backend

`select.c`. Two sets of fds say what the base waits for, and `select` works on copies of them. The
sets grow with the highest fd, the copies at the next dispatch. A set is the bits in a number of
bytes that are allocated: an access outside is a fault. As the source says, the sizes are far from
the largest `int`.

`select_dispatch` is in two parts. While the base waits in `select`, other threads may add and
delete events.
-/

namespace Libevent

/-- `sizeof(fd_mask)`. -/
def SIZEOF_FD_MASK : Nat := 8

def NFDBITS : Nat := SIZEOF_FD_MASK * 8

/-- `SELECT_ALLOC_SIZE`: how many bytes to allocate for `n` fds. -/
def selectAllocSize (n : Nat) : Nat := (n + (NFDBITS - 1)) / NFDBITS * SIZEOF_FD_MASK

/-- A `fd_set` of which `bytes` bytes are allocated. -/
structure FdSet where
  bytes : Nat := 0
  bit : Nat → Bool := fun _ => false

namespace FdSet

/-- The `fd_mask` of `fd` is allocated. -/
def inside (set : FdSet) (fd : Nat) : Bool := (fd / NFDBITS + 1) * SIZEOF_FD_MASK ≤ set.bytes

/-- `fd` is in the set. -/
def has (set : FdSet) (fd : Nat) : Bool := set.inside fd && set.bit fd

/-- `FD_SET` or `FD_CLR`, under a condition. -/
def put (set : FdSet) (cond : Bool) (fd : Nat) (b : Bool) : Except Fault FdSet :=
  if !cond then .ok set
  else if set.inside fd then .ok { set with bit := fun i => if i = fd then b else set.bit i }
  else .error .outOfBounds

/-- `FD_ISSET`. -/
def fdIsset (set : FdSet) (fd : Nat) : Except Fault Bool :=
  if set.inside fd then .ok (set.bit fd) else .error .outOfBounds

/-- `memset` with zero, of the bytes from `first` up to `last`. -/
def zero (set : FdSet) (first last : Nat) : Except Fault FdSet :=
  if last ≤ set.bytes then
    .ok { set with bit := fun i => if 8 * first ≤ i ∧ i < 8 * last then false else set.bit i }
  else .error .outOfBounds

/-- `memcpy` of `n` bytes. -/
def copy (set source : FdSet) (n : Nat) : Except Fault FdSet :=
  if n ≤ set.bytes ∧ n ≤ source.bytes then
    .ok { set with bit := fun i => if i < 8 * n then source.bit i else set.bit i }
  else .error .outOfBounds

end FdSet

/-- `struct selectop`. -/
structure SelectOp where
  eventFds : Nat := 0
  eventFdsz : Nat := 0
  resizeOutSets : Bool := false
  eventReadsetIn : FdSet := {}
  eventWritesetIn : FdSet := {}
  eventReadsetOut : FdSet := {}
  eventWritesetOut : FdSet := {}
  mm : Mm := {}
  /-- The variable `nfds` of the `select_dispatch` that is waiting. -/
  selecting : Option Nat := none
  /-- The calls of `evmap_io_active_` by the last dispatch: the fd and the events. -/
  active : List (Nat × Nat) := []

variable (sop : SelectOp)

/-- `select_resize`. The flag says that it does not return -1. -/
def selectResize (fdsz : Nat) : Except Fault (Bool × SelectOp) :=
  if !sop.mm.alloc.1 then .ok (false, { sop with mm := sop.mm.alloc.2 })
  else
    let sop := { sop with
      mm := sop.mm.alloc.2, eventReadsetIn := { sop.eventReadsetIn with bytes := fdsz } }
    if !sop.mm.alloc.1 then .ok (false, { sop with mm := sop.mm.alloc.2 })
    else
      let sop := { sop with
        mm := sop.mm.alloc.2
        eventWritesetIn := { sop.eventWritesetIn with bytes := fdsz }
        resizeOutSets := true }
      do
        let readset ← sop.eventReadsetIn.zero sop.eventFdsz fdsz
        let writeset ← sop.eventWritesetIn.zero sop.eventFdsz fdsz
        pure (true, { sop with
          eventReadsetIn := readset, eventWritesetIn := writeset, eventFdsz := fdsz })

/-- The loop of `select_add`: double until the sets have `size` bytes. `fuel` doublings are enough
when `fuel` is `size`. -/
def growFdsz (size : Nat) : (fuel fdsz : Nat) → Nat
  | 0, fdsz => fdsz
  | fuel + 1, fdsz => if fdsz < size then growFdsz size fuel (fdsz * 2) else fdsz

/-- `select_add` up to the sets: they get large enough for `fd`. -/
def selectReserve (fd : Nat) : Except Fault (Bool × SelectOp) :=
  if sop.eventFds < fd then
    let size := selectAllocSize (fd + 1)
    let fdsz := growFdsz size size
      (if sop.eventFdsz < SIZEOF_FD_MASK then SIZEOF_FD_MASK else sop.eventFdsz)
    if fdsz ≠ sop.eventFdsz then do
      let (resized, sop) ← selectResize sop fdsz
      if resized then pure (true, { sop with eventFds := fd }) else pure (false, sop)
    else .ok (true, { sop with eventFds := fd })
  else .ok (true, sop)

/-- The bit of `fd` is written in the sets of the `events`. -/
def selectPut (fd events : Nat) (b : Bool) : Except Fault SelectOp := do
  let readset ← sop.eventReadsetIn.put (hasAny events EV_READ) fd b
  let writeset ← sop.eventWritesetIn.put (hasAny events EV_WRITE) fd b
  pure { sop with eventReadsetIn := readset, eventWritesetIn := writeset }

/-- `select_add`. -/
def selectAdd (fd _old events fdinfo : Nat) : Except Fault (Int × SelectOp × Nat) :=
  if hasAny events EV_SIGNAL then .error .assertFailed
  else do
    let (reserved, sop) ← selectReserve sop fd
    if !reserved then pure (-1, sop, fdinfo)
    else
      let sop ← selectPut sop fd events true
      pure (0, sop, fdinfo)

/-- `select_del`. -/
def selectDel (fd _old events fdinfo : Nat) : Except Fault (Int × SelectOp × Nat) :=
  if hasAny events EV_SIGNAL then .error .assertFailed
  else if sop.eventFds < fd then .ok (0, sop, fdinfo)
  else do
    let sop ← selectPut sop fd events false
    pure (0, sop, fdinfo)

/-- `selectops`. -/
def selectops : EventOp SelectOp where
  add := selectAdd
  del := selectDel

/-- `select_init`, `none` when it fails. `memory` is what the new memory holds. -/
def selectInit (memory : Nat → Bool) : Except Fault (Option SelectOp) := do
  let sop : SelectOp :=
    { eventReadsetIn := { bit := memory }, eventWritesetIn := { bit := memory } }
  let (resized, sop) ← selectResize sop (selectAllocSize (32 + 1))
  pure (if resized then some sop else none)

/-- The loop of `select_dispatch` over the fds, from a random one on: `j` turns are left, and the
last fd that has been looked at is `i`. -/
def selectLoop (readset writeset : FdSet) (nfds : Nat) :
    (j i : Nat) → Except Fault (List (Nat × Nat))
  | 0, _ => .ok []
  | j + 1, i => do
      let i := if i + 1 ≥ nfds then 0 else i + 1
      let readable ← readset.fdIsset i
      let writable ← writeset.fdIsset i
      let active ← selectLoop readset writeset nfds j i
      let res := (if readable then EV_READ else 0) ||| (if writable then EV_WRITE else 0)
      pure (if res = 0 then active else (i, res) :: active)

/-- The copies that `select` works on get as large as the sets. The flag says that `mm_realloc` did
not fail. -/
def selectResizeOut : Bool × SelectOp :=
  if !sop.resizeOutSets then (true, sop)
  else if !sop.mm.alloc.1 then (false, { sop with mm := sop.mm.alloc.2 })
  else
    let sop := { sop with
      mm := sop.mm.alloc.2
      eventReadsetOut := { sop.eventReadsetOut with bytes := sop.eventFdsz } }
    if !sop.mm.alloc.1 then (false, { sop with mm := sop.mm.alloc.2 })
    else
      (true, { sop with
        mm := sop.mm.alloc.2
        eventWritesetOut := { sop.eventWritesetOut with bytes := sop.eventFdsz }
        resizeOutSets := false })

/-- `select_dispatch` up to `select`. -/
def selectDispatch : Except Fault SelectOp :=
  match selectResizeOut sop with
  | (false, sop) => .ok sop
  | (true, sop) => do
      let readset ← sop.eventReadsetOut.copy sop.eventReadsetIn sop.eventFdsz
      let writeset ← sop.eventWritesetOut.copy sop.eventWritesetIn sop.eventFdsz
      pure { sop with
        eventReadsetOut := readset, eventWritesetOut := writeset
        selecting := some (sop.eventFds + 1) }

/-- What `select` writes to a set: whole `fd_mask`s, up to the one of the fd below `nfds`. -/
def FdSet.report (set : FdSet) (nfds : Nat) (ready : Nat → Bool) : Except Fault FdSet :=
  if selectAllocSize nfds ≤ set.bytes then
    .ok { set with bit := fun i => if i < nfds then ready i else set.bit i }
  else .error .outOfBounds

/-- `select_dispatch` from `select` on. `ready` has the fds that the kernel reports as readable and
as writable, `none` when `select` has failed, and `start` is the random number. -/
def selectDispatched (ready : Option ((Nat → Bool) × (Nat → Bool))) (start : Nat)
    (sop : SelectOp) : Except Fault SelectOp :=
  match sop.selecting, ready with
  | none, _ => .ok sop
  | some _, none => .ok { sop with selecting := none }
  | some nfds, some (readable, writable) => do
      let readset ← sop.eventReadsetOut.report nfds readable
      let writeset ← sop.eventWritesetOut.report nfds writable
      let active ← selectLoop readset writeset nfds nfds (start % nfds)
      pure { sop with
        eventReadsetOut := readset, eventWritesetOut := writeset
        selecting := none, active := active }

end Libevent
