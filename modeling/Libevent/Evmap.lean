import Libevent.Event.Types

/-!
# `Libevent.Evmap`: the map from fds and signals to events

`evmap.c` keeps, for every fd, the list of the events that wait on it and how many of them
want each of `EV_READ`, `EV_WRITE` and `EV_CLOSED`. The backend hears of an fd only when the
first event for one of these comes, or the last one goes.

A backend is an `EventOp`: its `add` and `del` take the state of the backend, the fd, the
events that were enabled, the events to change, and the `fdinfo` that the map keeps for the
fd (for the changelist, `idxplus1`).
-/

namespace Libevent

/-- `struct evmap_io`, with the `fdinfo` that is allocated behind it. -/
structure EvmapIo where
  events : List EvId := []
  nread : Nat := 0
  nwrite : Nat := 0
  nclose : Nat := 0
  fdinfo : Nat := 0
  deriving DecidableEq, Repr

/-- What `evmap.c` calls of a `struct eventop`. The result is the return value, the state of
the backend after the call, and the `fdinfo` after the call. -/
structure EventOp (β : Type) where
  add : β → (fd old events fdinfo : Nat) → Except Fault (Int × β × Nat)
  del : β → (fd old events fdinfo : Nat) → Except Fault (Int × β × Nat)

/-- The part of `struct event_base` that `evmap.c` works on: the two maps, and the state of the
backends (`evbase`). -/
structure Evmap (β : Type) where
  nentries : Nat := 0
  entries : Nat → Option EvmapIo := fun _ => none
  sigNentries : Nat := 0
  sigEntries : Nat → Option (List EvId) := fun _ => none
  evbase : β
  mm : Mm := {}

/-- The loop of `evmap_make_space`: double until `slot` fits. From 32 entries on, `slot + 1`
doublings are more than enough. -/
def growEntries (slot : Nat) : (fuel nentries : Nat) → Nat
  | 0, nentries => nentries
  | fuel + 1, nentries =>
    if nentries ≤ slot then growEntries slot fuel (nentries <<< 1) else nentries

/-- `evmap_make_space`: the new number of entries, `none` when `mm_realloc` fails. -/
def evmapMakeSpace (mm : Mm) (nentries slot : Nat) : Option Nat × Mm :=
  if nentries ≤ slot then
    if mm.alloc.1 then
      (some (growEntries slot (slot + 1) (if nentries = 0 then 32 else nentries)), mm.alloc.2)
    else (none, mm.alloc.2)
  else (some nentries, mm)

namespace Evmap

variable {β : Type}

/-- Writes the entry of `fd`. -/
def setIo (m : Evmap β) (fd : Nat) (ctx : EvmapIo) : Evmap β :=
  { m with entries := fun x => if x = fd then some ctx else m.entries x }

/-- Writes the entry of the signal `sig`. -/
def setSig (m : Evmap β) (sig : Nat) (evs : List EvId) : Evmap β :=
  { m with sigEntries := fun x => if x = sig then some evs else m.sigEntries x }

end Evmap

/-- The head of `evmap_io_add_`: make space for `fd`, then `GET_IO_SLOT_AND_CTOR`. The
result is the entry, `none` when an allocation fails. -/
def getIoSlotAndCtor {β : Type} (m : Evmap β) (fd : Nat) : Option EvmapIo × Evmap β :=
  match evmapMakeSpace m.mm m.nentries fd with
  | (none, mm) => (none, { m with mm := mm })
  | (some n, mm) =>
    match m.entries fd with
    | some ctx => (some ctx, { m with mm := mm, nentries := n })
    | none =>
      if mm.alloc.1 then
        (some {}, ({ m with mm := mm.alloc.2, nentries := n }).setIo fd {})
      else (none, { m with mm := mm.alloc.2, nentries := n })

/-- As `getIoSlotAndCtor`, for `GET_SIGNAL_SLOT_AND_CTOR`. -/
def getSignalSlotAndCtor {β : Type} (m : Evmap β) (sig : Nat) : Option (List EvId) × Evmap β :=
  match evmapMakeSpace m.mm m.sigNentries sig with
  | (none, mm) => (none, { m with mm := mm })
  | (some n, mm) =>
    match m.sigEntries sig with
    | some evs => (some evs, { m with mm := mm, sigNentries := n })
    | none =>
      if mm.alloc.1 then
        (some [], ({ m with mm := mm.alloc.2, sigNentries := n }).setSig sig [])
      else (none, { m with mm := mm.alloc.2, sigNentries := n })

/-- The events enabled on an fd, read off its counters (`old` in the source). -/
def EvmapIo.old (ctx : EvmapIo) : Nat :=
  (if ctx.nread = 0 then 0 else EV_READ) |||
  (if ctx.nwrite = 0 then 0 else EV_WRITE) |||
  (if ctx.nclose = 0 then 0 else EV_CLOSED)

/-- `++n` for a counter when `mask` has `bit`. -/
def countUp (mask bit n : Nat) : Nat :=
  if hasAny mask bit then n + 1 else n

/-- The bit that `evmap_io_add_` puts in `res` for one counter: its first event came. -/
def resUp (mask bit n : Nat) : Nat :=
  if hasAny mask bit && n == 0 then bit else 0

/-- `--n` for a counter when `mask` has `bit`. -/
def countDown (mask bit n : Nat) : Nat :=
  if hasAny mask bit then n - 1 else n

/-- The bit that `evmap_io_del_` puts in `res` for one counter: its last event goes. -/
def resDown (mask bit n : Nat) : Nat :=
  if hasAny mask bit && n == 1 then bit else 0

/-- The counters after one more event with the mask `events`. -/
def EvmapIo.up (ctx : EvmapIo) (events : Nat) : EvmapIo :=
  { ctx with
      nread := countUp events EV_READ ctx.nread
      nwrite := countUp events EV_WRITE ctx.nwrite
      nclose := countUp events EV_CLOSED ctx.nclose }

/-- The counters after one event with the mask `events` less. -/
def EvmapIo.down (ctx : EvmapIo) (events : Nat) : EvmapIo :=
  { ctx with
      nread := countDown events EV_READ ctx.nread
      nwrite := countDown events EV_WRITE ctx.nwrite
      nclose := countDown events EV_CLOSED ctx.nclose }

/-- `res` of `evmap_io_add_`: the events that the backend has to enable. -/
def EvmapIo.resUp (ctx : EvmapIo) (events : Nat) : Nat :=
  Libevent.resUp events EV_READ ctx.nread ||| Libevent.resUp events EV_WRITE ctx.nwrite |||
    Libevent.resUp events EV_CLOSED ctx.nclose

/-- `res` of `evmap_io_del_`: the events that the backend has to disable. -/
def EvmapIo.resDown (ctx : EvmapIo) (events : Nat) : Nat :=
  Libevent.resDown events EV_READ ctx.nread ||| Libevent.resDown events EV_WRITE ctx.nwrite |||
    Libevent.resDown events EV_CLOSED ctx.nclose

section
variable {β : Type} (debugMode : Bool) (evsel : EventOp β) (evs : EvId → Event)

/-- The debug-mode check of `evmap_io_add_`: the first event of the list and the new one
differ in `EV_ET`. -/
def mixesEt (ctx : EvmapIo) (ev : EvId) : Bool :=
  match ctx.events with
  | [] => false
  | oldEv :: _ => (evs oldEv).evEvents &&& EV_ET != (evs ev).evEvents &&& EV_ET

/-- `evmap_io_add_`. Returns -1 on error, 0 when nothing changed in the backend, and 1 when
something did. -/
def evmapIoAdd (m : Evmap β) (fd : Int) (ev : EvId) : Except Fault (Int × Evmap β) :=
  if fd ≠ (evs ev).evFd then .error .assertFailed
  else if fd < 0 then .ok (0, m)
  else
    match getIoSlotAndCtor m fd.toNat with
    | (none, m) => .ok (-1, m)
    | (some ctx, m) =>
      let events := (evs ev).evEvents
      let ctx' := ctx.up events
      if ctx'.nread > 0xffff ∨ ctx'.nwrite > 0xffff ∨ ctx'.nclose > 0xffff then .ok (-1, m)
      else if debugMode && mixesEt evs ctx ev then .ok (-1, m)
      else if ctx.resUp events = 0 then
        .ok (0, m.setIo fd.toNat { ctx' with events := ev :: ctx.events })
      else
        match evsel.add m.evbase fd.toNat ctx.old ((events &&& EV_ET) ||| ctx.resUp events)
            ctx.fdinfo with
        | .error e => .error e
        | .ok (r, evbase, fdinfo) =>
          if r = -1 then
            .ok (-1, ({ m with evbase := evbase }).setIo fd.toNat { ctx with fdinfo := fdinfo })
          else
            .ok (1, ({ m with evbase := evbase }).setIo fd.toNat
              { ctx' with events := ev :: ctx.events, fdinfo := fdinfo })

/-- `evmap_io_del_`. Returns -1 on error, 0 when nothing changed in the backend, and 1 when
something did. `LIST_REMOVE` of an event that is not on the list is a fault. -/
def evmapIoDel (m : Evmap β) (fd : Int) (ev : EvId) : Except Fault (Int × Evmap β) :=
  if fd < 0 then .ok (0, m)
  else if fd ≠ (evs ev).evFd then .error .assertFailed
  else if m.nentries ≤ fd.toNat then .ok (-1, m)
  else
    match m.entries fd.toNat with
    | none => .error .nullDeref
    | some ctx =>
      let events := (evs ev).evEvents
      -- a counter that would drop below zero fails its assertion
      if hasAny events EV_READ && ctx.nread == 0 || hasAny events EV_WRITE && ctx.nwrite == 0 ||
          hasAny events EV_CLOSED && ctx.nclose == 0 then .error .assertFailed
      else if ev ∉ ctx.events then .error .notLinked
      else
        let ctx' := { ctx.down events with events := ctx.events.erase ev }
        if ctx.resDown events = 0 then .ok (0, m.setIo fd.toNat ctx')
        else
          match evsel.del m.evbase fd.toNat ctx.old (ctx.resDown events) ctx.fdinfo with
          | .error e => .error e
          | .ok (r, evbase, fdinfo) =>
            .ok (if r = -1 then -1 else 1,
              ({ m with evbase := evbase }).setIo fd.toNat { ctx' with fdinfo := fdinfo })

end

section
variable {β : Type} (evsigsel : EventOp β) (evs : EvId → Event)

/-- `evmap_signal_add_`. There is no check for a negative signal number: it indexes the map
out of bounds. -/
def evmapSignalAdd (m : Evmap β) (sig : Int) (ev : EvId) : Except Fault (Int × Evmap β) :=
  if sig < 0 then .error .outOfBounds
  else
    match getSignalSlotAndCtor m sig.toNat with
    | (none, m) => .ok (-1, m)
    | (some [], m) =>
      match evsigsel.add m.evbase (evs ev).evFd.toNat 0 EV_SIGNAL 0 with
      | .error e => .error e
      | .ok (r, evbase, _) =>
        if r = -1 then .ok (-1, { m with evbase := evbase })
        else .ok (1, ({ m with evbase := evbase }).setSig sig.toNat [ev])
    | (some l, m) => .ok (1, m.setSig sig.toNat (ev :: l))

/-- `evmap_signal_del_`. -/
def evmapSignalDel (m : Evmap β) (sig : Int) (ev : EvId) : Except Fault (Int × Evmap β) :=
  if sig < 0 then .error .outOfBounds
  else if m.sigNentries ≤ sig.toNat then .ok (-1, m)
  else
    match m.sigEntries sig.toNat with
    | none => .error .nullDeref
    | some l =>
      if ev ∉ l then .error .notLinked
      else if l.erase ev = [] then
        match evsigsel.del m.evbase (evs ev).evFd.toNat 0 EV_SIGNAL 0 with
        | .error e => .error e
        | .ok (r, evbase, _) =>
          .ok (if r = -1 then -1 else 1, ({ m with evbase := evbase }).setSig sig.toNat [])
      else .ok (1, m.setSig sig.toNat (l.erase ev))

end

end Libevent
