import Libevent.Basic

/-!
# `Libevent.Changelist`: changes that wait for the next dispatch

`event_changelist_add_` and `event_changelist_del_` (`evmap.c`) do not call the backend. They
keep one `struct event_change` for each fd, relative to the events that the backend has for
the fd, and leave it to the dispatch function to apply them.
-/

namespace Libevent

def EV_CHANGE_ADD : Nat := 0x01
def EV_CHANGE_DEL : Nat := 0x02
def EV_CHANGE_SIGNAL : Nat := EV_SIGNAL
def EV_CHANGE_ET : Nat := EV_ET

/-- `struct event_change`. -/
structure EventChange where
  fd : Nat
  oldEvents : Nat
  readChange : Nat := 0
  writeChange : Nat := 0
  closeChange : Nat := 0
  deriving DecidableEq, Repr

/-- `struct event_changelist`. `n_changes` is the length of `changes`. -/
structure EventChangelist where
  changes : List EventChange := []
  changesSize : Nat := 0

/-- `event_changelist_grow`, `none` when `mm_realloc` fails. -/
def eventChangelistGrow (cl : EventChangelist) (mm : Mm) : Option EventChangelist × Mm :=
  if mm.alloc.1 then
    (some { cl with
        changesSize := if cl.changesSize < 64 then 64 else cl.changesSize * 2 }, mm.alloc.2)
  else (none, mm.alloc.2)

/-- `event_changelist_get_or_construct`: the index of the change of `fd`, the list, and the
`idxplus1` of the fd. The index is `none` when the list cannot grow. -/
def eventChangelistGetOrConstruct (cl : EventChangelist) (mm : Mm) (fd oldEvents idxplus1 : Nat) :
    Except Fault (Option Nat × EventChangelist × Mm × Nat) :=
  if idxplus1 = 0 then
    if cl.changesSize < cl.changes.length then .error .assertFailed
    else
      match (if cl.changes.length = cl.changesSize then eventChangelistGrow cl mm
          else (some cl, mm)) with
      | (none, mm) => .ok (none, cl, mm, idxplus1)
      | (some cl, mm) =>
        .ok (some cl.changes.length,
          { cl with changes := cl.changes ++ [{ fd := fd, oldEvents := oldEvents }] }, mm,
          cl.changes.length + 1)
  else
    match cl.changes[idxplus1 - 1]? with
    | none => .error .outOfBounds
    | some change =>
      if change.fd ≠ fd then .error .assertFailed
      else .ok (some (idxplus1 - 1), cl, mm, idxplus1)

/-- The field updates of `event_changelist_add_`. An add replaces a previous delete. -/
def EventChange.add (change : EventChange) (events : Nat) : EventChange :=
  let chg := EV_CHANGE_ADD ||| (events &&& (EV_ET ||| EV_PERSIST ||| EV_SIGNAL))
  { change with
      readChange := if hasAny events (EV_READ ||| EV_SIGNAL) then chg else change.readChange
      writeChange := if hasAny events EV_WRITE then chg else change.writeChange
      closeChange := if hasAny events EV_CLOSED then chg else change.closeChange }

/-- The field updates of `event_changelist_del_`. A delete of an event that the old events
do not have is a no-op: it takes back an add that was not applied. -/
def EventChange.del (change : EventChange) (events : Nat) : EventChange :=
  { change with
      readChange :=
        if hasAny events (EV_READ ||| EV_SIGNAL) then
          if hasAny change.oldEvents (EV_READ ||| EV_SIGNAL) then EV_CHANGE_DEL else 0
        else change.readChange
      writeChange :=
        if hasAny events EV_WRITE then
          if hasAny change.oldEvents EV_WRITE then EV_CHANGE_DEL else 0
        else change.writeChange
      closeChange :=
        if hasAny events EV_CLOSED then
          if hasAny change.oldEvents EV_CLOSED then EV_CHANGE_DEL else 0
        else change.closeChange }

/-- The common body of `event_changelist_add_` and `event_changelist_del_`: find or make the
change of the fd and update it with `f`. -/
def eventChangelistUpdate (f : EventChange → EventChange) (cl : EventChangelist) (mm : Mm)
    (fd old idxplus1 : Nat) : Except Fault (Int × EventChangelist × Mm × Nat) :=
  match eventChangelistGetOrConstruct cl mm fd old idxplus1 with
  | .error e => .error e
  | .ok (none, cl, mm, idxplus1) => .ok (-1, cl, mm, idxplus1)
  | .ok (some idx, cl, mm, idxplus1) =>
    .ok (0, { cl with changes := cl.changes.modify idx f }, mm, idxplus1)

/-- `event_changelist_add_`. -/
def eventChangelistAdd (cl : EventChangelist) (mm : Mm) (fd old events idxplus1 : Nat) :
    Except Fault (Int × EventChangelist × Mm × Nat) :=
  eventChangelistUpdate (fun change => change.add events) cl mm fd old idxplus1

/-- `event_changelist_del_`. -/
def eventChangelistDel (cl : EventChangelist) (mm : Mm) (fd old events idxplus1 : Nat) :
    Except Fault (Int × EventChangelist × Mm × Nat) :=
  eventChangelistUpdate (fun change => change.del events) cl mm fd old idxplus1

end Libevent
