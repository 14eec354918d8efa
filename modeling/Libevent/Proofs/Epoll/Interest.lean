import Libevent.Epoll.System
import Libevent.Proofs.Epoll.OpTable
import Libevent.Proofs.Evmap

/-!
# `Libevent.Proofs.Epoll.Interest`: what the map asks of the backend

`EvmapIo.interest` is the interest that the counters of an fd stand for. When the counters
count (`CountsOk`), it is the union of the masks of the events on the list
(`interest_eq_union`). The events that `evmap_io_add_` and `evmap_io_del_` hand to the
backend are exactly the difference between the interest before and after.
-/

namespace Libevent

/-- The conditions of a mask that epoll can watch. -/
def Interest.ofEv (mask : Nat) : Interest :=
  ⟨hasAny mask EV_READ, hasAny mask EV_WRITE, hasAny mask EV_CLOSED⟩

theorem Interest.ev_eq_zero (i : Interest) : i.ev = 0 ↔ i = Interest.empty := by
  obtain ⟨a, b, c⟩ := i
  cases a <;> cases b <;> cases c <;> decide

/-- The interest that the counters stand for. -/
def EvmapIo.interest (ctx : EvmapIo) : Interest :=
  ⟨ctx.nread != 0, ctx.nwrite != 0, ctx.nclose != 0⟩

theorem EvmapIo.old_eq (ctx : EvmapIo) : ctx.old = ctx.interest.ev := by
  unfold EvmapIo.old EvmapIo.interest Interest.ev
  simp only [bne_iff_ne, ite_not]

/-- The conditions whose first event is one with the mask `events`. -/
def EvmapIo.newInterest (ctx : EvmapIo) (events : Nat) : Interest :=
  ⟨hasAny events EV_READ && ctx.nread == 0, hasAny events EV_WRITE && ctx.nwrite == 0,
    hasAny events EV_CLOSED && ctx.nclose == 0⟩

/-- The conditions whose last event is one with the mask `events`. -/
def EvmapIo.lastInterest (ctx : EvmapIo) (events : Nat) : Interest :=
  ⟨hasAny events EV_READ && ctx.nread == 1, hasAny events EV_WRITE && ctx.nwrite == 1,
    hasAny events EV_CLOSED && ctx.nclose == 1⟩

theorem EvmapIo.resUp_eq (ctx : EvmapIo) (events : Nat) :
    ctx.resUp events = (ctx.newInterest events).ev := rfl

theorem EvmapIo.resDown_eq (ctx : EvmapIo) (events : Nat) :
    ctx.resDown events = (ctx.lastInterest events).ev := rfl

variable {ctx : EvmapIo} {events : Nat}

theorem EvmapIo.resUp_eq_zero : ctx.resUp events = 0 ↔ ctx.newInterest events = Interest.empty := by
  rw [resUp_eq, Interest.ev_eq_zero]

theorem EvmapIo.resDown_eq_zero :
    ctx.resDown events = 0 ↔ ctx.lastInterest events = Interest.empty := by
  rw [resDown_eq, Interest.ev_eq_zero]

theorem Evmap.ioEvents_eq {β : Type} (m : Evmap β) (fd : Nat) :
    m.ioEvents fd = (m.io fd).events := by
  unfold Evmap.ioEvents Evmap.io
  cases m.entries fd <;> rfl

variable {evs : EvId → Event} {ev : EvId}

theorem IoLegal.mem {m : Evmap EpollBase} (h : IoLegal evs m (.del ev)) (hfd : 0 ≤ (evs ev).evFd) :
    ev ∈ (m.io (evs ev).evFd.toNat).events := by
  rw [← Evmap.ioEvents_eq]
  exact h hfd

/-! ### One more event, one event less -/

namespace Interest

/-- The conditions of both. -/
def or (i j : Interest) : Interest := ⟨i.read || j.read, i.write || j.write, i.closed || j.closed⟩

/-- The conditions of the first that the second does not have. -/
def diff (i j : Interest) : Interest :=
  ⟨i.read && !j.read, i.write && !j.write, i.closed && !j.closed⟩

/-- The second has all the conditions of the first. -/
structure Sub (i j : Interest) : Prop where
  read : i.read = true → j.read = true
  write : i.write = true → j.write = true
  closed : i.closed = true → j.closed = true

theorem or_empty (i : Interest) : i.or empty = i := by
  simp [or, empty]

theorem diff_empty (i : Interest) : i.diff empty = i := by
  simp [diff, empty]

end Interest

/-- The interest after an event has joined. -/
theorem EvmapIo.interest_joined (ctx : EvmapIo) (evs : EvId → Event) (ev : EvId) :
    (ctx.joined evs ev).interest = ctx.interest.or (ctx.newInterest (evs ev).evEvents) := by
  have hbit : ∀ bit n, (countUp (evs ev).evEvents bit n != 0) =
      (n != 0 || (hasAny (evs ev).evEvents bit && n == 0)) := by
    intro bit n
    unfold countUp
    cases hasAny (evs ev).evEvents bit <;> by_cases hn : n = 0 <;> simp [hn]
  simp only [interest, joined, up, newInterest, Interest.or, hbit]

/-- The interest after an event has left. -/
theorem EvmapIo.interest_left (hcounts : CountsOk evs ctx) (hmem : ev ∈ ctx.events) :
    (ctx.left evs ev).interest = ctx.interest.diff (ctx.lastInterest (evs ev).evEvents) := by
  have hbit : ∀ bit n, (hasAny (evs ev).evEvents bit && n == 0) = false →
      (countDown (evs ev).evEvents bit n != 0) =
        (n != 0 && !(hasAny (evs ev).evEvents bit && n == 1)) := by
    intro bit n h
    unfold countDown
    cases hb : hasAny (evs ev).evEvents bit with
    | false => simp
    | true =>
      rw [Bool.eq_iff_iff]
      simp only [if_true, bne_iff_ne, Bool.true_and, Bool.and_eq_true, Bool.not_eq_true',
        beq_eq_false_iff_ne]
      omega
  have hu := hcounts.no_underflow hmem
  rw [Bool.or_eq_false_iff, Bool.or_eq_false_iff] at hu
  simp only [interest, left, down, lastInterest, Interest.diff, hbit _ _ hu.1.1, hbit _ _ hu.1.2,
    hbit _ _ hu.2]

/-- When the backend does not hear of an event that joins, the interest stays. -/
theorem EvmapIo.interest_joined_of_quiet
    (h : ctx.resUp (evs ev).evEvents = 0) : (ctx.joined evs ev).interest = ctx.interest := by
  rw [interest_joined, resUp_eq_zero.mp h, Interest.or_empty]

/-- When the backend does not hear of an event that leaves, the interest stays. -/
theorem EvmapIo.interest_left_of_quiet (hcounts : CountsOk evs ctx) (hmem : ev ∈ ctx.events)
    (h : ctx.resDown (evs ev).evEvents = 0) : (ctx.left evs ev).interest = ctx.interest := by
  rw [interest_left hcounts hmem, resDown_eq_zero.mp h, Interest.diff_empty]

/-- An event that leaves was the last one only for conditions that were watched. -/
theorem EvmapIo.lastInterest_sub (ctx : EvmapIo) (events : Nat) :
    (ctx.lastInterest events).Sub ctx.interest := by
  constructor <;> simp only [lastInterest, interest, Bool.and_eq_true, beq_iff_eq, bne_iff_ne] <;>
    omega

/-! ### The changes -/

/-- The change of one condition: an add when `b` holds. -/
def addCode (b : Bool) : Nat := if b then EV_CHANGE_ADD else 0

/-- The change of one condition: a delete when `b` holds. -/
def delCode (b : Bool) : Nat := if b then EV_CHANGE_DEL else 0

theorem Interest.change_addCode (k i : Interest) :
    k.change (addCode i.read) (addCode i.write) (addCode i.closed) = k.or i := by
  have hbit : ∀ a b, applyBit a (addCode b) = (a || b) := by decide
  simp only [change, hbit, or]

theorem Interest.change_delCode (k i : Interest) :
    k.change (delCode i.read) (delCode i.write) (delCode i.closed) = k.diff i := by
  have hbit : ∀ a b, applyBit a (delCode b) = (a && !b) := by decide
  simp only [change, hbit, diff]

theorem codeOk_addCode (k b : Bool) : CodeOk k (addCode b) := by
  cases b <;> constructor <;> simp [addCode, EV_CHANGE_ADD, EV_CHANGE_DEL]

theorem consistent_addCode (k i : Interest) :
    Consistent k (addCode i.read) (addCode i.write) (addCode i.closed) :=
  ⟨codeOk_addCode _ _, codeOk_addCode _ _, codeOk_addCode _ _⟩

private theorem codeOk_delCode {k b : Bool} (h : b = true → k = true) : CodeOk k (delCode b) := by
  cases b with
  | false => constructor <;> simp [delCode, EV_CHANGE_DEL]
  | true => exact ⟨by decide, fun _ => h rfl⟩

theorem Interest.Sub.consistent {i k : Interest} (h : i.Sub k) :
    Consistent k (delCode i.read) (delCode i.write) (delCode i.closed) :=
  ⟨codeOk_delCode h.read, codeOk_delCode h.write, codeOk_delCode h.closed⟩

/-- All three change codes are zero exactly when the interest is empty. -/
theorem addCode_eq_zero (i : Interest) :
    (addCode i.read = 0 ∧ addCode i.write = 0 ∧ addCode i.closed = 0) ↔ i = Interest.empty := by
  obtain ⟨a, b, c⟩ := i
  cases a <;> cases b <;> cases c <;> decide

theorem delCode_eq_zero (i : Interest) :
    (delCode i.read = 0 ∧ delCode i.write = 0 ∧ delCode i.closed = 0) ↔ i = Interest.empty := by
  obtain ⟨a, b, c⟩ := i
  cases a <;> cases b <;> cases c <;> decide

/-! ### The union of the masks -/

/-- The union of the masks of the events of a list. -/
def unionEvents (evs : EvId → Event) (l : List EvId) : Nat :=
  l.foldr (fun e mask => (evs e).evEvents ||| mask) 0

theorem hasAny_or (a b bit : Nat) : hasAny (a ||| b) bit = (hasAny a bit || hasAny b bit) := by
  unfold hasAny
  rw [Nat.and_or_distrib_right, Bool.eq_iff_iff, Bool.or_eq_true, bne_iff_ne, bne_iff_ne,
    bne_iff_ne, ne_eq, Nat.or_eq_zero_iff]
  tauto

theorem hasAny_unionEvents (evs : EvId → Event) (bit : Nat) (l : List EvId) :
    hasAny (unionEvents evs l) bit = (wanting evs bit l != 0) := by
  induction l with
  | nil => simp [unionEvents, wanting, hasAny]
  | cons e l ih =>
    have hcons : unionEvents evs (e :: l) = (evs e).evEvents ||| unionEvents evs l := rfl
    rw [hcons, hasAny_or, ih, wanting_cons]
    unfold countUp
    cases hasAny (evs e).evEvents bit <;> simp

/-- The interest of an fd whose counters count is the union of its events. -/
theorem CountsOk.interest_eq_union (h : CountsOk evs ctx) :
    ctx.interest = Interest.ofEv (unionEvents evs ctx.events) := by
  simp only [Interest.ofEv, hasAny_unionEvents, EvmapIo.interest, h.nread, h.nwrite, h.nclose]

end Libevent
