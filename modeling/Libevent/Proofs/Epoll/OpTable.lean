import Libevent.Epoll.Backend

/-!
# `Libevent.Proofs.Epoll.OpTable`: what the table makes of a change

An `Interest` is the set of conditions that are watched on an fd. `applyBit` says what a
change does to one of them. `epollOpTable_lookup` reads the whole table: with the old events
`k`, a change leads to the interest `k.change r w c` and to the operation `expectedOp`, which
the kernel accepts when it has exactly `k` for the fd (`epollApplyOneChange_run_eq`).
-/

namespace Libevent

/-- The conditions that are watched on an fd. -/
structure Interest where
  read : Bool
  write : Bool
  closed : Bool
  deriving DecidableEq, Repr

namespace Interest

/-- Nothing is watched. -/
def empty : Interest := ⟨false, false, false⟩

/-- As a mask of `EV_READ`, `EV_WRITE` and `EV_CLOSED`. -/
def ev (i : Interest) : Nat :=
  (if i.read then EV_READ else 0) ||| (if i.write then EV_WRITE else 0) |||
    (if i.closed then EV_CLOSED else 0)

/-- As a mask of `EPOLLIN`, `EPOLLOUT` and `EPOLLRDHUP`. -/
def epoll (i : Interest) : Nat :=
  (if i.read then EPOLLIN else 0) ||| (if i.write then EPOLLOUT else 0) |||
    (if i.closed then EPOLLRDHUP else 0)

/-- What the kernel's table holds for an fd with this interest, without `EPOLLET`. -/
def registered (i : Interest) : Option Nat :=
  if i = empty then none else some i.epoll

theorem registered_isSome (i : Interest) : i.registered.isSome = decide (i ≠ empty) := by
  unfold registered
  split <;> simp_all

end Interest

/-- One condition after a change of the given kind. -/
def applyBit (old : Bool) (chg : Nat) : Bool :=
  if chg = EV_CHANGE_ADD then true else if chg = EV_CHANGE_DEL then false else old

/-- The interest after the changes `r`, `w` and `c`. -/
def Interest.change (k : Interest) (r w c : Nat) : Interest :=
  ⟨applyBit k.read r, applyBit k.write w, applyBit k.closed c⟩

/-- The operation for a change: nothing when nothing changes, a DEL when nothing remains,
and else a registration of what remains. -/
def expectedOp (k : Interest) (r w c : Nat) : Operation :=
  if r = 0 ∧ w = 0 ∧ c = 0 then ⟨0, 0⟩
  else if k.change r w c = Interest.empty then
    ⟨Interest.epoll ⟨r == EV_CHANGE_DEL, w == EV_CHANGE_DEL, c == EV_CHANGE_DEL⟩, EPOLL_CTL_DEL⟩
  else
    ⟨(k.change r w c).epoll, if k = Interest.empty then EPOLL_CTL_ADD else EPOLL_CTL_MOD⟩

set_option maxRecDepth 4000 in
private theorem epollOpTable_lookup_fin : ∀ (a b d : Bool) (r w c : Fin 3),
    epollOpTable[epollOpTableIndex
      { fd := 0, oldEvents := (⟨a, b, d⟩ : Interest).ev, readChange := r, writeChange := w,
        closeChange := c }]? = some (expectedOp ⟨a, b, d⟩ r w c) := by
  decide +kernel

variable {r w c : Nat}

/-- The table, read as a whole: only the two low bits of each change count. -/
theorem epollOpTable_lookup (k : Interest) (ch : EventChange) (hold : ch.oldEvents = k.ev)
    (hr : ch.readChange &&& 3 = r) (hw : ch.writeChange &&& 3 = w) (hc : ch.closeChange &&& 3 = c)
    (hr3 : r < 3) (hw3 : w < 3) (hc3 : c < 3) :
    epollOpTable[epollOpTableIndex ch]? = some (expectedOp k r w c) := by
  have hmask : EV_CHANGE_ADD ||| EV_CHANGE_DEL = 3 := rfl
  have hlow : ∀ x < 3, x &&& 3 = x := by decide
  have h := epollOpTable_lookup_fin k.read k.write k.closed ⟨r, hr3⟩ ⟨w, hw3⟩ ⟨c, hc3⟩
  simp only [epollOpTableIndex, hmask, hold, hr, hw, hc, hlow r hr3, hlow w hw3, hlow c hc3] at h ⊢
  exact h

/-- A change of one condition is no add and delete at once, and a delete only when the
condition is there. -/
structure CodeOk (old : Bool) (chg : Nat) : Prop where
  lt : chg < 3
  del : chg = EV_CHANGE_DEL → old = true

/-- A change that is right for each of the three conditions. -/
structure Consistent (k : Interest) (r w c : Nat) : Prop where
  read : CodeOk k.read r
  write : CodeOk k.write w
  closed : CodeOk k.closed c

variable {k : Interest}

/-- With a consistent change, the interest is empty afterwards only when it was not before,
or nothing changes. -/
private theorem Consistent.ne_empty (h : Consistent k r w c) (hne : ¬(r = 0 ∧ w = 0 ∧ c = 0))
    (hnew : k.change r w c = Interest.empty) :
    k ≠ Interest.empty := by
  obtain ⟨⟨hr, h1⟩, ⟨hw, h2⟩, ⟨hc, h3⟩⟩ := h
  rintro ⟨rfl, rfl, rfl⟩
  interval_cases r <;> interval_cases w <;> interval_cases c <;>
    simp_all [Interest.change, applyBit, Interest.empty, EV_CHANGE_ADD, EV_CHANGE_DEL]

theorem expectedOp_events_eq_zero (h : Consistent k r w c) :
    (expectedOp k r w c).events = 0 ↔ r = 0 ∧ w = 0 ∧ c = 0 := by
  obtain ⟨a, b, d⟩ := k
  obtain ⟨⟨hr, -⟩, ⟨hw, -⟩, ⟨hc, -⟩⟩ := h
  interval_cases r <;> interval_cases w <;> interval_cases c <;> revert a b d <;> decide

/-- The mask that is registered for the interest `i` by the change `ch`: with `EPOLLET`
exactly when the read or the write change has `EV_CHANGE_ET`. -/
def registeredBy (ch : EventChange) (i : Interest) : Option Nat :=
  if i = Interest.empty then none else some (etEvents ch i.epoll)

theorem registeredBy_isSome (ch : EventChange) (i : Interest) :
    (registeredBy ch i).isSome = i.registered.isSome := by
  unfold registeredBy Interest.registered
  split <;> rfl

/-- The run of `epoll_apply_one_change` when the kernel has the interest `k` for the fd and
the change is consistent with `k`. Nothing happens when nothing changes. Otherwise there is
one call, it succeeds, and it registers what `k.change` says. -/
theorem epollApplyOneChange_run_eq (ep : Epollop) (ch : EventChange) (k : Interest)
    (hold : ch.oldEvents = k.ev) (hr : ch.readChange &&& 3 = r) (hw : ch.writeChange &&& 3 = w)
    (hc : ch.closeChange &&& 3 = c) (hcons : Consistent k r w c)
    (hep : (ep.interest ch.fd).isSome = k.registered.isSome) :
    (r = 0 ∧ w = 0 ∧ c = 0 ∧ epollApplyOneChange ep ch = .ok (0, ep)) ∨
    (¬(r = 0 ∧ w = 0 ∧ c = 0) ∧ ∃ op events, epollApplyOneChange ep ch = .ok (0,
        { interest := fun x =>
            if x = ch.fd then registeredBy ch (k.change r w c) else ep.interest x
          calls := ⟨op, ch.fd, events, none⟩ :: ep.calls })) := by
  have htab := epollOpTable_lookup k ch hold hr hw hc hcons.read.lt hcons.write.lt hcons.closed.lt
  by_cases hz : r = 0 ∧ w = 0 ∧ c = 0
  · refine .inl ⟨hz.1, hz.2.1, hz.2.2, ?_⟩
    have hop : expectedOp k r w c = ⟨0, 0⟩ := if_pos hz
    simp [epollApplyOneChange, htab, hop]
  refine .inr ⟨hz, (expectedOp k r w c).op, etEvents ch (expectedOp k r w c).events, ?_⟩
  have hev : (expectedOp k r w c).events ≠ 0 :=
    fun h => hz ((expectedOp_events_eq_zero hcons).mp h)
  -- the kernel accepts the operation: a DEL or a MOD finds the fd, an ADD does not
  have herr : ep.ctlErrno (expectedOp k r w c).op ch.fd = none := by
    rw [Interest.registered_isSome] at hep
    unfold Epollop.ctlErrno expectedOp
    rw [if_neg hz]
    by_cases hnew : k.change r w c = Interest.empty
    · have hk := hcons.ne_empty hz hnew
      rw [if_pos hnew]
      simp [hep, hk, EPOLL_CTL_DEL, EPOLL_CTL_ADD]
    · rw [if_neg hnew]
      by_cases hk : k = Interest.empty <;>
        simp [hep, hk, EPOLL_CTL_ADD, EPOLL_CTL_MOD]
  have hreg : (if (expectedOp k r w c).op = EPOLL_CTL_DEL then none
      else some (etEvents ch (expectedOp k r w c).events)) =
        registeredBy ch (k.change r w c) := by
    unfold expectedOp registeredBy
    rw [if_neg hz]
    by_cases hnew : k.change r w c = Interest.empty
    · rw [if_pos hnew, if_pos hnew, if_pos rfl]
    · rw [if_neg hnew]
      split <;> simp [EPOLL_CTL_ADD, EPOLL_CTL_DEL, EPOLL_CTL_MOD]
  simp [epollApplyOneChange, htab, hev, epollCtl, herr, Epollop.setInterest, hreg]

end Libevent
