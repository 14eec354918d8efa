import Mathlib.Order.Basic
import Mathlib.Tactic

/-!
# `Libevent.Lib.HeapOrder`: binary heaps in an array, with a hole

The cells of an array `p : Nat → α` below `n` are a binary heap when no cell has a smaller key
than its parent. A sift moves a hole through the heap and fills it in the end with `e`.
`UpHole` and `DownHole` are what a sift towards the root and one towards the leaves keep: with
`e` in the hole, the heap is in order except between the hole and its parent (its children),
and what is above and below the hole is in order without it.
-/

namespace Libevent.Lib

open Function

variable {α κ : Type} [LinearOrder κ] (key : α → κ) {p : Nat → α}

/-- No cell below `n` has a smaller key than its parent. -/
def HeapOrder (p : Nat → α) (n : Nat) : Prop :=
  ∀ i, 0 < i → i < n → key (p ((i - 1) / 2)) ≤ key (p i)

variable {key}

/-- The root has the least key. -/
theorem HeapOrder.root_le {n : Nat} (h : HeapOrder key p n) :
    ∀ i, i < n → key (p 0) ≤ key (p i) := by
  intro i
  induction i using Nat.strong_induction_on with
  | _ i ih =>
    intro hi
    by_cases hz : i = 0
    · rw [hz]
    · exact le_trans (ih ((i - 1) / 2) (by omega) (by omega)) (h i (by omega) hi)

/-- The order is about the cells below `n` only. -/
theorem HeapOrder.congr {q : Nat → α} {n m : Nat} (h : HeapOrder key p n) (hmn : m ≤ n)
    (hpq : ∀ i, i < m → q i = p i) : HeapOrder key q m := by
  intro i h0 hi
  rw [hpq i hi, hpq ((i - 1) / 2) (by omega)]
  exact h i h0 (by omega)

variable (key)

/-- A hole that moves towards the root. -/
structure UpHole (p : Nat → α) (n hole : Nat) (e : α) : Prop where
  off : ∀ i, 0 < i → i < n → i ≠ hole → (i - 1) / 2 ≠ hole → key (p ((i - 1) / 2)) ≤ key (p i)
  below : ∀ i, 0 < i → i < n → (i - 1) / 2 = hole → key e ≤ key (p i)
  around : 0 < hole → ∀ i, 0 < i → i < n → (i - 1) / 2 = hole → key (p ((hole - 1) / 2)) ≤ key (p i)

/-- A hole that moves towards the leaves. -/
structure DownHole (p : Nat → α) (n hole : Nat) (e : α) : Prop where
  off : ∀ i, 0 < i → i < n → i ≠ hole → (i - 1) / 2 ≠ hole → key (p ((i - 1) / 2)) ≤ key (p i)
  above : 0 < hole → hole < n → key (p ((hole - 1) / 2)) ≤ key e
  around : 0 < hole → ∀ i, 0 < i → i < n → (i - 1) / 2 = hole → key (p ((hole - 1) / 2)) ≤ key (p i)

variable {key} {p : Nat → α} {n hole : Nat} {e : α}

/-- The parent of the hole moves into it, and the hole to the parent. -/
theorem UpHole.move (h : UpHole key p n hole e) (hpos : 0 < hole) (hlt : hole < n)
    (hkey : key e ≤ key (p ((hole - 1) / 2))) :
    UpHole key (update p hole (p ((hole - 1) / 2))) n ((hole - 1) / 2) e := by
  have hq : (hole - 1) / 2 < hole := by omega
  -- the parent of the hole was in order with its own parent and its other child
  have hup : 0 < (hole - 1) / 2 →
      key (p (((hole - 1) / 2 - 1) / 2)) ≤ key (p ((hole - 1) / 2)) := fun h0 =>
    h.off ((hole - 1) / 2) h0 (by omega) (by omega) (by omega)
  have hother : ∀ i, 0 < i → i < n → i ≠ hole → (i - 1) / 2 = (hole - 1) / 2 →
      key (p ((hole - 1) / 2)) ≤ key (p i) := by
    intro i h0 hi hih hpar
    rw [← hpar]
    exact h.off i h0 hi hih (by omega)
  refine ⟨?_, ?_, ?_⟩
  · intro i h0 hi hiq hpar
    by_cases hih : i = hole
    · exact absurd (congrArg (fun j => (j - 1) / 2) hih) hpar
    rw [update_of_ne hih]
    by_cases hph : (i - 1) / 2 = hole
    · rw [hph, update_self]
      exact h.around hpos i h0 hi hph
    · rw [update_of_ne hph]
      exact h.off i h0 hi hih hph
  · intro i h0 hi hpar
    by_cases hih : i = hole
    · rw [hih, update_self]; exact hkey
    · rw [update_of_ne hih]
      exact le_trans hkey (hother i h0 hi hih hpar)
  · intro hq0 i h0 hi hpar
    rw [update_of_ne (by omega)]
    by_cases hih : i = hole
    · rw [hih, update_self]; exact hup hq0
    · rw [update_of_ne hih]
      exact le_trans (hup hq0) (hother i h0 hi hih hpar)

/-- The hole is filled where its parent is not greater. -/
theorem UpHole.fill (h : UpHole key p n hole e)
    (hstop : 0 < hole → key (p ((hole - 1) / 2)) ≤ key e) :
    HeapOrder key (update p hole e) n := by
  intro i h0 hi
  by_cases hih : i = hole
  · rw [hih, update_self, update_of_ne (by omega)]
    exact hstop (by omega)
  rw [update_of_ne hih]
  by_cases hph : (i - 1) / 2 = hole
  · rw [hph, update_self]; exact h.below i h0 hi hph
  · rw [update_of_ne hph]; exact h.off i h0 hi hih hph

/-- The least child `c` of the hole moves into it, and the hole to the child. -/
theorem DownHole.move (h : DownHole key p n hole e) {c : Nat} (hc0 : 0 < c) (hcn : c < n)
    (hpar : (c - 1) / 2 = hole)
    (hmin : ∀ i, 0 < i → i < n → (i - 1) / 2 = hole → key (p c) ≤ key (p i))
    (hkey : key (p c) ≤ key e) :
    DownHole key (update p hole (p c)) n c e := by
  have hne : ∀ i, 0 < i → (i - 1) / 2 = c → i ≠ hole := fun i _ hi => by omega
  refine ⟨?_, ?_, ?_⟩
  · intro i h0 hi hic hpc
    by_cases hih : i = hole
    · rw [hih, update_self, update_of_ne (by omega)]
      exact h.around (by omega) c hc0 hcn hpar
    rw [update_of_ne hih]
    by_cases hph : (i - 1) / 2 = hole
    · rw [hph, update_self]; exact hmin i h0 hi hph
    · rw [update_of_ne hph]; exact h.off i h0 hi hih hph
  · intro _ _
    rw [hpar, update_self]
    exact hkey
  · intro _ i h0 hi hic
    rw [hpar, update_self, update_of_ne (hne i h0 hic), ← hic]
    exact h.off i h0 hi (hne i h0 hic) (by omega)

/-- The hole is filled where none of its children is smaller. -/
theorem DownHole.fill (h : DownHole key p n hole e)
    (hstop : ∀ i, 0 < i → i < n → (i - 1) / 2 = hole → key e ≤ key (p i)) :
    HeapOrder key (update p hole e) n := by
  intro i h0 hi
  by_cases hih : i = hole
  · rw [hih, update_self, update_of_ne (by omega)]
    exact h.above (by omega) (by omega)
  rw [update_of_ne hih]
  by_cases hph : (i - 1) / 2 = hole
  · rw [hph, update_self]; exact hstop i h0 hi hph
  · rw [update_of_ne hph]; exact h.off i h0 hi hih hph

/-- A hole behind the last cell. -/
theorem HeapOrder.upHole_last (h : HeapOrder key p n) (e : α) : UpHole key p (n + 1) n e where
  off := fun i h0 hi hin _ => h i h0 (by omega)
  below := fun i _ hi hpar => by omega
  around := fun _ i _ hi hpar => by omega

section
variable {key' : α → κ}

section
variable (h : HeapOrder key p n) (hkeys : ∀ i, i < n → i ≠ hole → key' (p i) = key (p i))
include h hkeys

/-- What is above and below a hole is in order without it, also when the keys change there. -/
theorem HeapOrder.around (hpos : 0 < hole) :
    ∀ i, 0 < i → i < n → (i - 1) / 2 = hole → key' (p ((hole - 1) / 2)) ≤ key' (p i) := by
  intro i h0 hi hpar
  rw [hkeys _ (by omega) (by omega), hkeys i hi (by omega)]
  calc key (p ((hole - 1) / 2)) ≤ key (p hole) := h hole hpos (by omega)
    _ = key (p ((i - 1) / 2)) := by rw [hpar]
    _ ≤ key (p i) := h i h0 hi

theorem HeapOrder.off :
    ∀ i, 0 < i → i < n → i ≠ hole → (i - 1) / 2 ≠ hole → key' (p ((i - 1) / 2)) ≤ key' (p i) := by
  intro i h0 hi hne hpar
  rw [hkeys _ (by omega) hpar, hkeys i hi hne]
  exact h i h0 hi

/-- A hole at a cell whose parent is greater than `e`: the cells below the hole are at least
as great. -/
theorem HeapOrder.upHole (hpos : 0 < hole) (hkey : key' e ≤ key' (p ((hole - 1) / 2))) :
    UpHole key' p n hole e where
  off := h.off hkeys
  below := fun i h0 hi hpar => le_trans hkey (h.around hkeys hpos i h0 hi hpar)
  around := h.around hkeys

/-- A hole at a cell whose parent is not greater than `e`. -/
theorem HeapOrder.downHole (hkey : 0 < hole → hole < n → key' (p ((hole - 1) / 2)) ≤ key' e) :
    DownHole key' p n hole e where
  off := h.off hkeys
  above := hkey
  around := h.around hkeys

end

end

end Libevent.Lib
