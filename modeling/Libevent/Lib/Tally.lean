import Mathlib.Algebra.BigOperators.Group.Finset.Basic
import Mathlib.Tactic

/-!
# `Libevent.Lib.Tally`: a counter that counts

`Tally f c`: only finitely many elements have a weight `f x` that is not zero, and `c` is the
sum of the weights. When the weight of one element changes, the counter changes by as much.
-/

namespace Libevent.Lib

open scoped BigOperators

variable {α : Type} [DecidableEq α] {f g : α → Int}

/-- `c` is the sum of the weights `f`. -/
def Tally (f : α → Int) (c : Int) : Prop :=
  ∃ U : Finset α, (∀ x, x ∉ U → f x = 0) ∧ c = ∑ x ∈ U, f x

omit [DecidableEq α] in
theorem Tally.zero : Tally (fun _ : α => 0) 0 := ⟨∅, fun _ _ => rfl, by simp⟩

/-- One weight changes. -/
theorem Tally.update {c : Int} (h : Tally f c) (e : α)
    (hfg : ∀ x, x ≠ e → g x = f x) : Tally g (c + g e - f e) := by
  obtain ⟨U, hU, rfl⟩ := h
  refine ⟨insert e U, fun x hx => ?_, ?_⟩
  · rw [Finset.mem_insert, not_or] at hx
    rw [hfg x hx.1]
    exact hU x hx.2
  have hrest : ∑ x ∈ U.erase e, g x = ∑ x ∈ U.erase e, f x :=
    Finset.sum_congr rfl fun x hx => hfg x (Finset.ne_of_mem_erase hx)
  have hins : insert e U = insert e (U.erase e) := by
    ext x
    simp only [Finset.mem_insert, Finset.mem_erase]
    tauto
  have hf : ∑ x ∈ U, f x = f e + ∑ x ∈ U.erase e, f x := by
    by_cases he : e ∈ U
    · exact (Finset.add_sum_erase U f he).symm
    · rw [Finset.erase_eq_of_notMem he, hU e he, zero_add]
  rw [hins, Finset.sum_insert (Finset.notMem_erase e U), hrest, hf]
  ring

omit [DecidableEq α] in
/-- Equal weights. -/
theorem Tally.congr {c : Int} (h : Tally f c) (hfg : ∀ x, g x = f x) : Tally g c := by
  obtain rfl : g = f := funext hfg
  exact h

theorem Tally.nonpos_iff {c : Int} (h : Tally f c) (hf : ∀ x, 0 ≤ f x) : c ≤ 0 ↔ ∀ x, f x = 0 := by
  obtain ⟨U, hU, rfl⟩ := h
  rw [(Finset.sum_nonneg fun x _ => hf x).ge_iff_eq',
    Finset.sum_eq_zero_iff_of_nonneg fun x _ => hf x]
  exact ⟨fun h x => if hx : x ∈ U then h x hx else hU x hx, fun h x _ => h x⟩

end Libevent.Lib
