import Mathlib.Algebra.Ring.Int.Parity
import Mathlib.Tactic.Ring

/-!
# `Libevent.Lib.Congruential`: linear congruential generators

Modulo a power of two, `x ↦ a * x + c` goes through every residue if `a` is 1 modulo 4 and `c` is
odd. Here, that it comes to 0 (`exists_iterate_dvd`): `2 ^ k` steps add `2 ^ k` modulo `2 ^ (k +
1)`, and so make a multiple of `2 ^ (k + 1)` out of a multiple of `2 ^ k` that is none.
-/

namespace Libevent.Lib

variable {a c : Int} (ha : a % 4 = 1) (hc : c % 2 = 1)
include ha hc

/-- What `2 ^ k` steps do. -/
theorem exists_iterate_eq (k : Nat) : ∃ s t : Int, ∀ x, (fun x => a * x + c)^[2 ^ k] x =
    (2 ^ (k + 2) * s + 1) * x + 2 ^ k * (2 * t + 1) := by
  induction k with
  | zero =>
    refine ⟨a / 4, c / 2, fun x => ?_⟩
    have ha' : a = 2 ^ (0 + 2) * (a / 4) + 1 := by omega
    have hc' : c = 2 ^ 0 * (2 * (c / 2) + 1) := by omega
    rw [← ha', ← hc']
    rfl
  | succ k ih =>
    obtain ⟨s, t, hst⟩ := ih
    refine ⟨2 ^ (k + 1) * s ^ 2 + s, 2 ^ k * s * (2 * t + 1) + t, fun x => ?_⟩
    rw [pow_succ, Nat.mul_two, Function.iterate_add_apply, hst, hst]
    ring

/-- Every number comes to a multiple of every power of two. -/
theorem exists_iterate_dvd (x : Int) (k : Nat) :
    ∃ n, (2 : Int) ^ k ∣ (fun x => a * x + c)^[n] x := by
  induction k with
  | zero => exact ⟨0, one_dvd _⟩
  | succ k ih =>
    obtain ⟨n, y, hy⟩ := ih
    rcases Int.even_or_odd' y with ⟨z, rfl | rfl⟩
    · exact ⟨n, z, by rw [hy]; ring⟩
    obtain ⟨s, t, hst⟩ := exists_iterate_eq ha hc k
    refine ⟨2 ^ k + n, 2 ^ (k + 1) * s * (2 * z + 1) + z + t + 1, ?_⟩
    rw [Function.iterate_add_apply, hy, hst]
    ring

end Libevent.Lib
