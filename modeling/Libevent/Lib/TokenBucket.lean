import Libevent.Lib.Run
import Mathlib.Tactic.Linarith
import Mathlib.Tactic.Ring

/-!
# `Libevent.Lib.TokenBucket`: what a token bucket lets through

A bucket holds at most `maximum`, and gets `rate` in each tick. `Level.Takes`: something is taken
out of it, after it was filled up. `Level.budget`: what can still be taken out of it in the ticks
`lo` to `hi`.

* `Level.Takes.budget_le`: what is taken out comes out of the budget.
* `spentIn_le`: in a run of a system that keeps to a bucket, at most the budget is spent.
* `Level.budget_le`: the budget is at most `maximum + (hi - lo) * rate`.
-/

namespace Libevent.Lib

/-- What is in the bucket, and the tick in which it was filled up last. -/
structure Level where
  amount : Int
  tick : Nat

/-- The bucket is filled up, by at most `rate` for each tick, and then `n` is taken out. -/
structure Level.Takes (maximum rate n : Nat) (l l' : Level) : Prop where
  later : l.tick ≤ l'.tick
  full : l'.amount + n ≤ maximum
  refill : l'.amount + n ≤ l.amount + (l'.tick - l.tick : Nat) * rate

/-- Nothing is taken out. -/
theorem Level.Takes.zero {maximum rate : Nat} {l l' : Level} (later : l.tick ≤ l'.tick)
    (full : l'.amount ≤ maximum)
    (refill : l'.amount ≤ l.amount + (l'.tick - l.tick : Nat) * rate) :
    l.Takes maximum rate 0 l' :=
  ⟨later, by simpa using full, by simpa using refill⟩

/-- What can be taken out in the ticks `lo` to `hi`. -/
def Level.budget (maximum rate lo hi : Nat) (l : Level) : Int :=
  if l.tick < lo then maximum + (hi - lo : Nat) * rate
  else if l.tick ≤ hi then l.amount + (hi - l.tick : Nat) * rate
  else 0

variable {maximum rate n lo hi : Nat} {l l' : Level}

theorem Level.budget_nonneg (hl : 0 ≤ l.amount) : 0 ≤ l.budget maximum rate lo hi := by
  unfold budget
  split
  · positivity
  split
  · positivity
  · exact le_rfl

theorem Level.budget_le (rate : Nat) (hlohi : lo ≤ hi) (hfull : l.amount ≤ maximum) :
    l.budget maximum rate lo hi ≤ maximum + (hi - lo : Nat) * rate := by
  have hnonneg : (0 : Int) ≤ (hi - lo : Nat) * rate := by positivity
  unfold budget
  split
  · exact le_rfl
  split
  · next hlo hhi =>
      have hle : ((hi - l.tick : Nat) : Int) * rate ≤ (hi - lo : Nat) * rate :=
        mul_le_mul_of_nonneg_right (by omega) (by positivity)
      linarith
  · linarith

/-- What is taken out comes out of the budget. -/
theorem Level.Takes.budget_le (h : Takes maximum rate n l l') (hl : 0 ≤ l.amount) (lo hi : Nat) :
    (if lo ≤ l'.tick ∧ l'.tick ≤ hi then (n : Int) else 0) + l'.budget maximum rate lo hi ≤
      l.budget maximum rate lo hi := by
  have hlater := h.later
  have hfull := h.full
  have hrefill := h.refill
  by_cases hlo : l'.tick < lo
  · -- before the window, nothing counts
    unfold budget
    rw [if_neg (by omega), if_pos hlo, if_pos (by omega), zero_add]
  by_cases hhi : l'.tick ≤ hi
  · unfold budget
    rw [if_pos ⟨by omega, hhi⟩, if_neg hlo, if_pos hhi]
    by_cases hold : l.tick < lo
    · -- the first time in the window: at most `maximum` is there
      rw [if_pos hold]
      have hle : ((hi - l'.tick : Nat) : Int) * rate ≤ (hi - lo : Nat) * rate :=
        mul_le_mul_of_nonneg_right (by omega) (by positivity)
      linarith
    rw [if_neg hold, if_pos (by omega)]
    have hsplit : ((hi - l.tick : Nat) : Int) * rate =
        (hi - l'.tick : Nat) * rate + (l'.tick - l.tick : Nat) * rate := by
      rw [← add_mul]
      congr 2
      omega
    linarith
  · have hnonneg : 0 ≤ l.budget maximum rate lo hi := budget_nonneg hl
    rw [if_neg (by omega), budget, if_neg hlo, if_neg hhi]
    exact hnonneg

/-! ### Runs -/

variable {σ α ε : Type}

/-- What the steps of a run spend in the ticks `lo` to `hi`, until one fails. -/
def spentIn (step : σ → α → Except ε σ) (spent : σ → α → Nat) (tick : σ → Nat) (lo hi : Nat) :
    σ → List α → Nat
  | _, [] => 0
  | s, a :: as =>
    match step s a with
    | .error _ => 0
    | .ok s' => (if lo ≤ tick s ∧ tick s ≤ hi then spent s a else 0) +
        spentIn step spent tick lo hi s' as

/-- `R` relates the states to a bucket. What a step spends is taken out of the bucket. -/
theorem spentIn_le (lo hi : Nat) {step : σ → α → Except ε σ} {P : σ → α → Prop}
    {spent : σ → α → Nat} {tick : σ → Nat} {R : Level → σ → Prop} (hR : ∀ l s, R l s → 0 ≤ l.amount)
    (hstep : ∀ l s a s', R l s → P s a → step s a = .ok s' → ∃ l',
      l.Takes maximum rate (spent s a) l' ∧ (spent s a = 0 ∨ l'.tick = tick s) ∧ R l' s') :
    ∀ {as : List α} {l : Level} {s : σ}, R l s → Meets step P s as →
      (spentIn step spent tick lo hi s as : Int) ≤ l.budget maximum rate lo hi := by
  intro as
  induction as with
  | nil =>
    intro l s h _
    exact Level.budget_nonneg (hR l s h)
  | cons a as ih =>
    intro l s h hmeets
    unfold spentIn
    cases heq : step s a with
    | error e => exact Level.budget_nonneg (hR l s h)
    | ok s' =>
      obtain ⟨l', htakes, htick, hR'⟩ := hstep l s a s' h hmeets.1 heq
      have hrest := ih hR' (hmeets.2 s' heq)
      have hbudget := htakes.budget_le (hR l s h) lo hi
      have hhere : ((if lo ≤ tick s ∧ tick s ≤ hi then spent s a else 0 : Nat) : Int) ≤
          if lo ≤ l'.tick ∧ l'.tick ≤ hi then ((spent s a : Nat) : Int) else 0 := by
        rcases htick with hzero | htick
        · simp [hzero]
        · rw [htick]
          split <;> simp
      push_cast at hhere ⊢
      linarith

end Libevent.Lib
