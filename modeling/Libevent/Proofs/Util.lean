import Libevent.Lib.Congruential
import Libevent.Proofs.Event.Expiry
import Libevent.Util

/-!
# `Libevent.Proofs.Util`: clocks do not go back, and random numbers come

`adjustMonotonicTime_ratchet`: from one reading to the next the ratcheting clock advances by as much
as the raw clock does, or not at all when that goes back. `lastTime` is the last reading together
with all the adjustments so far.

`evutilWeakrandRange_total`: the loop of `evutil_weakrand_range_` ends, because the generator comes
to 0 from every seed.
-/

namespace Libevent

/-! ### `adjust_monotonic_time` -/

/-- A normalised time that is not negative. -/
def Timeval.Normal (tv : Timeval) : Prop := 0 ≤ tv.tvSec ∧ tv.tvUsec < 1000000

theorem evutilTimeradd_normal {a b : Timeval} (ha : a.Normal) (hb : b.Normal) :
    (evutilTimeradd a b).Normal ∧ (evutilTimeradd a b).micros = a.micros + b.micros := by
  unfold Timeval.Normal at *
  unfold evutilTimeradd Timeval.micros
  dsimp only
  split <;> dsimp only <;> omega

theorem evutilTimercmpLt_iff {a b : Timeval} (ha : a.Normal) (hb : b.Normal) :
    evutilTimercmpLt a b = true ↔ a.micros < b.micros := by
  unfold Timeval.Normal at *
  unfold evutilTimercmpLt Timeval.micros
  split <;> simp only [decide_eq_true_eq] <;> omega

theorem evutilTimersub_normal {a b : Timeval} (ha : a.Normal) (hb : b.Normal)
    (h : b.micros ≤ a.micros) :
    (evutilTimersub a b).Normal ∧ (evutilTimersub a b).micros = a.micros - b.micros := by
  unfold Timeval.Normal Timeval.micros at *
  unfold evutilTimersub
  split <;> dsimp only <;> omega

/-- The two times that the timer keeps are normal. -/
structure MonotonicTimer.Ok (base : MonotonicTimer) : Prop where
  adjust : base.adjustMonotonicClock.Normal
  last : base.lastTime.Normal

/-- One reading. The time does not go back behind `lastTime`, and what is added to the reading now
is what is added to the next. -/
theorem adjustMonotonicTime_spec {base : MonotonicTimer} (h : base.Ok) {tv : Timeval}
    (htv : tv.Normal) : (adjustMonotonicTime base tv).1.Ok ∧
      (adjustMonotonicTime base tv).1.lastTime = (adjustMonotonicTime base tv).2 ∧
      (adjustMonotonicTime base tv).2.micros =
        max base.lastTime.micros (tv.micros + base.adjustMonotonicClock.micros) ∧
      (adjustMonotonicTime base tv).2.micros =
        tv.micros + (adjustMonotonicTime base tv).1.adjustMonotonicClock.micros := by
  obtain ⟨hsum, hmicros⟩ := evutilTimeradd_normal htv h.adjust
  unfold adjustMonotonicTime
  dsimp only
  rw [← hmicros]
  split
  · next hback =>
    have hlt := (evutilTimercmpLt_iff hsum h.last).mp hback
    obtain ⟨hsub, hsubMicros⟩ := evutilTimersub_normal h.last hsum hlt.le
    obtain ⟨hadj, hadjMicros⟩ := evutilTimeradd_normal hsub h.adjust
    exact ⟨⟨hadj, h.last⟩, rfl, (max_eq_left hlt.le).symm, by dsimp only; omega⟩
  · next hforth =>
    have hle := not_lt.mp (mt (evutilTimercmpLt_iff hsum h.last).mpr hforth)
    exact ⟨⟨h.adjust, hsum⟩, rfl, (max_eq_right hle).symm, hmicros⟩

/-- A zeroed timer after the readings before number `k`. -/
def timerAt (readings : Nat → Timeval) : Nat → MonotonicTimer
  | 0 => {}
  | k + 1 => (adjustMonotonicTime (timerAt readings k) (readings k)).1

/-- What the timer makes of reading number `k`. -/
def clockAt (readings : Nat → Timeval) (k : Nat) : Timeval :=
  (adjustMonotonicTime (timerAt readings k) (readings k)).2

section
variable {readings : Nat → Timeval} (hreadings : ∀ k, (readings k).Normal)
include hreadings

theorem timerAt_ok : ∀ k, (timerAt readings k).Ok
  | 0 => ⟨⟨le_rfl, Nat.succ_pos 999999⟩, ⟨le_rfl, Nat.succ_pos 999999⟩⟩
  | k + 1 => (adjustMonotonicTime_spec (timerAt_ok k) (hreadings k)).1

/-- Whatever the raw clock does, the times are normal, and each is later than the one before by what
the raw clock has advanced. -/
theorem adjustMonotonicTime_ratchet (k : Nat) : (clockAt readings k).Normal ∧
    (clockAt readings (k + 1)).micros - (clockAt readings k).micros =
      max 0 ((readings (k + 1)).micros - (readings k).micros) := by
  obtain ⟨hok, hlast, -, hsum⟩ :=
    adjustMonotonicTime_spec (timerAt_ok hreadings k) (hreadings k)
  obtain ⟨-, -, hmax, -⟩ :=
    adjustMonotonicTime_spec (timerAt_ok hreadings (k + 1)) (hreadings (k + 1))
  change (timerAt readings (k + 1)).lastTime = clockAt readings k at hlast
  change (clockAt readings k).micros =
    _ + (timerAt readings (k + 1)).adjustMonotonicClock.micros at hsum
  change (clockAt readings (k + 1)).micros = _ at hmax
  have hnormal : (timerAt readings (k + 1)).lastTime.Normal := hok.last
  rw [hlast] at hmax hnormal
  exact ⟨hnormal, by omega⟩

end

/-- The raw clock goes back by a second and a half and forth again. -/
theorem adjustMonotonicTime_ratchet_back :
    let readings : Nat → Timeval := fun k => if k = 1 then ⟨3, 600000⟩ else ⟨5, 100000⟩
    clockAt readings 1 = ⟨5, 100000⟩ ∧ clockAt readings 2 = ⟨6, 600000⟩ ∧
      (clockAt readings 2).micros - (clockAt readings 1).micros =
        max 0 ((readings 2).micros - (readings 1).micros) := by
  refine ⟨by decide, by decide, (adjustMonotonicTime_ratchet (fun k => ?_) 1).2⟩
  split <;> exact ⟨by decide, by decide⟩

/-! ### `evutil_weakrand_range_` -/

theorem toNat_evutilWeakrand (seed : UInt32) :
    (evutilWeakrand seed).toNat = (seed.toNat * 1103515245 + 12345) % 2 ^ 31 := by
  have hmask : (0x7fffffff : UInt32).toNat = 2 ^ 31 - 1 := rfl
  have hmul : (1103515245 : UInt32).toNat = 1103515245 := rfl
  have hadd : (12345 : UInt32).toNat = 12345 := rfl
  rw [evutilWeakrand, UInt32.toNat_and, hmask, Nat.and_two_pow_sub_one_eq_mod, UInt32.toNat_add,
    UInt32.toNat_mul, hmul, hadd]
  omega

/-- The steps of the generator, without the reduction. -/
theorem iterate_evutilWeakrand (seed : UInt32) (n : Nat) : ((evutilWeakrand^[n] seed).toNat : Int) ≡
      (fun x => 1103515245 * x + 12345)^[n] seed.toNat [ZMOD 2 ^ 31] := by
  induction n with
  | zero => exact Int.ModEq.refl _
  | succ n ih =>
    rw [Function.iterate_succ_apply', Function.iterate_succ_apply', toNat_evutilWeakrand]
    push_cast
    refine (Int.mod_modEq _ _).trans ?_
    rw [mul_comm]
    exact (ih.mul_left _).add_right _

/-- The generator comes to 0. -/
theorem exists_iterate_evutilWeakrand (seed : UInt32) : ∃ n, evutilWeakrand^[n + 1] seed = 0 := by
  obtain ⟨n, hn⟩ := Lib.exists_iterate_dvd (a := 1103515245) (c := 12345) (by decide) (by decide)
    (evutilWeakrand seed).toNat 31
  have hzero :=
    (iterate_evutilWeakrand (evutilWeakrand seed) n).trans (Int.modEq_zero_iff_dvd.mpr hn)
  have hlt : (evutilWeakrand^[n + 1] seed).toNat < 2 ^ 31 := by
    rw [Function.iterate_succ_apply', toNat_evutilWeakrand]
    exact Nat.mod_lt _ (by decide)
  rw [← Function.iterate_succ_apply, Int.modEq_zero_iff_dvd] at hzero
  exact ⟨n, UInt32.toNat_inj.mp (Nat.eq_zero_of_dvd_of_lt (by exact_mod_cast hzero) hlt)⟩

/-- The loop ends at 0 at the latest. -/
theorem weakrandRangeLoop_spec {divisor top : Int} (hdivisor : 0 ≤ divisor) (htop : 0 < top)
    (n : Nat) :
    ∀ seed, evutilWeakrand^[n + 1] seed = 0 → ∀ fuel > n, ∃ result seed',
      weakrandRangeLoop divisor top fuel seed = .ok (result, seed') ∧ 0 ≤ result ∧
      result < top := by
  induction n with
  | zero =>
    intro seed hseed fuel hfuel
    obtain ⟨fuel, rfl⟩ := Nat.exists_eq_succ_of_ne_zero hfuel.ne'
    rw [zero_add, Function.iterate_one] at hseed
    refine ⟨0, 0, ?_, le_rfl, htop⟩
    rw [weakrandRangeLoop, hseed]
    simp [htop]
  | succ n ih =>
    intro seed hseed fuel hfuel
    obtain ⟨fuel, rfl⟩ := Nat.exists_eq_succ_of_ne_zero (Nat.ne_zero_of_lt hfuel)
    rw [Function.iterate_succ_apply] at hseed
    rw [weakrandRangeLoop]
    split
    · exact ih (evutilWeakrand seed) hseed fuel (Nat.lt_of_succ_lt_succ hfuel)
    · next hlt =>
      exact ⟨_, _, rfl, Int.tdiv_nonneg (Int.natCast_nonneg _) hdivisor, not_le.mp hlt⟩

/-- From every seed `evutil_weakrand_range_` divides by a positive number, and after finitely many
steps of the generator it returns a number below `top`. -/
theorem evutilWeakrandRange_total (seed : UInt32) {top : Int} (htop : 1 ≤ top)
    (hmax : top ≤ 2 ^ 31 - 1) : 0 < EVUTIL_WEAKRAND_MAX.tdiv top ∧
      ∃ steps, ∀ fuel > steps, ∃ result seed',
        evutilWeakrandRange fuel seed top = .ok (result, seed') ∧ 0 ≤ result ∧ result < top := by
  have hdivisor : 0 < EVUTIL_WEAKRAND_MAX.tdiv top := by
    rw [Int.tdiv_eq_ediv_of_nonneg (by decide)]
    exact (Int.le_ediv_iff_mul_le htop).mpr ((one_mul top).trans_le hmax)
  obtain ⟨n, hn⟩ := exists_iterate_evutilWeakrand seed
  exact ⟨hdivisor, n, weakrandRangeLoop_spec hdivisor.le htop n seed hn⟩

/-- The numbers of a die. -/
theorem evutilWeakrandRange_total_six : evutilWeakrandRange 1 1 6 = .ok (3, 1103527590) ∧
    ∃ steps, ∀ fuel > steps, ∃ result seed',
      evutilWeakrandRange fuel 1 6 = .ok (result, seed') ∧ 0 ≤ result ∧ result < 6 :=
  ⟨by decide, (evutilWeakrandRange_total 1 (by decide) (by decide)).2⟩

end Libevent
