import Libevent.Http.Retry
import Libevent.Proofs.Event.Expiry

/-!
# `Libevent.Proofs.Http.Retry`: the retry delay

The loop of `evhttp_connection_cb_cleanup` carries a second out of the microseconds before it
doubles the seconds, so that the second counts twice, and it does not carry when the microseconds
are a second exactly. It cuts the delay at 3600 seconds only when the seconds are above that.

`retryDelay_exact_iff`: the delay is the initial one, doubled for each failure and cut at an hour,
exactly when `NothingCarried`. Below the hour, the microseconds may not reach a second. From the
hour on a carried second does no harm, and the cut is wrong only when the seconds stop at the hour
with microseconds left.
-/

namespace Libevent

/-- Where the doubled time is right, by what the two parts are after `k` doublings. -/
def NothingCarried (tv : Timeval) (k : Nat) : Prop :=
  if tv.micros * 2 ^ k < 3600 * 1000000 then tv.tvUsec * 2 ^ k < 1000000
  else ¬(tv.tvSec * 2 ^ k = 3600 ∧ 0 < tv.tvUsec ∧ tv.tvUsec * 2 ^ k ≤ 1000000)

variable {tv : Timeval}

/-- While the microseconds do not pass a second, both parts double until the seconds are above the
hour. -/
theorem doubleRetry_plain (hsec : tv.tvSec ≤ 3600) (k : Nat) (husec : tv.tvUsec * 2 ^ k ≤ 1000000) :
    doubleRetry^[k] tv = if tv.tvSec * 2 ^ k ≤ 3600 then
      ⟨tv.tvSec * 2 ^ k, tv.tvUsec * 2 ^ k⟩ else ⟨3600, 0⟩ := by
  induction k with
  | zero => simp [hsec]
  | succ k ih =>
    rw [pow_succ, ← mul_assoc] at husec
    rw [Function.iterate_succ_apply', ih (by omega), pow_succ, pow_succ, ← mul_assoc, ← mul_assoc]
    generalize tv.tvSec * 2 ^ k = sec at *
    generalize tv.tvUsec * 2 ^ k = usec at *
    by_cases hhour : sec ≤ 3600
    · rw [if_pos hhour, doubleRetry]
      by_cases hnext : sec * 2 ≤ 3600
      · simp [show ¬ 1000000 < usec * 2 by omega, show ¬ 3600 < sec * 2 by omega]
      · simp [show ¬ 1000000 < usec * 2 by omega, show 3600 < sec * 2 by omega]
    · rw [if_neg hhour, if_neg (by omega)]
      rfl

/-- A round ends with the cut, or it doubles the time, with a second more for a carry. -/
theorem doubleRetry_step {t : Timeval} (husec : t.tvUsec ≤ 1000000) :
    doubleRetry t = ⟨3600, 0⟩ ∨ ((doubleRetry t).tvSec ≤ 3600 ∧ (doubleRetry t).tvUsec ≤ 1000000 ∧
      (doubleRetry t).micros = t.micros * 2 + if 1000000 < t.tvUsec * 2 then 1000000 else 0) := by
  unfold Timeval.micros
  by_cases hcarry : 1000000 < t.tvUsec * 2
  · by_cases hcut : 3600 < (t.tvSec + 1) * 2
    · exact .inl (by simp [doubleRetry, hcarry, hcut])
    refine .inr ?_
    simp only [doubleRetry, hcarry, hcut, if_true, if_false]
    omega
  by_cases hcut : 3600 < t.tvSec * 2
  · exact .inl (by simp [doubleRetry, hcarry, hcut])
  refine .inr ?_
  simp only [doubleRetry, hcarry, hcut, if_false]
  omega

/-- Doubling a time doubles its two parts. -/
theorem micros_doubled (tv : Timeval) (k : Nat) :
    tv.micros * 2 ^ k = (⟨tv.tvSec * 2 ^ k, tv.tvUsec * 2 ^ k⟩ : Timeval).micros := by
  unfold Timeval.micros
  push_cast
  ring

/-- When the seconds are odd, nothing has been doubled yet. -/
theorem usec_of_odd (husec : tv.tvUsec ≤ 999999) (k : Nat) (hodd : tv.tvSec * 2 ^ k % 2 = 1) :
    tv.tvUsec * 2 ^ k ≤ 999999 := by
  cases k with
  | zero => omega
  | succ k =>
    have heven : tv.tvSec * 2 ^ (k + 1) = tv.tvSec * 2 ^ k * 2 := by ring
    omega

/-- Once the microseconds have passed a second, the delay is the cut or a second too long. -/
theorem doubleRetry_late (hsec : tv.tvSec ≤ 3600) (husec : tv.tvUsec ≤ 1000000) (k : Nat)
    (hlate : 1000000 < tv.tvUsec * 2 ^ k) :
    doubleRetry^[k] tv = ⟨3600, 0⟩ ∨ ((doubleRetry^[k] tv).tvSec ≤ 3600 ∧
      (doubleRetry^[k] tv).tvUsec ≤ 1000000 ∧
      tv.micros * 2 ^ k + 1000000 ≤ (doubleRetry^[k] tv).micros) := by
  induction k with
  | zero => omega
  | succ k ih =>
    rw [pow_succ, ← mul_assoc] at hlate
    rw [Function.iterate_succ_apply', pow_succ, ← mul_assoc]
    by_cases hplain : tv.tvUsec * 2 ^ k ≤ 1000000
    · -- this round is the first one that carries
      rw [doubleRetry_plain hsec k hplain, micros_doubled]
      split
      · obtain hcut | ⟨hs, hu, hv⟩ := doubleRetry_step
          (t := ⟨tv.tvSec * 2 ^ k, tv.tvUsec * 2 ^ k⟩) hplain
        · exact .inl hcut
        · rw [if_pos hlate] at hv
          exact .inr ⟨hs, hu, hv.ge⟩
      · exact .inl rfl
    obtain hcut | ⟨hs, hu, hle⟩ := ih (by omega)
    · rw [hcut]
      exact .inl rfl
    obtain hcut | ⟨hs', hu', hv⟩ := doubleRetry_step hu
    · exact .inl hcut
    · exact .inr ⟨hs', hu', by split at hv <;> omega⟩

/-- From the hour on, a second that is carried leads to the cut. -/
theorem doubleRetry_hour (hsec : tv.tvSec ≤ 3600) (husec : tv.tvUsec ≤ 999999) (k : Nat)
    (hlate : 1000000 < tv.tvUsec * 2 ^ k) (hhour : 3600 * 1000000 ≤ tv.micros * 2 ^ k) :
    doubleRetry^[k] tv = ⟨3600, 0⟩ := by
  refine (doubleRetry_late hsec (by omega) k hlate).resolve_right ?_
  rintro ⟨hs, hu, hle⟩
  -- the delay would be 3600 seconds and 1000000 microseconds
  have htop : (doubleRetry^[k] tv).micros ≤ 3601 * 1000000 := by
    unfold Timeval.micros
    omega
  have hhour' : (⟨3600, 0⟩ : Timeval).micros = 3600 * 1000000 := rfl
  cases k with
  | zero => omega
  | succ k =>
    rw [pow_succ, ← mul_assoc] at hlate hhour hle
    rw [Function.iterate_succ_apply'] at hle htop
    by_cases hplain : tv.tvUsec * 2 ^ k ≤ 1000000
    · have hshape := doubleRetry_plain hsec k hplain
      by_cases hbelow : tv.tvSec * 2 ^ k ≤ 3600
      · rw [if_pos hbelow] at hshape
        rw [hshape] at hle htop
        obtain hcut | ⟨-, -, hv⟩ := doubleRetry_step
          (t := ⟨tv.tvSec * 2 ^ k, tv.tvUsec * 2 ^ k⟩) hplain
        · rw [hcut] at hle
          omega
        -- the last round is the first one that carries, out of 1799 seconds and 1000000
        -- microseconds
        have hodd : tv.tvSec * 2 ^ k = 1799 ∧ tv.tvUsec * 2 ^ k = 1000000 := by
          rw [micros_doubled] at hle hhour
          rw [if_pos hlate] at hv
          have hmicros : (⟨tv.tvSec * 2 ^ k, tv.tvUsec * 2 ^ k⟩ : Timeval).micros =
            tv.tvSec * 2 ^ k * 1000000 + (tv.tvUsec * 2 ^ k : Nat) := rfl
          omega
        have := usec_of_odd husec k (by omega)
        omega
      · rw [hshape, if_neg hbelow] at hle
        have hcut : (doubleRetry ⟨3600, 0⟩).micros = 3600 * 1000000 := rfl
        omega
    · obtain hcut | ⟨-, hu', hle'⟩ := doubleRetry_late hsec (by omega) k (by omega)
      · rw [hcut] at hle
        have hcut : (doubleRetry ⟨3600, 0⟩).micros = 3600 * 1000000 := rfl
        omega
      · obtain hcut | ⟨-, -, hv⟩ := doubleRetry_step hu'
        · rw [hcut] at hle
          omega
        · split at hv <;> omega

/-- After `k` failures, the delay of the next try is `min (3600 s) (initial * 2 ^ k)`, with
microseconds below a second, if and only if `NothingCarried`. -/
theorem retryDelay_exact_iff (evcon : ConnectRetry)
    (hretry : evcon.retryMax < 0 ∨ evcon.retryCnt < evcon.retryMax)
    (hsec : 0 ≤ evcon.initialRetryTimeout.tvSec ∧ evcon.initialRetryTimeout.tvSec ≤ 3600)
    (husec : evcon.initialRetryTimeout.tvUsec ≤ 999999) :
    (∃ tv, evhttpConnectionCbCleanup evcon =
        (some tv, { evcon with retryCnt := evcon.retryCnt + 1 }) ∧
      tv.micros = min (3600 * 1000000) (evcon.initialRetryTimeout.micros * 2 ^ evcon.retryCnt) ∧
      tv.tvUsec ≤ 999999) ↔
    NothingCarried evcon.initialRetryTimeout evcon.retryCnt := by
  simp only [evhttpConnectionCbCleanup, if_pos hretry, Prod.mk.injEq, Option.some.injEq, and_true,
    exists_eq_left']
  generalize evcon.initialRetryTimeout = tv at *
  generalize evcon.retryCnt = k at *
  have hmicros : tv.micros * 2 ^ k = tv.tvSec * 2 ^ k * 1000000 + (tv.tvUsec * 2 ^ k : Nat) :=
    micros_doubled tv k
  have hhour : (⟨3600, 0⟩ : Timeval).micros = 3600 * 1000000 := rfl
  unfold NothingCarried
  by_cases hplain : tv.tvUsec * 2 ^ k ≤ 1000000
  · rw [doubleRetry_plain hsec.2 k hplain]
    have hpos : 0 < tv.tvUsec ↔ 0 < tv.tvUsec * 2 ^ k := by simp
    by_cases hbelow : tv.tvSec * 2 ^ k ≤ 3600
    · have hodd := usec_of_odd husec k
      rw [if_pos hbelow, ← micros_doubled]
      dsimp only
      split <;> omega
    · rw [if_neg hbelow, hhour]
      dsimp only
      split <;> omega
  · by_cases hlow : tv.micros * 2 ^ k < 3600 * 1000000
    · rw [if_pos hlow]
      refine iff_of_false ?_ (by omega)
      rintro ⟨hexact, -⟩
      obtain hcut | ⟨-, -, hle⟩ := doubleRetry_late hsec.2 (by omega) k (by omega)
      · rw [hcut] at hexact
        omega
      · omega
    · rw [if_neg hlow, doubleRetry_hour hsec.2 husec k (by omega) (by omega), hhour]
      exact iff_of_true ⟨(min_eq_left (by omega)).symm, by decide⟩ (by omega)

/-- 112.5 seconds, after five failures. -/
theorem retryDelay_exact_hour : ∃ tv, evhttpConnectionCbCleanup
      { retryCnt := 5, retryMax := -1, initialRetryTimeout := ⟨112, 500000⟩ } =
        (some tv, { retryCnt := 6, retryMax := -1, initialRetryTimeout := ⟨112, 500000⟩ }) ∧
      tv.micros = 3600 * 1000000 ∧ tv.tvUsec ≤ 999999 :=
  (retryDelay_exact_iff { retryCnt := 5, retryMax := -1, initialRetryTimeout := ⟨112, 500000⟩ }
    (by decide) (by decide) (by decide)).mpr (by simp [NothingCarried, Timeval.micros])

/-- From 0.6 s to 2.2 s, from 0.5 s to 1000000 microseconds, and an hour and a microsecond. -/
theorem retryDelay_carries : (evhttpConnectionCbCleanup
      { retryCnt := 1, retryMax := -1, initialRetryTimeout := ⟨0, 600000⟩ }).1 = some ⟨2, 200000⟩ ∧
    (evhttpConnectionCbCleanup
      { retryCnt := 1, retryMax := -1, initialRetryTimeout := ⟨0, 500000⟩ }).1 = some ⟨0, 1000000⟩ ∧
    (evhttpConnectionCbCleanup { retryMax := -1, initialRetryTimeout := ⟨3600, 1⟩ }).1 =
      some ⟨3600, 1⟩ := by
  decide

end Libevent
