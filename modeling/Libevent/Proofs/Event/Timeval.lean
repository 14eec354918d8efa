import Libevent.Event.Timeout
import Mathlib.Data.Prod.Lex

/-!
# `Libevent.Proofs.Event.Timeval`: the order of timevals and the bits of common timeouts

`timeKey` puts timevals in the lexicographic order that `evutil_timercmp` compares. The masks
of common timeouts are divisions and remainders: `usec` is 20 bits of microseconds below the
index and the magic. Two timevals with the same magic bits compare as the masked ones do.
-/

namespace Libevent

/-- The time as a value of a linear order. -/
def timeKey (tv : Timeval) : Int ×ₗ Nat := toLex (tv.tvSec, tv.tvUsec)

theorem evutilTimercmpGt_iff (a b : Timeval) :
    evutilTimercmpGt a b = true ↔ timeKey b < timeKey a := by
  unfold evutilTimercmpGt timeKey
  rw [Prod.Lex.toLex_lt_toLex]
  split <;> simp only [decide_eq_true_eq] <;> omega

theorem evutilTimercmpGe_iff (a b : Timeval) :
    evutilTimercmpGe a b = true ↔ timeKey b ≤ timeKey a := by
  unfold evutilTimercmpGe timeKey
  rw [Prod.Lex.toLex_le_toLex]
  split <;> simp only [decide_eq_true_eq] <;> omega

/-! ### The masks -/

theorem masked_tvUsec (tv : Timeval) : tv.masked.tvUsec = tv.tvUsec % 2 ^ 20 := by
  show tv.tvUsec &&& MICROSECONDS_MASK = _
  exact Nat.and_two_pow_sub_one_eq_mod tv.tvUsec 20

@[simp] theorem masked_tvSec (tv : Timeval) : tv.masked.tvSec = tv.tvSec := rfl

theorem magicBits_eq (usec : Nat) : magicBits usec = usec / 2 ^ 20 * 2 ^ 20 := by
  unfold magicBits COMMON_TIMEOUT_IDX_SHIFT
  rw [Nat.shiftLeft_eq, Nat.shiftRight_eq_div_pow]

/-- A mask that starts at bit `k`. -/
theorem and_shiftLeft_mask (u m k : Nat) : u &&& m <<< k = ((u >>> k) &&& m) <<< k := by
  apply Nat.eq_of_testBit_eq
  intro i
  by_cases h : k ≤ i
  · simp [h]
  · simp [h]

theorem commonTimeoutIdx_eq (tv : Timeval) : commonTimeoutIdx tv = tv.tvUsec / 2 ^ 20 % 2 ^ 8 := by
  have hmask : COMMON_TIMEOUT_IDX_MASK = (2 ^ 8 - 1) <<< 20 := rfl
  unfold commonTimeoutIdx COMMON_TIMEOUT_IDX_SHIFT
  rw [hmask, and_shiftLeft_mask, Nat.shiftLeft_shiftRight, Nat.and_two_pow_sub_one_eq_mod,
    Nat.shiftRight_eq_div_pow]

theorem isCommonTimeout_iff (tv : Timeval) (n : Nat) : isCommonTimeout tv n = true ↔
      tv.tvUsec / 2 ^ 28 % 2 ^ 4 = 5 ∧ tv.tvUsec / 2 ^ 20 % 2 ^ 8 < n := by
  have hmask : COMMON_TIMEOUT_MASK = (2 ^ 4 - 1) <<< 28 := rfl
  have hmagic : COMMON_TIMEOUT_MAGIC = 5 <<< 28 := rfl
  have hinj : (tv.tvUsec / 2 ^ 28 % 2 ^ 4) <<< 28 = 5 <<< 28 ↔ tv.tvUsec / 2 ^ 28 % 2 ^ 4 = 5 := by
    omega
  unfold isCommonTimeout
  rw [commonTimeoutIdx_eq, hmask, hmagic, and_shiftLeft_mask, Nat.and_two_pow_sub_one_eq_mod,
    Nat.shiftRight_eq_div_pow]
  by_cases h : tv.tvUsec / 2 ^ 28 % 2 ^ 4 = 5
  · rw [if_neg (not_not.mpr (hinj.mpr h)), decide_eq_true_iff]
    exact ⟨fun h' => ⟨h, h'⟩, fun h' => h'.2⟩
  · rw [if_pos (fun h' => h (hinj.mp h'))]
    exact ⟨fun h' => (Bool.false_ne_true h').elim, fun h' => absurd h'.1 h⟩

variable {tv : Timeval}

theorem isCommonTimeout_of_lt (h : tv.tvUsec < 2 ^ 28) (n : Nat) :
    isCommonTimeout tv n = false := by
  rw [Bool.eq_false_iff, ne_eq, isCommonTimeout_iff]
  omega

variable {n m : Nat}

/-- More queues do not change what a common timeout is. -/
theorem isCommonTimeout_mono (h : n ≤ m)
    (hc : isCommonTimeout tv n = true) : isCommonTimeout tv m = true := by
  rw [isCommonTimeout_iff] at hc ⊢
  omega

theorem isSameCommonTimeout_iff (a b : Timeval) :
    isSameCommonTimeout a b = true ↔ a.tvUsec / 2 ^ 20 = b.tvUsec / 2 ^ 20 := by
  unfold isSameCommonTimeout
  rw [beq_iff_eq, magicBits_eq, magicBits_eq]
  omega

variable {usec : Nat}

/-- Microseconds below the magic bits. -/
theorem or_magicBits (h : usec < 2 ^ 20) (u : Nat) :
    usec ||| magicBits u = u / 2 ^ 20 * 2 ^ 20 + usec := by
  rw [magicBits_eq, ← Nat.shiftLeft_eq, Nat.shiftLeft_add_eq_or_of_lt h, Nat.lor_comm]

/-- The duration of the list number `n`. -/
theorem or_magic (hu : usec < 2 ^ 20) (hn : n < 2 ^ 8) :
    usec ||| COMMON_TIMEOUT_MAGIC ||| n <<< COMMON_TIMEOUT_IDX_SHIFT =
      5 * 2 ^ 28 + n * 2 ^ 20 + usec := by
  have hmagic : COMMON_TIMEOUT_MAGIC = 5 <<< 8 <<< 20 := rfl
  rw [hmagic, COMMON_TIMEOUT_IDX_SHIFT, Nat.or_assoc, ← Nat.shiftLeft_or_distrib,
    ← Nat.shiftLeft_add_eq_or_of_lt hn, Nat.lor_comm, ← Nat.shiftLeft_add_eq_or_of_lt hu,
    Nat.shiftLeft_eq, Nat.shiftLeft_eq]
  ring

variable {a b : Timeval}

/-- With the same magic bits, two timevals compare as the masked ones. -/
theorem timeKey_masked_le (h : a.tvUsec / 2 ^ 20 = b.tvUsec / 2 ^ 20) :
    timeKey a.masked ≤ timeKey b.masked ↔ timeKey a ≤ timeKey b := by
  unfold timeKey
  rw [Prod.Lex.toLex_le_toLex, Prod.Lex.toLex_le_toLex, masked_tvUsec, masked_tvUsec]
  simp only [masked_tvSec]
  omega

/-! ### The timevals that occur in a base -/

/-- A deadline: normal, or a common timeout of a base with `n` queues. -/
def TvOk (n : Nat) (tv : Timeval) : Prop :=
  tv.tvUsec < 1000000 ∨
    (isCommonTimeout tv n = true ∧ tv.tvUsec % 2 ^ 20 < 1000000 ∧ tv.tvUsec < 2 ^ 32)

/-- A duration: as `TvOk`, but the microseconds may be a whole second. -/
def DurationOk (n : Nat) (tv : Timeval) : Prop :=
  tv.tvUsec ≤ 1000000 ∨
    (isCommonTimeout tv n = true ∧ tv.tvUsec % 2 ^ 20 ≤ 1000000 ∧ tv.tvUsec < 2 ^ 32)

theorem TvOk.mono (h : TvOk n tv) (hnm : n ≤ m) : TvOk m tv :=
  h.imp_right fun ⟨hc, hu⟩ => ⟨isCommonTimeout_mono hnm hc, hu⟩

theorem DurationOk.mono (h : DurationOk n tv) (hnm : n ≤ m) : DurationOk m tv :=
  h.imp_right fun ⟨hc, hu⟩ => ⟨isCommonTimeout_mono hnm hc, hu⟩

/-- What a common timeout is does not depend on queues that come later. -/
theorem TvOk.isCommon_eq (h : TvOk n tv) (hnm : n ≤ m) :
    isCommonTimeout tv m = isCommonTimeout tv n := by
  rcases h with h | ⟨h, -⟩
  · rw [isCommonTimeout_of_lt (by omega), isCommonTimeout_of_lt (by omega)]
  · rw [h, isCommonTimeout_mono hnm h]

/-- Two deadlines in the same queue have the same magic bits. -/
theorem TvOk.same (ha : TvOk n a) (hb : TvOk n b) (hca : isCommonTimeout a n = true)
    (hcb : isCommonTimeout b n = true)
    (hidx : commonTimeoutIdx a = commonTimeoutIdx b) : a.tvUsec / 2 ^ 20 = b.tvUsec / 2 ^ 20 := by
  rw [commonTimeoutIdx_eq, commonTimeoutIdx_eq] at hidx
  rw [isCommonTimeout_iff] at hca hcb
  rcases ha with ha | ⟨-, -, ha⟩ <;> rcases hb with hb | ⟨-, -, hb⟩ <;> omega

/-- A deadline without its magic bits is a normal time. -/
theorem TvOk.masked_lt (h : TvOk n tv) : tv.masked.tvUsec < 1000000 := by
  rw [masked_tvUsec]
  rcases h with h | ⟨-, h, -⟩ <;> omega

/-- A deadline that is no common timeout has no magic bits. -/
theorem TvOk.masked_eq (h : TvOk n tv) (hc : isCommonTimeout tv n = false) : tv.masked = tv := by
  rcases h with h | ⟨h, -⟩
  · have husec : tv.masked.tvUsec = tv.tvUsec := by rw [masked_tvUsec]; omega
    calc tv.masked = ⟨tv.tvSec, tv.masked.tvUsec⟩ := rfl
      _ = tv := by rw [husec]
  · cases h.symm.trans hc

/-- `evutil_timeradd` of a normal time and a duration without magic bits is a normal time. -/
theorem evutilTimeradd_lt (ha : a.tvUsec < 1000000) (hb : b.tvUsec ≤ 1000000) :
    (evutilTimeradd a b).tvUsec < 1000000 := by
  unfold evutilTimeradd
  simp only
  split
  · show a.tvUsec + b.tvUsec - 1000000 < 1000000
    omega
  · show a.tvUsec + b.tvUsec < 1000000
    omega

/-- A normal time with the magic bits of a common timeout is a deadline in the same queue. -/
theorem commonDeadline_spec (sec : Int) (h : usec < 1000000) (hc : isCommonTimeout tv n = true)
    (h32 : tv.tvUsec < 2 ^ 32) :
    let d : Timeval := ⟨sec, usec ||| magicBits tv.tvUsec⟩
    TvOk n d ∧ isCommonTimeout d n = true ∧ commonTimeoutIdx d = commonTimeoutIdx tv ∧
      d.tvUsec / 2 ^ 20 = tv.tvUsec / 2 ^ 20 := by
  have hor : usec ||| magicBits tv.tvUsec = tv.tvUsec / 2 ^ 20 * 2 ^ 20 + usec :=
    or_magicBits (by omega) tv.tvUsec
  rw [isCommonTimeout_iff] at hc
  simp only [hor]
  have hcommon : isCommonTimeout ⟨sec, tv.tvUsec / 2 ^ 20 * 2 ^ 20 + usec⟩ n = true := by
    rw [isCommonTimeout_iff]
    constructor
    · show (tv.tvUsec / 2 ^ 20 * 2 ^ 20 + usec) / 2 ^ 28 % 2 ^ 4 = 5
      omega
    · show (tv.tvUsec / 2 ^ 20 * 2 ^ 20 + usec) / 2 ^ 20 % 2 ^ 8 < n
      omega
  refine ⟨.inr ⟨hcommon, ?_, ?_⟩, hcommon, ?_, ?_⟩
  · show (tv.tvUsec / 2 ^ 20 * 2 ^ 20 + usec) % 2 ^ 20 < 1000000
    omega
  · show tv.tvUsec / 2 ^ 20 * 2 ^ 20 + usec < 2 ^ 32
    omega
  · rw [commonTimeoutIdx_eq, commonTimeoutIdx_eq]
    show (tv.tvUsec / 2 ^ 20 * 2 ^ 20 + usec) / 2 ^ 20 % 2 ^ 8 = _
    omega
  · omega

end Libevent
