import Libevent.Proofs.Bufferevent.Conformance

/-!
# `Libevent.Proofs.Bufferevent.Caps`: the configured maxima

Two caps do not hold. `ev_token_bucket_update_` computes the room in a bucket as a difference of
`size_t`, which wraps around when the limit has been raised above the maximum: then the update adds
to it. And `bufferevent_get_rlim_max_` puts the own limit in the place of `max_single_read`, instead
of taking the smaller one, and returns 0 for a limit that is negative.

`limits_capped_iff`: in every state, an update leaves a limit at or below its
maximum exactly when it was there before or the refill overflows, and the allowance keeps to all of
its bounds exactly when the own limit is not negative, and it or the share of the group is not above
`max_single_read`.
-/

namespace Libevent

open Lib

variable {cfg : TokenBucketCfg} {bucket : TokenBucket} {d : Dir}

/-! ### Numbers of their type -/

/-- The limits are numbers of their type, and `ev_token_bucket_cfg_new` accepts the configuration.
-/
structure Typed (cfg : TokenBucketCfg) (bucket : TokenBucket) : Prop where
  cfg : CfgOk cfg
  low : ∀ d, -2 ^ 63 ≤ bucket.limit d
  high : ∀ d, bucket.limit d < 2 ^ 63

theorem CfgOk.maximum_lt (h : CfgOk cfg) (d : Dir) : (cfg.maximum d : Int) < 2 ^ 63 := by
  have hbound := h.bound d
  simp only [EV_RATE_LIMIT_MAX, EV_SSIZE_MAX] at hbound
  omega

/-- The same of the bucket of a bufferevent. -/
def TypedBev (bev : Bufferevent) : Prop :=
  ∀ rlim cfg, bev.rateLimiting = some rlim → rlim.cfg = some cfg → Typed cfg rlim.limit

/-- Every limit of the system is a number of its type. -/
structure TypedSystem (s : BevSystem) : Prop where
  bevs : ∀ b, TypedBev (s.bevs b)
  groups : ∀ g, Typed (s.groups g).rateLimitCfg (s.groups g).rateLimit

/-! ### Updates -/

/-- The tokens that are due at a tick. -/
def TokenBucket.due (bucket : TokenBucket) (cfg : TokenBucketCfg) (d : Dir) (tick : Nat) : Int :=
  if bucket.ticks tick ≤ INT_MAX then bucket.ticks tick * cfg.rate d else 0

/-- What becomes of a limit when tokens are added. Up to the maximum, they fill the bucket up; above
it, they are added without a bound, until the sum overflows. -/
def filledUp (limit maximum added : Int) : Int :=
  if limit ≤ maximum then min maximum (limit + added)
  else if limit + added < 2 ^ 63 then limit + added
  else if limit + added ≤ 2 ^ 64 + maximum then limit + added - 2 ^ 64
  else maximum

/-- A refill of a bucket that is above its maximum. -/
theorem refillLimit_above {n : Nat} {limit : Int} (hcfg : CfgOk cfg) (hn : n ≠ 0)
    (hhigh : limit < 2 ^ 63) (habove : cfg.maximum d < limit) :
    refillLimit cfg d n limit = filledUp limit (cfg.maximum d) (n * cfg.rate d) := by
  have hmax := hcfg.maximum_lt d
  -- the difference of `size_t` wraps around
  have hsize : sizeOfInt (cfg.maximum d - limit) = (2 ^ 64 + cfg.maximum d - limit).toNat := by
    unfold sizeOfInt
    rw [← Int.add_emod_left, ← add_sub_assoc, Int.emod_eq_of_lt (by omega) (by omega)]
  have hprod : ((cfg.rate d * n : Nat) : Int) = n * cfg.rate d := by
    rw [Nat.cast_mul, mul_comm]
  have hdiv : (2 ^ 64 + cfg.maximum d - limit).toNat / n < cfg.rate d ↔
      (2 ^ 64 + cfg.maximum d - limit).toNat < cfg.rate d * n :=
    Nat.div_lt_iff_lt_mul (Nat.pos_of_ne_zero hn)
  unfold refillLimit filledUp
  rw [hsize, if_neg (not_le.mpr habove)]
  by_cases hfull : (2 ^ 64 + cfg.maximum d - limit).toNat < cfg.rate d * n
  · rw [if_pos (hdiv.mpr hfull), if_neg (by omega), if_neg (by omega)]
  rw [if_neg (mt hdiv.mp hfull)]
  split
  · exact Int.bmod_eq_of_le (by omega) (by omega)
  rw [if_pos (by omega)]
  unfold ssizeOf
  rw [← Int.sub_bmod_right, Int.bmod_eq_of_le (by omega) (by omega)]
  rfl

/-- An update, for every bucket. -/
theorem Typed.update_eq (h : Typed cfg bucket) (tick : Nat) (d : Dir) :
    (evTokenBucketUpdate bucket cfg tick).limit d =
      filledUp (bucket.limit d) (cfg.maximum d) (bucket.due cfg d tick) := by
  have hhigh := h.high d
  rcases evTokenBucketUpdate_cases bucket cfg tick with ⟨hkeep, heq⟩ | ⟨hn, hmax, heq⟩
  · have hdue : bucket.due cfg d tick = 0 := by
      unfold TokenBucket.due
      rcases hkeep with hzero | hbig
      · simp [hzero]
      · rw [if_neg (by omega)]
    rw [heq, hdue, filledUp]
    split
    · omega
    · rw [if_pos (by omega)]
      omega
  · rw [heq, TokenBucket.due, if_pos hmax]
    by_cases hle : bucket.limit d ≤ cfg.maximum d
    · rw [filledUp, if_pos hle]
      exact refillLimit_eq_min h.cfg hn (h.low d) hle
    · exact refillLimit_above h.cfg hn hhigh (not_le.mp hle)

/-- The condition of an update that keeps to the maximum. -/
def Refillable (bucket : TokenBucket) (cfg : TokenBucketCfg) (d : Dir) (tick : Nat) : Prop :=
  bucket.limit d ≤ cfg.maximum d ∨ 2 ^ 63 ≤ bucket.limit d + bucket.due cfg d tick

theorem Typed.update_le_iff (h : Typed cfg bucket) (tick : Nat) (d : Dir) :
    (evTokenBucketUpdate bucket cfg tick).limit d ≤ cfg.maximum d ↔
      Refillable bucket cfg d tick := by
  have hmax := h.cfg.maximum_lt d
  have hhigh := h.high d
  have hdue : 0 ≤ bucket.due cfg d tick := by
    unfold TokenBucket.due
    split
    · positivity
    · exact le_rfl
  rw [h.update_eq, filledUp, Refillable]
  split
  · omega
  split
  · omega
  · split <;> omega

/-! ### The allowance -/

/-- The share of one member. -/
def RateGroup.share (grp : RateGroup) (d : Dir) : Int :=
  if grp.suspended d then 0
  else max ((grp.rateLimit.limit d).tdiv grp.members.length) grp.minShare

/-- The bounds of an allowance `m`: `max_single_read`, the own limit, and the share in the group.
`bev'` is the bufferevent when the function returns, with the limit that it has then. -/
structure AllowanceCapped (d : Dir) (group : GroupId → RateGroup) (bev bev' : Bufferevent)
    (m : Int) : Prop where
  single : m ≤ bev.maxSingle d
  own : ∀ rlim, bev'.rateLimiting = some rlim → rlim.cfg.isSome = true → m ≤ rlim.limit.limit d
  share : ∀ rlim g, bev.rateLimiting = some rlim → rlim.group = some g → m ≤ (group g).share d

/-- The own limit, with the tokens that are due, is not negative, and it or the share in the group
is not above `max_single_read`. -/
def OwnLimitFits (d : Dir) (now : Nat) (group : GroupId → RateGroup) (bev : Bufferevent) : Prop :=
  ∀ rlim cfg, bev.rateLimiting = some rlim → rlim.cfg = some cfg →
    let own := filledUp (rlim.limit.limit d) (cfg.maximum d)
      (rlim.limit.due cfg d (now / cfg.msecPerTick % 2 ^ 32))
    0 ≤ own ∧ (own ≤ bev.maxSingle d ∨
      ∃ g, rlim.group = some g ∧ (group g).share d ≤ bev.maxSingle d)

/-- The share in the group is not negative. -/
def ShareFits (d : Dir) (group : GroupId → RateGroup) (bev : Bufferevent) : Prop :=
  ∀ rlim g, bev.rateLimiting = some rlim → rlim.group = some g → 0 ≤ (group g).share d

section
variable {bev : Bufferevent} {rlim : RateLimit} {group : GroupId → RateGroup}

theorem clampToShare_eq (d : Dir) (group : GroupId → RateGroup) (rlim : RateLimit) (m : Int)
    (bev : Bufferevent) : (clampToShare d group rlim m bev).1 =
      rlim.group.elim m fun g => min m ((group g).share d) := by
  cases hg : rlim.group with
  | none => simp [clampToShare, hg]
  | some g =>
    simp only [clampToShare, hg, RateGroup.share, Option.elim]
    split <;> rfl

/-- The allowance of a bufferevent that has an own limit, or none. `rlim'` is the rate limit when
the function returns. -/
theorem allowanceCapped_iff {base : Bufferevent} {rlim' : RateLimit} {m : Int}
    (hr : bev.rateLimiting = some rlim) (hbase : base.rateLimiting = some rlim')
    (hm : m = if rlim'.cfg.isSome then rlim'.limit.limit d else bev.maxSingle d) :
    AllowanceCapped d group bev (clampToShare d group rlim m base).2
        (max (clampToShare d group rlim m base).1 0) ↔
      (rlim'.cfg.isSome = true → 0 ≤ m ∧ (m ≤ bev.maxSingle d ∨
        ∃ g, rlim.group = some g ∧ (group g).share d ≤ bev.maxSingle d)) ∧
      ShareFits d group bev := by
  have hrate := (clampToShare_le d group rlim m base).2.trans hbase
  rw [clampToShare_eq]
  constructor
  · rintro ⟨hsingle, hown, hshare⟩
    refine ⟨fun hcfg => ?_, fun r g hr' hg => (le_max_right _ _).trans (hshare r g hr' hg)⟩
    have hlimit := hown rlim' hrate hcfg
    rw [if_pos hcfg] at hm
    rw [← hm] at hlimit
    refine ⟨(le_max_right _ _).trans hlimit, ?_⟩
    cases hg : rlim.group with
    | none =>
      simp only [hg, Option.elim] at hsingle
      exact .inl ((le_max_left _ _).trans hsingle)
    | some g =>
      simp only [hg, Option.elim] at hsingle
      rcases min_le_iff.mp ((le_max_left _ _).trans hsingle) with h | h
      · exact .inl h
      · exact .inr ⟨g, rfl, h⟩
  · rintro ⟨hfits, hshare⟩
    have hclamp : rlim.group.elim m (fun g => min m ((group g).share d)) ≤ m := by
      cases rlim.group with
      | none => exact le_rfl
      | some g => exact min_le_left _ _
    refine ⟨max_le ?_ (Int.natCast_nonneg _), fun r hr' hcfg => ?_, fun r g hr' hg => ?_⟩
    · by_cases hcfg : rlim'.cfg.isSome = true
      · rcases (hfits hcfg).2 with h | ⟨g, hg, h⟩
        · exact hclamp.trans h
        · simp only [hg, Option.elim]
          exact (min_le_right _ _).trans h
      · rw [if_neg hcfg] at hm
        exact hclamp.trans hm.le
    · cases hrate.symm.trans hr'
      rw [if_pos hcfg] at hm
      rw [← hm]
      exact max_le hclamp (hfits hcfg).1
    · cases hr.symm.trans hr'
      refine max_le ?_ (hshare rlim g hr hg)
      simp only [hg, Option.elim]
      exact min_le_right _ _

/-- The bounds of the allowance. -/
theorem getRlimMax_capped_iff (htyped : TypedBev bev) (d : Dir) (now : Nat)
    (group : GroupId → RateGroup) :
    Partly (buffereventGetRlimMax d now group bev) fun r =>
      AllowanceCapped d group bev r.2 r.1 ↔
        OwnLimitFits d now group bev ∧ ShareFits d group bev := by
  unfold buffereventGetRlimMax OwnLimitFits
  cases hr : bev.rateLimiting with
  | none =>
    have hshare : ShareFits d group bev := by simp [ShareFits, hr]
    exact iff_of_true ⟨le_rfl, by simp [hr], by simp [hr]⟩ ⟨nofun, hshare⟩
  | some rlim =>
    cases hcfg : rlim.cfg with
    | none =>
      have hm : (bev.maxSingle d : Int) =
          if rlim.cfg.isSome then rlim.limit.limit d else bev.maxSingle d := by simp [hcfg]
      simp only [ownMax, hcfg, Except.map]
      refine (allowanceCapped_iff hr hr hm).trans (and_congr_left fun _ => iff_of_true ?_ ?_)
      · simp [hcfg]
      · rintro r cfg ⟨⟩ hsome
        cases hcfg.symm.trans hsome
    | some cfg =>
      refine Yields.map ((Metered.ownMax hcfg bev d now).mono ?_)
      rintro ⟨m, base⟩ ⟨tick, bucket, htick, hupdate, ⟨rlim', hbase, hcfg', hbucket⟩, hm⟩
      have hm' : m = if rlim'.cfg.isSome then rlim'.limit.limit d else bev.maxSingle d := by
        rw [hcfg', hbucket]
        exact hm
      have hown : bucket.limit d = filledUp (rlim.limit.limit d) (cfg.maximum d)
          (rlim.limit.due cfg d (now / cfg.msecPerTick % 2 ^ 32)) := by
        rw [hupdate, (htyped rlim cfg hr hcfg).update_eq, evTokenBucketGetTick_ok htick]
      refine (allowanceCapped_iff hr hbase hm').trans (and_congr_left fun _ => ?_)
      constructor
      · rintro h r c ⟨⟩ hc
        cases hcfg.symm.trans hc
        simp only [← hown, ← hm]
        exact h (by simp [hcfg'])
      · intro h _
        have hfits := h rlim cfg rfl hcfg
        simp only [← hown, ← hm] at hfits
        exact hfits

end

/-- The caps, in every state of a system of bufferevents and groups, whatever calls have led to it.
The buckets of bufferevents and of groups: an update leaves a limit at or below the maximum exactly
when it was not above it, or the sum of the limit and of the tokens that are due overflows. The
allowance: it is at most `max_single_read`, the own limit and the share exactly when the own limit
and the share are not negative, and one of them is not above `max_single_read`. -/
theorem limits_capped_iff {s : BevSystem} (htyped : TypedSystem s) :
    (∀ b rlim cfg, (s.bevs b).rateLimiting = some rlim → rlim.cfg = some cfg → ∀ tick d,
      ((evTokenBucketUpdate rlim.limit cfg tick).limit d ≤ cfg.maximum d ↔
        Refillable rlim.limit cfg d tick)) ∧
    (∀ g tick d,
      (evTokenBucketUpdate (s.groups g).rateLimit (s.groups g).rateLimitCfg tick).limit d ≤
          (s.groups g).rateLimitCfg.maximum d ↔
        Refillable (s.groups g).rateLimit (s.groups g).rateLimitCfg d tick) ∧
    ∀ b d m bev, buffereventGetRlimMax d s.now s.groups (s.bevs b) = .ok (m, bev) →
      (AllowanceCapped d s.groups (s.bevs b) bev m ↔
        OwnLimitFits d s.now s.groups (s.bevs b) ∧ ShareFits d s.groups (s.bevs b)) := by
  refine ⟨fun b rlim cfg hr hcfg => (htyped.bevs b rlim cfg hr hcfg).update_le_iff,
    fun g => (htyped.groups g).update_le_iff, fun b d m bev hmax => ?_⟩
  exact (getRlimMax_capped_iff (htyped.bevs b) d s.now s.groups).of_ok hmax

/-- Bufferevents that have read more than they may, in a group, two ticks later. -/
def chargedSystem : BevSystem where
  now := 29
  bevs _ := { rateLimiting := some ⟨some twoPerTick, ⟨fun _ => -2, 0⟩, false, some 0⟩ }
  groups _ :=
    { rateLimitCfg := twoPerTick
      rateLimit := { limit := fun _ => -1 }
      minShare := 2
      configuredMinShare := 64
      members := [0] }

/-- There, the bounds are kept. -/
theorem limits_capped_charged :
    (∃ rlim, (chargedSystem.bevs 0).rateLimiting = some rlim ∧
      (evTokenBucketUpdate rlim.limit twoPerTick 2).limit .read ≤ 3) ∧
    (evTokenBucketUpdate (chargedSystem.groups 0).rateLimit twoPerTick 2).limit .read ≤ 3 ∧
    ∃ m bev, buffereventGetRlimMax .read 29 chargedSystem.groups (chargedSystem.bevs 0) =
        .ok (m, bev) ∧ AllowanceCapped .read chargedSystem.groups (chargedSystem.bevs 0) bev m := by
  have hok : CfgOk twoPerTick :=
    cfgOk_of_new
      (show evTokenBucketCfgNew 1 (fun _ => 2) (fun _ => 3) 10 = some twoPerTick from rfl)
  have htyped : TypedSystem chargedSystem := by
    refine ⟨fun b rlim cfg hr hcfg => ?_, fun g => ?_⟩
    · cases hr
      cases hcfg
      exact ⟨hok, fun _ => show (-2 ^ 63 : Int) ≤ -2 by decide,
        fun _ => show (-2 : Int) < 2 ^ 63 by decide⟩
    · exact ⟨hok, fun _ => show (-2 ^ 63 : Int) ≤ -1 by decide,
        fun _ => show (-1 : Int) < 2 ^ 63 by decide⟩
  obtain ⟨hbev, hgroup, hmax⟩ := limits_capped_iff htyped
  refine ⟨⟨_, rfl, ?_⟩, ?_, _, _, rfl, ?_⟩
  · exact (hbev 0 _ _ rfl rfl 2 .read).mpr (.inl (by decide))
  · exact (hgroup 0 2 .read).mpr (.inl (by decide))
  · refine (hmax 0 .read _ _ rfl).mpr ⟨?_, ?_⟩
    · rintro rlim cfg ⟨⟩ ⟨⟩
      exact ⟨by decide, .inl (by decide)⟩
    · rintro rlim g ⟨⟩ ⟨⟩
      decide

/-- A limit that was raised to 6 is 7 after the next tick, with a maximum of 1, in either direction;
with a limit of 20000, 20000 bytes may be read at once, although `max_single_read` is 16384; and a
limit of -1 allows 0 bytes. -/
theorem caps_exceeded :
    (∃ bev bev' bev'', buffereventSetRateLimit 0 {} (some slowCfg) = .ok (0, bev) ∧
      buffereventDecrementReadLimit bev (-5) = .ok (0, bev') ∧
      buffereventGetLimit .read 1 bev' = .ok (7, bev'')) ∧
    (∃ bev bev' bev'', buffereventSetRateLimit 0 {} (some slowCfg) = .ok (0, bev) ∧
      buffereventDecrementWriteLimit bev (-5) = .ok (0, bev') ∧
      buffereventGetLimit .write 1 bev' = .ok (7, bev'')) ∧
    (∃ bev, buffereventGetReadMax 0 chargedSystem.groups
        { rateLimiting := some ⟨some { slowCfg with maximum := fun _ => 20000 },
          ⟨fun _ => 20000, 0⟩, false, none⟩ } = .ok (20000, bev) ∧ bev.maxSingle .read = 16384) ∧
    ∃ bev, buffereventGetReadMax 0 chargedSystem.groups
      { rateLimiting := some ⟨some slowCfg, ⟨fun _ => -1, 0⟩, false, none⟩ } = .ok (0, bev) :=
  ⟨⟨_, _, _, rfl, rfl, rfl⟩, ⟨_, _, _, rfl, rfl, rfl⟩, ⟨_, rfl, rfl⟩, _, rfl⟩

end Libevent
