import Libevent.Proofs.Bufferevent.Core

/-!
# `Libevent.Proofs.Bufferevent.RateLimit`: what the functions of rate limiting do

The functions of `Libevent.Bufferevent.RateLimit`, by what they do to a bufferevent: they give it
another limit, and then a direction is exhausted (`Bufferevent.exhaust`), or it goes on
(`Bufferevent.resume`), or nothing else happens. `evTokenBucketUpdate_exact` gives the limits after
a refill.
-/

namespace Libevent

open Lib Function

variable {bev : Bufferevent} {rlim : RateLimit} {cfg : TokenBucketCfg} {d : Dir} {tick now : Nat}

/-- The bucket with another limit in one direction. -/
def TokenBucket.withLimit (bucket : TokenBucket) (d : Dir) (left : Int) : TokenBucket :=
  { bucket with limit := update bucket.limit d left }

theorem TokenBucket.withLimit_of_ne {x : Dir} (hx : x ≠ d) (bucket : TokenBucket) (left : Int) :
    (bucket.withLimit d left).limit x = bucket.limit x := by
  show update bucket.limit d left x = bucket.limit x
  rw [update_of_ne hx]

@[simp] theorem TokenBucket.withLimit_self (bucket : TokenBucket) (d : Dir) (left : Int) :
    (bucket.withLimit d left).limit d = left := by
  show update bucket.limit d left d = left
  rw [update_self]

/-- The bufferevent with another bucket. -/
def Bufferevent.withBucket (bev : Bufferevent) (rlim : RateLimit) (bucket : TokenBucket) :
    Bufferevent :=
  { bev with rateLimiting := some { rlim with limit := bucket } }

/-- The bufferevent with another limit. -/
def Bufferevent.withLimit (bev : Bufferevent) (rlim : RateLimit) (d : Dir) (left : Int) :
    Bufferevent :=
  bev.withBucket rlim (rlim.limit.withLimit d left)

/-- The direction is suspended until the next refill. -/
def Bufferevent.exhaust (d : Dir) (bev : Bufferevent) : Bufferevent :=
  (buffereventSuspend d bev {.bw}).addRefill.2

/-- The direction goes on, without waiting for a refill. -/
def Bufferevent.resume (d : Dir) (bev : Bufferevent) : Bufferevent :=
  buffereventUnsuspend d
    (if SuspendReason.bw ∈ bev.suspended d.other then bev else bev.delRefill) {.bw}

/-- The limit of one direction is `left` now. -/
inductive Spent (bev : Bufferevent) (rlim : RateLimit) (d : Dir) (left : Int) : Bufferevent → Prop
  | exhaust : Spent bev rlim d left ((bev.withLimit rlim d left).exhaust d)
  | resume (hleft : 0 < left) : Spent bev rlim d left ((bev.withLimit rlim d left).resume d)
  | keep (hleft : left ≤ 0 → rlim.limit.limit d ≤ 0) :
      Spent bev rlim d left (bev.withLimit rlim d left)

/-- Without a configuration, nothing is charged. -/
theorem buffereventDecrementBuckets_cases (d : Dir) (bev : Bufferevent) (bytes : Int) :
    (bev.rateLimiting.bind RateLimit.cfg = none ∧
      (buffereventDecrementBuckets d bev bytes).2 = bev) ∨
    ∃ rlim cfg, bev.rateLimiting = some rlim ∧ rlim.cfg = some cfg ∧
      Spent bev rlim d (ssizeOf (rlim.limit.limit d - bytes))
        (buffereventDecrementBuckets d bev bytes).2 := by
  cases hr : bev.rateLimiting with
  | none => simp [buffereventDecrementBuckets, hr]
  | some rlim =>
    obtain ⟨cfg, limit, refillPending, group⟩ := rlim
    simp only [buffereventDecrementBuckets, hr]
    cases cfg with
    | none => exact .inl ⟨rfl, rfl⟩
    | some cfg =>
      refine .inr ⟨_, cfg, rfl, rfl, ?_⟩
      dsimp only
      split
      · exact .exhaust
      next hleft =>
      split
      · exact .resume (not_le.mp hleft)
      · exact .keep fun hle => absurd hle hleft

/-- A limit can only be decremented where there is one. -/
theorem buffereventDecrementLimit_cases (d : Dir) (bev : Bufferevent) (decr : Int) :
    Partly (buffereventDecrementLimit d bev decr) fun r =>
      ∃ rlim cfg, bev.rateLimiting = some rlim ∧ rlim.cfg = some cfg ∧
        Spent bev rlim d (ssizeOf (rlim.limit.limit d - decr)) r.2 := by
  cases hr : bev.rateLimiting with
  | none =>
    simp only [buffereventDecrementLimit, hr]
    exact trivial
  | some rlim =>
    obtain ⟨cfg, limit, refillPending, group⟩ := rlim
    simp only [buffereventDecrementLimit, hr]
    cases cfg with
    | none => exact trivial
    | some cfg =>
      dsimp only
      split
      · exact ⟨_, cfg, rfl, rfl, .exhaust⟩
      next hstill =>
      split
      · next hleft => exact ⟨_, cfg, rfl, rfl, .resume hleft.2⟩
      · exact ⟨_, cfg, rfl, rfl, .keep fun hle => not_lt.mp fun hpos => hstill ⟨hpos, hle⟩⟩

/-- An update leaves the bucket alone, or adds the ticks since the last one. -/
theorem evTokenBucketUpdate_cases (bucket : TokenBucket) (cfg : TokenBucketCfg) (tick : Nat) :
    ((bucket.ticks tick = 0 ∨ INT_MAX < bucket.ticks tick) ∧
      evTokenBucketUpdate bucket cfg tick = bucket) ∨
    (bucket.ticks tick ≠ 0 ∧ bucket.ticks tick ≤ INT_MAX ∧ evTokenBucketUpdate bucket cfg tick =
        { limit := fun d => refillLimit cfg d (bucket.ticks tick) (bucket.limit d)
          lastUpdated := tick }) := by
  by_cases hkeep : bucket.ticks tick = 0 ∨ bucket.ticks tick > INT_MAX
  · exact .inl ⟨hkeep, if_pos hkeep⟩
  · have hticks := not_or.mp hkeep
    exact .inr ⟨hticks.1, not_lt.mp hticks.2, if_neg hkeep⟩

/-- An update in the tick of the last one changes nothing. -/
theorem evTokenBucketUpdate_self (bucket : TokenBucket) (cfg : TokenBucketCfg) :
    evTokenBucketUpdate bucket cfg bucket.lastUpdated = bucket := by
  have hzero : bucket.ticks bucket.lastUpdated = 0 := by
    rw [TokenBucket.ticks, Nat.add_sub_cancel_left, Nat.mod_self]
  unfold evTokenBucketUpdate
  rw [hzero, if_pos (.inl rfl)]

/-- What `ev_token_bucket_cfg_new` accepts. -/
structure CfgOk (cfg : TokenBucketCfg) : Prop where
  rate : ∀ d, 1 ≤ cfg.rate d
  burst : ∀ d, cfg.rate d ≤ cfg.maximum d
  bound : ∀ d, cfg.maximum d ≤ EV_RATE_LIMIT_MAX

theorem cfgOk_of_new {addr msec : Nat} {rate burst : Dir → Nat} {cfg : TokenBucketCfg}
    (h : evTokenBucketCfgNew addr rate burst msec = some cfg) : CfgOk cfg := by
  unfold evTokenBucketCfgNew at h
  split at h
  · cases h
  next hrate =>
  split at h
  · cases h
  next hmax =>
  cases h
  refine ⟨fun d => ?_, fun d => ?_, fun d => ?_⟩ <;> cases d <;> dsimp only <;> omega

/-- A refill is exact: nothing wraps around when the limit is not above the maximum. -/
theorem refillLimit_eq_min {nTicks : Nat} {limit : Int} (hcfg : CfgOk cfg) (hn : nTicks ≠ 0)
    (hlow : -2 ^ 63 ≤ limit) (hle : limit ≤ cfg.maximum d) :
    refillLimit cfg d nTicks limit = min (cfg.maximum d : Int) (limit + nTicks * cfg.rate d) := by
  have hbound := hcfg.bound d
  simp only [EV_RATE_LIMIT_MAX, EV_SSIZE_MAX] at hbound
  -- the difference of `size_t` is the one of the integers
  have hsize : sizeOfInt (cfg.maximum d - limit) = (cfg.maximum d - limit).toNat := by
    unfold sizeOfInt
    rw [Int.emod_eq_of_lt (by omega) (by omega)]
  have hprod : ((cfg.rate d * nTicks : Nat) : Int) = nTicks * cfg.rate d := by
    rw [Nat.cast_mul, mul_comm]
  have hdiv : (cfg.maximum d - limit).toNat / nTicks < cfg.rate d ↔
      (cfg.maximum d - limit).toNat < cfg.rate d * nTicks :=
    Nat.div_lt_iff_lt_mul (Nat.pos_of_ne_zero hn)
  unfold refillLimit
  rw [hsize]
  split
  · next hfull =>
    rw [min_eq_left (by omega)]
  next hroom =>
  have hmul := mt hdiv.mpr hroom
  -- the sum is at most the maximum, so that it is an `ev_ssize_t`
  have hsame : ssizeOf (limit + nTicks * cfg.rate d) = limit + nTicks * cfg.rate d :=
    Int.bmod_eq_of_le (by omega) (by omega)
  rw [hsame, min_eq_right (by omega)]

/-- The limits and the tick of the last update are numbers of their types, and the limits are not
above the maximum. -/
structure TokenBucket.Fits (bucket : TokenBucket) (cfg : TokenBucketCfg) : Prop where
  low : ∀ d, -2 ^ 63 ≤ bucket.limit d
  full : ∀ d, bucket.limit d ≤ cfg.maximum d
  width : bucket.lastUpdated < 2 ^ 32

variable {bucket : TokenBucket}

theorem TokenBucket.Fits.update_eq (h : bucket.Fits cfg) (hcfg : CfgOk cfg) {n : Nat}
    (hn : bucket.ticks tick = n) (hpos : 0 < n) (hmax : n ≤ INT_MAX) :
    evTokenBucketUpdate bucket cfg tick =
      { limit := fun d => min (cfg.maximum d : Int) (bucket.limit d + n * cfg.rate d)
        lastUpdated := tick } := by
  subst hn
  rcases evTokenBucketUpdate_cases bucket cfg tick with ⟨hkeep, -⟩ | ⟨hne, -, heq⟩
  · omega
  rw [heq]
  congr 1
  funext d
  exact refillLimit_eq_min hcfg hne (h.low d) (h.full d)

theorem TokenBucket.update_eq_self (hn : ¬ (0 < bucket.ticks tick ∧ bucket.ticks tick ≤ INT_MAX)) :
    evTokenBucketUpdate bucket cfg tick = bucket := by
  rcases evTokenBucketUpdate_cases bucket cfg tick with ⟨-, heq⟩ | ⟨hne, hmax, -⟩
  · exact heq
  · exact absurd ⟨Nat.pos_of_ne_zero hne, hmax⟩ hn

/-- The ticks are the difference modulo `2 ^ 32`. -/
theorem TokenBucket.Fits.ticks_eq (h : bucket.Fits cfg) {n : Nat}
    (hn : (n : Int) = (tick - bucket.lastUpdated) % 2 ^ 32) : bucket.ticks tick = n := by
  have hwidth := h.width
  unfold TokenBucket.ticks
  omega

theorem TokenBucket.Fits.update (h : bucket.Fits cfg) (hcfg : CfgOk cfg)
    (htick : tick < 2 ^ 32) : (evTokenBucketUpdate bucket cfg tick).Fits cfg := by
  by_cases hn : 0 < bucket.ticks tick ∧ bucket.ticks tick ≤ INT_MAX
  · rw [h.update_eq hcfg rfl hn.1 hn.2]
    refine ⟨fun d => ?_, fun d => min_le_left _ _, htick⟩
    have hlow := h.low d
    have hprod : (0 : Int) ≤ bucket.ticks tick * cfg.rate d := by positivity
    dsimp only
    omega
  · rw [TokenBucket.update_eq_self hn]
    exact h

/-- `ev_token_bucket_update_` is exact, for every bucket whose limits are not above the maximum and
every configuration that `ev_token_bucket_cfg_new` accepts: when time went on by `n` ticks, the
limits are the smaller ones of the maximum and `limit + n * rate`, and otherwise nothing changes.
Two updates do what the second one does alone. -/
theorem evTokenBucketUpdate_exact {addr msec : Nat} {rate burst : Dir → Nat}
    (hnew : evTokenBucketCfgNew addr rate burst msec = some cfg)
    (hlimit : ∀ d, -2 ^ 63 ≤ bucket.limit d ∧ bucket.limit d ≤ cfg.maximum d)
    (hlast : bucket.lastUpdated < 2 ^ 32) :
    (∀ tick n : Nat, tick < 2 ^ 32 → (n : Int) = (tick - bucket.lastUpdated) % 2 ^ 32 →
      evTokenBucketUpdate bucket cfg tick =
        if 0 < n ∧ n ≤ INT_MAX then
          { limit := fun d => min (cfg.maximum d : Int) (bucket.limit d + n * cfg.rate d)
            lastUpdated := tick }
        else bucket) ∧
    ∀ t₁ t₂ n₁ n₂ : Nat, t₁ < 2 ^ 32 → t₂ < 2 ^ 32 →
      (n₁ : Int) = (t₁ - bucket.lastUpdated) % 2 ^ 32 → (n₂ : Int) = (t₂ - t₁) % 2 ^ 32 →
      n₁ + n₂ ≤ INT_MAX →
      evTokenBucketUpdate (evTokenBucketUpdate bucket cfg t₁) cfg t₂ =
        evTokenBucketUpdate bucket cfg t₂ := by
  have hcfg := cfgOk_of_new hnew
  have h : bucket.Fits cfg := ⟨fun d => (hlimit d).1, fun d => (hlimit d).2, hlast⟩
  constructor
  · intro tick n htick hn
    have hticks := h.ticks_eq hn
    split
    · next hin => exact h.update_eq hcfg hticks hin.1 hin.2
    · next hout => exact TokenBucket.update_eq_self (hticks ▸ hout)
  intro t₁ t₂ n₁ n₂ ht₁ ht₂ hn₁ hn₂ hsum
  have hticks₁ := h.ticks_eq hn₁
  -- the steps add up, because their sum does not wrap around
  have hwidth : INT_MAX < 2 ^ 32 := by decide
  have hticks₂ : bucket.ticks t₂ = n₁ + n₂ := h.ticks_eq (by omega)
  by_cases hzero : n₁ = 0
  · have hsame : evTokenBucketUpdate bucket cfg t₁ = bucket :=
      TokenBucket.update_eq_self (by omega)
    rw [hsame]
  have h₁ := h.update_eq hcfg hticks₁ (by omega) (by omega)
  have hfits := h.update hcfg ht₁
  rw [h.update_eq hcfg hticks₂ (by omega) hsum]
  rw [h₁] at hfits ⊢
  have hnext := hfits.ticks_eq hn₂
  by_cases hzero₂ : n₂ = 0
  · obtain rfl : t₁ = t₂ := by omega
    rw [evTokenBucketUpdate_self, hzero₂, add_zero]
  rw [hfits.update_eq hcfg hnext (by omega) (by omega)]
  congr 1
  funext d
  have hprod : (0 : Int) ≤ n₂ * cfg.rate d := by positivity
  have hadd : ((n₁ + n₂ : Nat) : Int) * cfg.rate d = n₁ * cfg.rate d + n₂ * cfg.rate d := by
    rw [Nat.cast_add, add_mul]
  dsimp only
  omega

/-- A bucket that is far below zero, over five ticks in which the tick number wraps around. -/
theorem evTokenBucketUpdate_exact_wrapped :
    evTokenBucketUpdate { limit := fun _ => -2 ^ 63, lastUpdated := 2 ^ 32 - 3 }
        { addr := 0, rate := fun _ => 10, maximum := fun _ => 100, msecPerTick := 1 } 2 =
      { limit := fun _ => min 100 (-2 ^ 63 + 5 * 10), lastUpdated := 2 } := by
  have hnew : evTokenBucketCfgNew 0 (fun _ => 10) (fun _ => 100) 1 = some
      { addr := 0, rate := fun _ => 10, maximum := fun _ => 100, msecPerTick := 1 } := rfl
  exact (evTokenBucketUpdate_exact hnew (fun _ => ⟨by norm_num, by norm_num⟩) (by decide)).1 2 5
    (by decide) (by decide)

theorem buffereventUpdateBuckets_eq (htick : evTokenBucketGetTick now cfg = .ok tick)
    (bev : Bufferevent) (rlim : RateLimit) :
    buffereventUpdateBuckets now bev rlim cfg =
      .ok ({ rlim with limit := evTokenBucketUpdate rlim.limit cfg tick },
        bev.withBucket rlim (evTokenBucketUpdate rlim.limit cfg tick)) := by
  unfold buffereventUpdateBuckets Bufferevent.withBucket
  rw [htick]
  by_cases hlast : tick = rlim.limit.lastUpdated
  · subst hlast
    rw [evTokenBucketUpdate_self]
    simp [bind, Except.bind, pure, Except.pure]
  · simp [bind, Except.bind, pure, Except.pure, hlast]

/-- The bucket has a name of its own here, which keeps the update from being unfolded. -/
theorem buffereventUpdateBuckets_cases (now : Nat) (bev : Bufferevent) (rlim : RateLimit)
    (cfg : TokenBucketCfg) :
    Partly (buffereventUpdateBuckets now bev rlim cfg) fun r =>
      ∃ tick bucket, evTokenBucketGetTick now cfg = .ok tick ∧
        bucket = evTokenBucketUpdate rlim.limit cfg tick ∧
        r = ({ rlim with limit := bucket }, bev.withBucket rlim bucket) := by
  cases htick : evTokenBucketGetTick now cfg with
  | error e =>
    unfold buffereventUpdateBuckets
    rw [htick]
    exact trivial
  | ok tick =>
    rw [buffereventUpdateBuckets_eq htick]
    exact ⟨tick, _, rfl, rfl, rfl⟩

/-- `base` is the bufferevent, after an update of its bucket when it has a configuration. -/
def Bufferevent.Refreshed (now : Nat) (bev base : Bufferevent) : Prop :=
  (bev.rateLimiting.bind RateLimit.cfg = none ∧ base = bev) ∨
  ∃ rlim cfg tick, bev.rateLimiting = some rlim ∧ rlim.cfg = some cfg ∧
    evTokenBucketGetTick now cfg = .ok tick ∧
    base = bev.withBucket rlim (evTokenBucketUpdate rlim.limit cfg tick)

section
variable (d now)

theorem buffereventGetLimit_cases (bev : Bufferevent) :
    Partly (buffereventGetLimit d now bev) fun r => bev.Refreshed now r.2 := by
  unfold buffereventGetLimit
  cases hr : bev.rateLimiting with
  | none => exact .inl ⟨by rw [hr]; rfl, rfl⟩
  | some rlim =>
    cases hcfg : rlim.cfg with
    | none =>
      simp only [hcfg]
      exact .inl ⟨by rw [hr]; exact hcfg, rfl⟩
    | some cfg =>
      simp only [hcfg]
      refine (buffereventUpdateBuckets_cases now bev rlim cfg).bind ?_
      rintro _ ⟨tick, bucket, htick, rfl, rfl⟩
      exact .inr ⟨rlim, cfg, tick, hr, hcfg, htick, rfl⟩

theorem ownMax_cases (hr : bev.rateLimiting = some rlim) :
    Partly (ownMax d now bev rlim) fun r => bev.Refreshed now r.2 := by
  unfold ownMax
  cases hcfg : rlim.cfg with
  | none => exact .inl ⟨by rw [hr]; exact hcfg, rfl⟩
  | some cfg =>
    refine Yields.map ((buffereventUpdateBuckets_cases now bev rlim cfg).mono ?_)
    rintro _ ⟨tick, bucket, htick, rfl, rfl⟩
    exact .inr ⟨rlim, cfg, tick, hr, hcfg, htick, rfl⟩

/-- `bufferevent_get_rlim_max_` updates the bucket, and suspends a member of a suspended group.
`start` is what the limit of the bufferevent itself allows. -/
theorem buffereventGetRlimMax_cases (group : GroupId → RateGroup) (bev : Bufferevent) :
    Partly (buffereventGetRlimMax d now group bev) fun r =>
      ∃ base, bev.Refreshed now base ∧
        ((bev.rateLimiting.bind RateLimit.group = none ∧ r.2 = base) ∨
          ∃ g, bev.rateLimiting.bind RateLimit.group = some g ∧
            (((group g).suspended d = true ∧ r = (0, buffereventSuspend d base {.bwGroup})) ∨
              ((group g).suspended d = false ∧ r.2 = base))) := by
  unfold buffereventGetRlimMax
  cases hr : bev.rateLimiting with
  | none => exact ⟨bev, .inl ⟨by rw [hr]; rfl, rfl⟩, .inl ⟨rfl, rfl⟩⟩
  | some rlim =>
    refine Yields.map ((ownMax_cases d now hr).mono fun r hr' => ⟨r.2, hr', ?_⟩)
    unfold clampToShare
    cases hg : rlim.group with
    | none => exact .inl ⟨hg, rfl⟩
    | some g =>
      refine .inr ⟨g, hg, ?_⟩
      dsimp only
      cases hs : (group g).suspended d with
      | true => exact .inl ⟨rfl, Prod.ext (by simp) rfl⟩
      | false => exact .inr ⟨rfl, rfl⟩

end

/-- What `bev_refill_callback_` does once the bucket is updated. -/
def Bufferevent.refilled (rlim : RateLimit) (bev : Bufferevent) : Bufferevent :=
  let r := refillDir .read rlim bev
  let w := refillDir .write rlim r.2
  if r.1 || w.1 then w.2.addRefill.2 else w.2

theorem bevRefillCallback_cases (now : Nat) (bev : Bufferevent) :
    Partly (bevRefillCallback now bev) fun bev' =>
      (bev.rateLimiting.bind RateLimit.cfg = none ∧ bev' = bev.delRefill) ∨
      ∃ rlim cfg tick, bev.rateLimiting = some rlim ∧ rlim.cfg = some cfg ∧
        evTokenBucketGetTick now cfg = .ok tick ∧
        bev' = (bev.delRefill.withBucket { rlim with refillPending := false }
          (evTokenBucketUpdate rlim.limit cfg tick)).refilled
          { rlim with
            refillPending := false, limit := evTokenBucketUpdate rlim.limit cfg tick } := by
  unfold bevRefillCallback
  cases hr : bev.rateLimiting with
  | none =>
    simp only [Bufferevent.delRefill, hr]
    exact .inl ⟨rfl, rfl⟩
  | some rlim =>
    simp only [Bufferevent.delRefill, hr, Option.map_some]
    cases hcfg : rlim.cfg with
    | none => exact .inl ⟨hcfg, rfl⟩
    | some cfg =>
      dsimp only
      cases htick : evTokenBucketGetTick now cfg with
      | error e => exact trivial
      | ok tick =>
        refine .inr ⟨rlim, cfg, tick, rfl, hcfg, htick, ?_⟩
        obtain ⟨_, limit, refillPending, group⟩ := rlim
        obtain rfl : _ = some cfg := hcfg
        rfl

/-- What `bufferevent_set_rate_limit` does once the configuration is stored. -/
def Bufferevent.installed (limit : TokenBucket) (bev : Bufferevent) : Bufferevent :=
  let r := setRateLimitDir .read limit bev
  let w := setRateLimitDir .write limit r.2
  if r.1 || w.1 then w.2.addRefill.2 else w.2

/-- The rate limit was there, or it is a new one, or there is no memory. -/
theorem ensureRateLimit_cases (bev : Bufferevent) :
    (∃ rlim, bev.rateLimiting = some rlim ∧ ensureRateLimit bev = (some rlim, bev)) ∨
    (bev.rateLimiting = none ∧ ensureRateLimit bev =
      (some {}, { bev with rateLimiting := some {}, mm := bev.mm.alloc.2 })) ∨
    (bev.rateLimiting = none ∧ ensureRateLimit bev =
      (none, { bev with mm := bev.mm.alloc.2 })) := by
  unfold ensureRateLimit
  cases hr : bev.rateLimiting with
  | some rlim => exact .inl ⟨rlim, rfl, rfl⟩
  | none =>
    dsimp only
    split
    · exact .inr (.inl ⟨rfl, rfl⟩)
    · exact .inr (.inr ⟨rfl, rfl⟩)

/-- `bufferevent_set_rate_limit` with a configuration: it is the same one, or there is no memory,
or it is installed. -/
theorem buffereventSetRateLimit_cases (now : Nat) (bev : Bufferevent) (cfg : TokenBucketCfg) :
    Partly (buffereventSetRateLimit now bev (some cfg)) fun r =>
      ((bev.rateLimiting.bind RateLimit.cfg).map TokenBucketCfg.addr = some cfg.addr ∧
        r = (0, bev)) ∨
      (bev.rateLimiting = none ∧ r = (-1, { bev with mm := bev.mm.alloc.2 })) ∨
      ∃ rlim mm tick, mm.fails = bev.mm.fails ∧ evTokenBucketGetTick now cfg = .ok tick ∧
        (bev.rateLimiting = some rlim ∨ (bev.rateLimiting = none ∧ rlim = {})) ∧
        r = (0, ({ bev with
          mm := mm
          rateLimiting := some { rlim with
            cfg := some cfg
            limit := evTokenBucketInit rlim.limit cfg tick rlim.cfg.isSome
            refillPending := false } }).installed
          (evTokenBucketInit rlim.limit cfg tick rlim.cfg.isSome)) := by
  unfold buffereventSetRateLimit
  dsimp only
  cases htick : evTokenBucketGetTick now cfg with
  | error e => exact trivial
  | ok tick =>
    show Yields _ (if _ then _ else _) _
    split
    · next hsame => exact .inl ⟨hsame, rfl⟩
    rcases ensureRateLimit_cases bev with ⟨rlim, hr, heq⟩ | ⟨hr, heq⟩ | ⟨hr, heq⟩
    · rw [heq]
      exact .inr (.inr ⟨rlim, bev.mm, tick, rfl, rfl, .inl hr, rfl⟩)
    · rw [heq]
      exact .inr (.inr ⟨{}, bev.mm.alloc.2, tick, rfl, rfl, .inr ⟨hr, rfl⟩, rfl⟩)
    · rw [heq]
      exact .inr (.inl ⟨hr, rfl⟩)

/-! ### What rate limiting keeps -/

variable {Q : Bufferevent → Prop}

/-- Suspending a direction and starting the timer keep `Q`. -/
structure TimerStable (Q : Bufferevent → Prop) : Prop where
  suspend : ∀ {bev : Bufferevent} (d : Dir), Q bev → Q (buffereventSuspend d bev {.bw})
  unsuspend : ∀ {bev : Bufferevent} (d : Dir), Q bev → Q (buffereventUnsuspend d bev {.bw})
  timer : ∀ {bev : Bufferevent} (pending : Bool), Q bev → Q { bev with
    rateLimiting := bev.rateLimiting.map fun r => { r with refillPending := pending } }
  alloc : ∀ {bev : Bufferevent}, Q bev → Q { bev with mm := bev.mm.alloc.2 }

namespace TimerStable

variable (hQ : TimerStable Q)
include hQ

theorem addRefill (h : Q bev) : Q bev.addRefill.2 := by
  unfold Bufferevent.addRefill
  split
  · exact hQ.timer true (hQ.alloc h)
  · exact hQ.alloc h

theorem delRefill (h : Q bev) : Q bev.delRefill := hQ.timer false h

theorem exhaust (h : Q bev) (d : Dir) : Q (bev.exhaust d) := hQ.addRefill (hQ.suspend d h)

theorem resume (h : Q bev) (d : Dir) : Q (bev.resume d) := by
  unfold Bufferevent.resume
  split
  · exact hQ.unsuspend d h
  · exact hQ.unsuspend d (hQ.delRefill h)

theorem spent {bev' : Bufferevent} {left : Int} (h : Q (bev.withLimit rlim d left))
    (hspent : Spent bev rlim d left bev') : Q bev' := by
  cases hspent with
  | exhaust => exact hQ.exhaust h d
  | resume => exact hQ.resume h d
  | keep => exact h

theorem refillDir (h : Q bev) (d : Dir) (rlim : RateLimit) : Q (refillDir d rlim bev).2 := by
  unfold Libevent.refillDir
  split
  · split
    · exact hQ.unsuspend d h
    · exact h
  · exact h

theorem refilled (h : Q bev) (rlim : RateLimit) : Q (bev.refilled rlim) := by
  have hboth := hQ.refillDir (hQ.refillDir h .read rlim) .write rlim
  unfold Bufferevent.refilled
  dsimp only
  split
  · exact hQ.addRefill hboth
  · exact hboth

theorem setRateLimitDir (h : Q bev) (d : Dir) (limit : TokenBucket) :
    Q (setRateLimitDir d limit bev).2 := by
  unfold Libevent.setRateLimitDir
  split
  · exact hQ.unsuspend d h
  · exact hQ.suspend d h

theorem installed (h : Q bev) (limit : TokenBucket) : Q (bev.installed limit) := by
  have hboth := hQ.setRateLimitDir (hQ.setRateLimitDir h .read limit) .write limit
  unfold Bufferevent.installed
  dsimp only
  split
  · exact hQ.addRefill hboth
  · exact hboth

end TimerStable

/-- Another bucket keeps `Q`, too. -/
structure RateStable (Q : Bufferevent → Prop) : Prop extends TimerStable Q where
  bucket : ∀ {bev : Bufferevent} {rlim : RateLimit} (bucket : TokenBucket),
    bev.rateLimiting = some rlim → Q bev → Q (bev.withBucket rlim bucket)

namespace RateStable

variable (hQ : RateStable Q)
include hQ

theorem decrementBuckets (h : Q bev) (d : Dir) (bytes : Int) :
    Q (buffereventDecrementBuckets d bev bytes).2 := by
  rcases buffereventDecrementBuckets_cases d bev bytes with ⟨-, heq⟩ | ⟨rlim, cfg, hr, -, hspent⟩
  · rw [heq]
    exact h
  · exact hQ.spent (hQ.bucket _ hr h) hspent

theorem decrementLimit (h : Q bev) (d : Dir) (decr : Int) :
    Partly (buffereventDecrementLimit d bev decr) fun r => Q r.2 :=
  (buffereventDecrementLimit_cases d bev decr).mono fun _ ⟨_, _, hr, _, hspent⟩ =>
    hQ.spent (hQ.bucket _ hr h) hspent

theorem refreshed {base : Bufferevent} (h : Q bev) (hbase : bev.Refreshed now base) : Q base := by
  obtain ⟨_, rfl⟩ | ⟨rlim, cfg, tick, hr, _, _, rfl⟩ := hbase
  · exact h
  · exact hQ.bucket _ hr h

theorem refillCallback (h : Q bev) (now : Nat) : Partly (bevRefillCallback now bev) Q := by
  refine (bevRefillCallback_cases now bev).mono ?_
  rintro _ (⟨_, rfl⟩ | ⟨rlim, cfg, tick, hr, _, _, rfl⟩)
  · exact hQ.delRefill h
  refine hQ.refilled (hQ.bucket _ ?_ (hQ.delRefill h)) _
  rw [Bufferevent.delRefill, hr]
  rfl

end RateStable

/-- What is kept by an update, and by the flag of the group, is kept by
`bufferevent_get_rlim_max_`. -/
theorem getRlimMax_keeps (hbase : ∀ base, bev.Refreshed now base → Q base)
    (hsuspend : ∀ base, Q base → Q (buffereventSuspend d base {.bwGroup}))
    (group : GroupId → RateGroup) :
    Partly (buffereventGetRlimMax d now group bev) fun r => Q r.2 := by
  refine (buffereventGetRlimMax_cases d now group bev).mono ?_
  rintro ⟨m, bev'⟩ ⟨base, hrefreshed, ⟨_, rfl⟩ | ⟨g, _, ⟨_, heq⟩ | ⟨_, rfl⟩⟩⟩
  · exact hbase _ hrefreshed
  · rw [heq]
    exact hsuspend _ (hbase _ hrefreshed)
  · exact hbase _ hrefreshed

end Libevent
