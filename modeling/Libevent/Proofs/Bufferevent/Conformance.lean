import Libevent.Lib.TokenBucket
import Libevent.Proofs.Bufferevent.Wakeup

/-!
# `Libevent.Proofs.Bufferevent.Conformance`: a bufferevent keeps to its read limit

A bufferevent with a configuration is a token bucket in the sense of `Libevent.Lib.TokenBucket`:
`Tracks` relates the read limit, and the tick in which it was looked at last, to a `Level`. The
ticks of the source are 32 bits wide, those of the level are not. The two stay together because
`ev_token_bucket_update_` ignores a difference of more than `INT_MAX` ticks: a bucket that was
looked at in tick `u` is up to date, or more than `INT_MAX` ticks behind (`TokenBucket.Synced`), so
what it gets in a later tick `t` is never more than `t - u` ticks' worth.

`readIn_le`: over any run, the bytes read in the ticks `lo` to `hi` are at most
`read_maximum + (hi - lo) * read_rate`, and the read limit never is negative.
-/

namespace Libevent

open Lib

variable {cfg : TokenBucketCfg} {bucket bucket' : TokenBucket} {bev bev' : Bufferevent} {d : Dir}
  {now : Nat} {l : Level} {x : BevId} {env : IoEnv} {howmuch : Int} {a : BevAction}

/-! ### One update -/

theorem evTokenBucketGetTick_ok {tick : Nat} (h : evTokenBucketGetTick now cfg = .ok tick) :
    tick = now / cfg.msecPerTick % 2 ^ 32 := by
  unfold evTokenBucketGetTick at h
  split at h
  · cases h
  · exact (Except.ok.inj h).symm

/-- The bucket was looked at in tick `u`. -/
structure TokenBucket.Synced (bucket : TokenBucket) (u : Nat) : Prop where
  ticks : bucket.ticks (u % 2 ^ 32) = 0 ∨ INT_MAX < bucket.ticks (u % 2 ^ 32)

/-- The ticks that count in `t` are among those since `u`. -/
theorem TokenBucket.Synced.ticks_le {u t : Nat} (h : bucket.Synced u) (hut : u ≤ t)
    (hmax : bucket.ticks (t % 2 ^ 32) ≤ INT_MAX) : bucket.ticks (t % 2 ^ 32) ≤ t - u := by
  have hticks := h.ticks
  simp only [TokenBucket.ticks] at hticks hmax ⊢
  omega

/-- A refill adds at most the rate for each tick, and stops at the maximum. -/
theorem refillLimit_le {nTicks : Nat} {limit : Int} (hcfg : CfgOk cfg) (hn : nTicks ≠ 0)
    (hnonneg : 0 ≤ limit) (hle : limit ≤ cfg.maximum d) :
    limit ≤ refillLimit cfg d nTicks limit ∧ refillLimit cfg d nTicks limit ≤ cfg.maximum d ∧
      refillLimit cfg d nTicks limit ≤ limit + nTicks * cfg.rate d := by
  have hprod : (0 : Int) ≤ nTicks * cfg.rate d := by positivity
  rw [refillLimit_eq_min hcfg hn (by omega) hle]
  exact ⟨by omega, min_le_left _ _, min_le_right _ _⟩

/-- The read limit of a bucket that was looked at in tick `u`. -/
structure Tracked (cfg : TokenBucketCfg) (bucket : TokenBucket) (l : Level) : Prop where
  amount : bucket.limit .read = l.amount
  synced : bucket.Synced l.tick
  nonneg : 0 ≤ l.amount
  full : l.amount ≤ cfg.maximum .read

/-- An update in a later tick fills the bucket up. -/
theorem Tracked.update {t : Nat} (h : Tracked cfg bucket l) (hcfg : CfgOk cfg)
    (hlater : l.tick ≤ t) : ∃ l', Tracked cfg (evTokenBucketUpdate bucket cfg (t % 2 ^ 32)) l' ∧
      l.Takes (cfg.maximum .read) (cfg.rate .read) 0 l' ∧ l'.tick = t := by
  have hrate : (0 : Int) ≤ (t - l.tick : Nat) * cfg.rate .read := by positivity
  rcases evTokenBucketUpdate_cases bucket cfg (t % 2 ^ 32) with ⟨hkeep, heq⟩ | ⟨hn, hmax, heq⟩
  · rw [heq]
    exact ⟨⟨l.amount, t⟩, ⟨h.amount, ⟨hkeep⟩, h.nonneg, h.full⟩,
      .zero hlater h.full (le_add_of_nonneg_right hrate), rfl⟩
  rw [heq]
  obtain ⟨hge, hfull, hrefill⟩ := refillLimit_le (d := .read) hcfg hn
    (h.amount ▸ h.nonneg) (h.amount ▸ h.full)
  have hticks : ((bucket.ticks (t % 2 ^ 32) : Nat) : Int) * cfg.rate .read ≤
      (t - l.tick : Nat) * cfg.rate .read :=
    mul_le_mul_of_nonneg_right (by exact_mod_cast h.synced.ticks_le hlater hmax) (by positivity)
  have hself : (t % 2 ^ 32 + 2 ^ 32 - t % 2 ^ 32) % 2 ^ 32 = 0 := by omega
  rw [h.amount] at hge hfull hrefill
  exact ⟨⟨refillLimit cfg .read (bucket.ticks (t % 2 ^ 32)) l.amount, t⟩,
    ⟨by rw [← h.amount], ⟨.inl hself⟩, h.nonneg.trans hge, hfull⟩,
    .zero hlater hfull (hrefill.trans (add_le_add_right hticks _)), rfl⟩

/-! ### The bucket of a bufferevent -/

/-- The bucket after `bytes` bytes were charged. -/
def TokenBucket.charge (bucket : TokenBucket) (d : Dir) (bytes : Int) : TokenBucket :=
  bucket.withLimit d (ssizeOf (bucket.limit d - bytes))

/-- The bufferevent has the configuration `cfg` and the bucket `bucket`. -/
def Metered (cfg : TokenBucketCfg) (bucket : TokenBucket) (bev : Bufferevent) : Prop :=
  ∃ rlim, bev.rateLimiting = some rlim ∧ rlim.cfg = some cfg ∧ rlim.limit = bucket

namespace Metered

theorem of_rate (h : Metered cfg bucket bev) (hrate : bev'.rateLimiting = bev.rateLimiting) :
    Metered cfg bucket bev' := by
  obtain ⟨rlim, hr, hrest⟩ := h
  exact ⟨rlim, hrate.trans hr, hrest⟩

/-- The timer does not matter. -/
theorem of_map (h : Metered cfg bucket bev) {pending : Bool}
    (hrate : bev'.rateLimiting =
      bev.rateLimiting.map fun r => { r with refillPending := pending }) :
    Metered cfg bucket bev' := by
  obtain ⟨rlim, hr, hcfg, hlimit⟩ := h
  rw [hr] at hrate
  exact ⟨_, hrate, hcfg, hlimit⟩

theorem timerStable (cfg : TokenBucketCfg) (bucket : TokenBucket) :
    TimerStable (Metered cfg bucket) where
  suspend d h := h.of_rate (rateLimiting_suspend d _ _)
  unsuspend d h := h.of_rate (rateLimiting_unsuspend d _ _)
  timer _ h := h.of_map rfl
  alloc h := h.of_rate rfl

/-- What is charged is subtracted. -/
theorem decrementBuckets (h : Metered cfg bucket bev) (d : Dir) (bytes : Int) :
    Metered cfg (bucket.charge d bytes) (buffereventDecrementBuckets d bev bytes).2 := by
  obtain ⟨rlim, hr, hcfg, rfl⟩ := h
  have hset : Metered cfg (rlim.limit.charge d bytes)
      (bev.withLimit rlim d (ssizeOf (rlim.limit.limit d - bytes))) := ⟨_, rfl, hcfg, rfl⟩
  rcases buffereventDecrementBuckets_cases d bev bytes with ⟨hnone, _⟩ | ⟨r, _, hr', _, hspent⟩
  · rw [hr] at hnone
    cases hcfg.symm.trans hnone
  · cases hr.symm.trans hr'
    exact (timerStable cfg _).spent hset hspent

theorem refreshed (h : Metered cfg bucket bev) (hbase : bev.Refreshed now bev') :
    ∃ tick, evTokenBucketGetTick now cfg = .ok tick ∧
      Metered cfg (evTokenBucketUpdate bucket cfg tick) bev' := by
  obtain ⟨rlim, hr, hcfg, rfl⟩ := h
  obtain ⟨hnone, _⟩ | ⟨rlim', cfg', tick, hr', hcfg', htick, rfl⟩ := hbase
  · rw [hr] at hnone
    cases hcfg.symm.trans hnone
  cases hr.symm.trans hr'
  cases hcfg.symm.trans hcfg'
  exact ⟨tick, htick, _, rfl, hcfg, rfl⟩

theorem refillCallback (h : Metered cfg bucket bev) (now : Nat) :
    Partly (bevRefillCallback now bev) fun bev' =>
      ∃ tick, evTokenBucketGetTick now cfg = .ok tick ∧
        Metered cfg (evTokenBucketUpdate bucket cfg tick) bev' := by
  obtain ⟨rlim, hr, hcfg, rfl⟩ := h
  refine (bevRefillCallback_cases now bev).mono ?_
  rintro bev' (⟨hnone, _⟩ | ⟨rlim', cfg', tick, hr', hcfg', htick, rfl⟩)
  · rw [hr] at hnone
    cases hcfg.symm.trans hnone
  cases hr.symm.trans hr'
  cases hcfg.symm.trans hcfg'
  refine ⟨tick, htick, ?_⟩
  generalize evTokenBucketUpdate rlim.limit cfg tick = bucket
  refine (timerStable cfg bucket).refilled ?_ _
  exact ⟨_, rfl, hcfg, rfl⟩

/-- What the limit of the bufferevent itself allows. -/
theorem ownMax {rlim : RateLimit} (hcfg : rlim.cfg = some cfg) (bev : Bufferevent) (d : Dir)
    (now : Nat) :
    Partly (ownMax d now bev rlim) fun r =>
      ∃ tick bucket, evTokenBucketGetTick now cfg = .ok tick ∧
        bucket = evTokenBucketUpdate rlim.limit cfg tick ∧
        Metered cfg bucket r.2 ∧ r.1 = bucket.limit d := by
  unfold Libevent.ownMax
  rw [hcfg]
  refine Yields.map ((buffereventUpdateBuckets_cases now bev rlim cfg).mono ?_)
  rintro _ ⟨tick, bucket, htick, hbucket, rfl⟩
  exact ⟨tick, bucket, htick, hbucket, ⟨_, rfl, hcfg, rfl⟩, rfl⟩

end Metered

/-- A group only makes the allowance smaller. -/
theorem clampToShare_le (d : Dir) (group : GroupId → RateGroup) (rlim : RateLimit) (m : Int)
    (bev : Bufferevent) : (clampToShare d group rlim m bev).1 ≤ m ∧
      (clampToShare d group rlim m bev).2.rateLimiting = bev.rateLimiting := by
  unfold clampToShare
  split
  · exact ⟨le_rfl, rfl⟩
  split
  · exact ⟨min_le_left _ _, rateLimiting_suspend d bev {.bwGroup}⟩
  · exact ⟨min_le_left _ _, rfl⟩

/-- The allowance is not more than the limit. -/
theorem Metered.getRlimMax (h : Metered cfg bucket bev) (d : Dir) (now : Nat)
    (group : GroupId → RateGroup) :
    Partly (buffereventGetRlimMax d now group bev) fun r =>
      ∃ tick bucket', evTokenBucketGetTick now cfg = .ok tick ∧
        bucket' = evTokenBucketUpdate bucket cfg tick ∧ Metered cfg bucket' r.2 ∧
        0 ≤ r.1 ∧ r.1 ≤ max (bucket'.limit d) 0 := by
  obtain ⟨rlim, hr, hcfg, rfl⟩ := h
  unfold buffereventGetRlimMax
  rw [hr]
  refine Yields.map ((Metered.ownMax hcfg bev d now).mono ?_)
  rintro ⟨m, base⟩ ⟨tick, bucket', htick, hbucket, hbase, hm⟩
  obtain ⟨hle, hrate⟩ := clampToShare_le d group rlim m base
  exact ⟨tick, bucket', htick, hbucket, hbase.of_rate hrate, le_max_right _ _,
    max_le_max (hle.trans hm.le) le_rfl⟩

/-! ### The callbacks -/

variable {s s' : BevSystem} {b : BevId}

/-- Groups do not touch the bucket of a bufferevent. -/
theorem metered_groupStable (cfg : TokenBucketCfg) (bucket : TokenBucket) (b : BevId) :
    GroupStable fun x bev => x = b → Metered cfg bucket bev := by
  intro x bev bev' hmove h hx
  cases hmove with
  | suspend d => exact (h hx).of_rate (rateLimiting_suspend d _ _)
  | unsuspend d => exact (h hx).of_rate (rateLimiting_unsuspend d _ _)
  | group g hr =>
    obtain ⟨r, hr', hcfg, hlimit⟩ := h hx
    cases hr.symm.trans hr'
    exact ⟨_, rfl, hcfg, hlimit⟩
  | alloc => exact (h hx).of_rate rfl
  | create hnone =>
    obtain ⟨r, hr, _⟩ := h hx
    cases hnone.symm.trans hr

theorem Metered.set (h : Metered cfg bucket bev) (s : BevSystem) (b : BevId) :
    Metered cfg bucket ((s.setBev b bev).bevs b) := by
  rw [bevs_setBev_self]
  exact h

/-- The family of `metered_groupStable`, for one system. -/
theorem Metered.all (h : Metered cfg bucket (s.bevs b)) :
    s.All fun x bev => x = b → Metered cfg bucket bev := fun _ hx => hx ▸ h

theorem Metered.decrementAll (h : Metered cfg bucket (s.bevs b)) (d : Dir) (bytes : Int)
    (walk : Walk) :
    Metered cfg (bucket.charge d bytes)
      ((buffereventDecrementAllBuckets d s b bytes walk).bevs b) := by
  have hown := (h.decrementBuckets d bytes).set s b
  unfold buffereventDecrementAllBuckets
  dsimp only
  split
  · exact hown
  · exact (GroupPath.decrementGroupBucket d _ _ bytes walk).all (metered_groupStable cfg _ b)
      hown.all b rfl

/-- A callback of another bufferevent. -/
theorem Metered.io_of_ne (hx : x ≠ b) (h : Metered cfg bucket (s.bevs b))
    (hpath : ∃ base, Allowed d s x base ∧ IoPath x (s.setBev x base) s') :
    Metered cfg bucket (s'.bevs b) :=
  Allowed.all (metered_groupStable cfg bucket b) (fun _ _ _ _ hxb => absurd hxb hx) h.all
    (Yields.of_forall fun _ hxb => absurd hxb hx) hpath b rfl

/-- The bucket is updated, and `n` bytes are charged for reading. -/
def Charges (cfg : TokenBucketCfg) (now n : Nat) (bucket bucket' : TokenBucket) : Prop :=
  ∃ tick updated, evTokenBucketGetTick now cfg = .ok tick ∧
    updated = evTokenBucketUpdate bucket cfg tick ∧ bucket'.lastUpdated = updated.lastUpdated ∧
    bucket'.limit .read = updated.limit .read - n ∧ n ≤ max (updated.limit .read) 0

/-- Nothing is charged. -/
theorem Charges.idle {tick : Nat} (htick : evTokenBucketGetTick now cfg = .ok tick)
    (hbucket : bucket' = evTokenBucketUpdate bucket cfg tick) : Charges cfg now 0 bucket bucket' :=
  ⟨tick, bucket', htick, hbucket, rfl, by simp, le_max_right _ _⟩

/-- The bufferevent `b` reads `n` bytes in a step from `s` to `s'`. -/
def Reads (cfg : TokenBucketCfg) (b : BevId) (bucket : TokenBucket) (s : BevSystem) (n : Nat)
    (s' : BevSystem) : Prop :=
  ∃ bucket', Metered cfg bucket' (s'.bevs b) ∧
    ((bucket' = bucket ∧ n = 0) ∨ Charges cfg s.now n bucket bucket')

theorem Reads.keep (h : Metered cfg bucket (s'.bevs b)) : Reads cfg b bucket s 0 s' :=
  ⟨bucket, h, .inl ⟨rfl, rfl⟩⟩

/-- The bucket of `b` is updated. -/
theorem Reads.idle {tick : Nat} (htick : evTokenBucketGetTick s.now cfg = .ok tick)
    (hbucket : bucket' = evTokenBucketUpdate bucket cfg tick)
    (h : Metered cfg bucket' (s'.bevs b)) : Reads cfg b bucket s 0 s' :=
  ⟨bucket', h, .inr (.idle htick hbucket)⟩

/-- `evbuffer_read` asks for at most what it was told, and its result is that of the system call. -/
theorem evbufferReadSome_some {k : Nat} (hnonneg : 0 ≤ howmuch)
    (h : (evbufferReadSome howmuch env).res = some k) : env.result = .ok k ∧
      ∃ n, (evbufferReadSome howmuch env).asked = some n ∧ (n : Int) ≤ howmuch := by
  unfold evbufferReadSome at h ⊢
  dsimp only at h ⊢
  split at h
  · cases h
  next hexpands =>
  rw [if_neg hexpands]
  cases hresult : env.result with
  | fail e =>
    rw [hresult] at h
    cases h
  | ok k' =>
    rw [hresult] at h
    obtain rfl : k' = k := Option.some.inj h
    refine ⟨rfl, _, rfl, ?_⟩
    split <;> split <;> omega

/-- The end of `bufferevent_readcb` charges what was read. -/
theorem metered_readcbFinish (h : Metered cfg bucket bev) (s : BevSystem) (b : BevId) (env : IoEnv)
    (r : IoResult) :
    (∃ k, r.res = some (k + 1) ∧ (readcbFinish s b bev env r).1.moved = k + 1 ∧
      (readcbFinish s b bev env r).1.asked = r.asked ∧
      Metered cfg (bucket.charge .read (k + 1 : Nat)) ((readcbFinish s b bev env r).2.bevs b)) ∨
    ((readcbFinish s b bev env r).1.moved = 0 ∧
      Metered cfg bucket ((readcbFinish s b bev env r).2.bevs b)) := by
  have hdisable := (h.of_rate (SameRate.disable bev (IoMask.only .read)).rate).set s b
  unfold readcbFinish
  split
  · split
    · exact .inr ⟨rfl, h.set s b⟩
    · exact .inr ⟨rfl, h.set s b⟩
    · exact .inr ⟨rfl, hdisable⟩
  · exact .inr ⟨rfl, hdisable⟩
  · next k hres =>
    refine .inl ⟨k, hres, rfl, rfl, ?_⟩
    exact ((h.of_rate (SameRate.setInput bev _).rate).set s b).decrementAll .read _ env.walk

/-- Reading at most the limit, which fits into an `int`. -/
theorem metered_readSome (h : Metered cfg bucket bev) (hbound : bucket.limit .read < 2 ^ 31)
    (hnonneg : 0 ≤ howmuch) (hle : howmuch ≤ max (bucket.limit .read) 0) (hreads : ∀ n k,
      (readcbFinish s b bev env (evbufferReadSome (intOfSsize howmuch) env)).1.asked = some n →
      env.result = .ok k → k ≤ n) :
    ∃ bucket', Metered cfg bucket' ((readcbFinish s b bev env
        (evbufferReadSome (intOfSsize howmuch) env)).2.bevs b) ∧
      bucket'.lastUpdated = bucket.lastUpdated ∧
      bucket'.limit .read = bucket.limit .read -
        (readcbFinish s b bev env (evbufferReadSome (intOfSsize howmuch) env)).1.moved ∧
      ((readcbFinish s b bev env (evbufferReadSome (intOfSsize howmuch) env)).1.moved : Int) ≤
        max (bucket.limit .read) 0 := by
  have hint : intOfSsize howmuch = howmuch := Int.bmod_eq_of_le (by omega) (by omega)
  rw [hint] at hreads ⊢
  rcases metered_readcbFinish h s b env (evbufferReadSome howmuch env) with
    ⟨k, hres, hmoved, hasked, hmeter⟩ | ⟨hmoved, hmeter⟩
  · obtain ⟨hresult, n, hn, hnle⟩ := evbufferReadSome_some hnonneg hres
    have hkn := hreads n (k + 1) (hasked.trans hn) hresult
    have hwhole : ssizeOf (bucket.limit .read - (k + 1 : Nat)) =
        bucket.limit .read - (k + 1 : Nat) := Int.bmod_eq_of_le (by omega) (by omega)
    rw [hmoved]
    refine ⟨_, hmeter, rfl, ?_, by omega⟩
    rw [TokenBucket.charge, TokenBucket.withLimit_self, hwhole]
  · rw [hmoved]
    exact ⟨bucket, hmeter, rfl, by simp, le_max_right _ _⟩

/-- What `bufferevent_readcb` does to the bucket of its bufferevent. -/
theorem Metered.readcb (h : Metered cfg bucket (s.bevs b)) (env : IoEnv)
    (hbound : ∀ tick, evTokenBucketGetTick s.now cfg = .ok tick →
      (evTokenBucketUpdate bucket cfg tick).limit .read < 2 ^ 31) :
    Partly (buffereventReadcb s b env) fun r =>
      (∀ n k, r.1.asked = some n → env.result = .ok k → k ≤ n) →
      Reads cfg b bucket s r.1.moved r.2 := by
  unfold buffereventReadcb
  dsimp only
  split
  · exact fun _ => .keep ((h.of_rate (SameRate.disable _ _).rate).set s b)
  split
  · exact fun _ => .keep ((h.of_rate (rateLimiting_suspend .read _ _)).set s b)
  refine (h.getRlimMax .read s.now s.groups).bind ?_
  rintro ⟨readmax, bev⟩ ⟨tick, updated, htick, hupdated, hbev, hnonneg, hle⟩
  split
  · exact fun _ => .idle htick hupdated (hbev.set s b)
  have hbound := hbound tick htick
  rw [← hupdated] at hbound
  intro hreads
  have hfrozen : Metered cfg updated { bev with inputFrozen := true } := hbev.of_rate rfl
  have hread := fun hnonneg hle => metered_readSome hfrozen hbound hnonneg hle hreads
  obtain ⟨bucket', hmeter, hlast, hlimit, hmoved⟩ := hread
    (by split <;> omega) (by split <;> omega)
  exact ⟨bucket', hmeter, .inr ⟨tick, updated, htick, hupdated, hlast, hlimit, hmoved⟩⟩

/-- What `bufferevent_writecb` does to the bucket of its bufferevent. -/
theorem Metered.writecb (h : Metered cfg bucket (s.bevs b)) (env : IoEnv) :
    Partly (buffereventWritecb s b env) fun r => Reads cfg b bucket s 0 r.2 := by
  unfold buffereventWritecb
  split
  · exact .keep ((h.of_rate (SameRate.disable _ _).rate).set s b)
  refine (h.getRlimMax .write s.now s.groups).bind ?_
  rintro ⟨atmost, bev⟩ ⟨tick, updated, htick, hupdated, hbev, _⟩
  have hidle : ∀ {s'}, Metered cfg updated (s'.bevs b) → Reads cfg b bucket s 0 s' :=
    Reads.idle htick hupdated
  have hfrozen : Metered cfg updated { bev with outputFrozen := true } := hbev.of_rate rfl
  dsimp only
  split
  · exact hidle (hbev.set s b)
  split
  · unfold writecbFinish
    have hdisable := (hfrozen.of_rate (SameRate.disable _ (IoMask.only .write)).rate).set s b
    split
    · split
      · exact hidle ((hfrozen.of_rate (SameRate.delIfDrained _).rate).set s b)
      · exact hidle hdisable
    · exact hidle hdisable
    next n _ =>
    have hdrained : Metered cfg updated { bev with
        outputFrozen := true, output := drainOutput (n + 1) bev.output } := hbev.of_rate rfl
    have hdone := (hdrained.set s b).decrementAll .write (n + 1) env.walk
    refine ⟨updated.charge .write (n + 1), ?_, Or.inr
      ⟨tick, updated, htick, hupdated, rfl, ?_, le_max_right _ _⟩⟩
    · rw [bevs_setBev_self]
      exact hdone.of_rate (SameRate.delIfDrained _).rate
    · rw [TokenBucket.charge, TokenBucket.withLimit_of_ne (by decide)]
      simp
  · exact hidle ((hbev.of_rate (SameRate.delIfDrained _).rate).set s b)

/-! ### Runs -/

/-- The bytes that a step reads for the bufferevent `b`. -/
def bytesRead (b : BevId) (s : BevSystem) : BevAction → Nat
  | .readcb x env =>
    if x = b then
      match buffereventReadcb s b env with
      | .ok r => r.1.moved
      | .error _ => 0
    else 0
  | _ => 0

/-- The bytes that a run reads for `b` in the ticks `lo` to `hi`. -/
def readIn (b : BevId) (msecPerTick lo hi : Nat) : BevSystem → List BevAction → Nat :=
  spentIn bevStep (bytesRead b) (fun s => s.now / msecPerTick) lo hi

/-- The configuration of `b` stays, its limits are not changed by hand, and its reads return at most
what they were asked for. -/
def Conforming (b : BevId) (s : BevSystem) : BevAction → Prop
  | .setRateLimit x _ => x ≠ b
  | .decrementLimit x _ _ => x ≠ b
  | .readcb x env => x = b → ∀ r, buffereventReadcb s b env = .ok r →
      ∀ n k, r.1.asked = some n → env.result = .ok k → k ≤ n
  | _ => True

/-- The bufferevent `b` keeps to the level `l`. -/
def Tracks (cfg : TokenBucketCfg) (b : BevId) (l : Level) (s : BevSystem) : Prop :=
  l.tick ≤ s.now / cfg.msecPerTick ∧
    ∃ bucket, Metered cfg bucket (s.bevs b) ∧ Tracked cfg bucket l

section
variable (h : Metered cfg bucket (s.bevs b))
include h

/-- A call that leaves the rate limit of a bufferevent alone. -/
theorem Metered.setBev (x : BevId) (hrate : bev.rateLimiting = (s.bevs x).rateLimiting) :
    Metered cfg bucket ((s.setBev x bev).bevs b) := by
  by_cases hx : x = b
  · subst hx
    rw [bevs_setBev_self]
    exact h.of_rate hrate
  · rw [bevs_setBev_of_ne hx]
    exact h

/-- A call that changes another bufferevent. -/
theorem Metered.setBev_of_ne (hx : x ≠ b) (bev : Bufferevent) :
    Metered cfg bucket ((s.setBev x bev).bevs b) := by
  rw [bevs_setBev_of_ne hx]
  exact h

/-- A call on one bufferevent. -/
theorem Metered.call {α : Type} {r : Except BevFault α} {f : α → Bufferevent}
    (hself : x = b → Partly r fun v => Reads cfg b bucket s 0 (s.setBev b (f v))) :
    Partly r fun v => Reads cfg b bucket s 0 (s.setBev x (f v)) := by
  by_cases hx : x = b
  · subst hx
    exact hself rfl
  · exact Yields.of_forall fun v => .keep (h.setBev_of_ne hx (f v))

/-- What one step does to the bucket of `b`. -/
theorem metered_step (ha : Conforming b s a) (hbound : ∀ tick, evTokenBucketGetTick s.now cfg = .ok
      tick → (evTokenBucketUpdate bucket cfg tick).limit .read < 2 ^ 31) :
    Partly (bevStep s a) (Reads cfg b bucket s (bytesRead b s a)) := by
  by_cases hplain : ∃ x, a.plain = some x
  · obtain ⟨x, hx⟩ := hplain
    refine (bevStep_plain s hx).mono ?_
    rintro _ ⟨bev, hsame, rfl⟩
    have hzero : bytesRead b s a = 0 := by cases a <;> first | rfl | cases hx
    rw [hzero]
    exact .keep (h.setBev x hsame.rate)
  cases a with
  | suspend x d what => exact .keep (h.setBev x (rateLimiting_suspend d _ what))
  | unsuspend x d what => exact .keep (h.setBev x (rateLimiting_unsuspend d _ what))
  | readcb x env =>
    by_cases hx : x = b
    · subst hx
      refine Yields.map ((h.readcb env hbound).mono_eq fun r heq hr => ?_)
      have hbytes : bytesRead x s (.readcb x env) = r.1.moved := by
        simp only [bytesRead, if_true, heq]
      rw [hbytes]
      exact hr (ha rfl r heq)
    · refine Yields.map ((readcb_path s x env).mono fun r hr => ?_)
      rw [show bytesRead b s (.readcb x env) = 0 from if_neg hx]
      exact .keep (h.io_of_ne hx hr)
  | writecb x env =>
    by_cases hx : x = b
    · subst hx
      exact Yields.map (h.writecb env)
    · exact Yields.map ((writecb_path s x env).mono fun r hr => Reads.keep (h.io_of_ne hx hr))
  | setRateLimit x _ | decrementLimit x _ _ =>
    exact Yields.map (h.call fun hx => absurd hx ha)
  | getLimit x d =>
    refine Yields.map (h.call fun hx => ?_)
    subst hx
    refine (buffereventGetLimit_cases d s.now (s.bevs x)).mono fun r hr => ?_
    obtain ⟨tick, htick, hmeter⟩ := h.refreshed hr
    exact .idle htick rfl (hmeter.set s x)
  | getMax x d =>
    refine Yields.map (h.call fun hx => ?_)
    subst hx
    refine (h.getRlimMax d s.now s.groups).mono ?_
    rintro r ⟨tick, bucket', htick, hbucket, hmeter, _⟩
    exact .idle htick hbucket (hmeter.set s x)
  | refill x =>
    refine Yields.map (h.call (f := id) fun hx => ?_)
    subst hx
    refine (h.refillCallback s.now).mono ?_
    rintro bev ⟨tick, htick, hmeter⟩
    exact .idle htick rfl (hmeter.set s x)
  | joinGroup | leaveGroup | decrementGroup | refillGroup | setGroupCfg | setMinShare =>
    exact (bevStep_group s (by trivial)).mono fun _ hpath => Reads.keep
      (hpath.all (metered_groupStable cfg bucket b) h.all b rfl)
  | elapse => exact .keep h
  | _ => exact absurd ⟨_, rfl⟩ hplain

end

/-- Time does not run backwards. -/
theorem now_step (s : BevSystem) (a : BevAction) :
    Partly (bevStep s a) fun s' => s.now ≤ s'.now := by
  cases a with
  | readcb b env =>
    exact Yields.map ((readcb_path s b env).mono fun _ ⟨_, _, hpath⟩ => hpath.now.ge)
  | writecb b env =>
    exact Yields.map ((writecb_path s b env).mono fun _ ⟨_, _, hpath⟩ => hpath.now.ge)
  | setwatermark | setRateLimit | decrementLimit | getLimit | getMax | refill =>
    exact Yields.map (Yields.of_forall fun _ => le_rfl)
  | joinGroup | leaveGroup | decrementGroup | refillGroup =>
    exact (bevStep_group s (by trivial)).mono fun _ hpath => hpath.now.ge
  | elapse msec => exact Nat.le_add_right s.now msec
  | _ => exact le_rfl

/-- The limit does not matter to `Synced`. -/
theorem TokenBucket.Synced.of_lastUpdated {u : Nat} (h : bucket.Synced u)
    (hlast : bucket'.lastUpdated = bucket.lastUpdated) : bucket'.Synced u := by
  obtain ⟨limit, last⟩ := bucket
  obtain ⟨limit', last'⟩ := bucket'
  obtain rfl : last' = last := hlast
  exact ⟨h.ticks⟩

/-- What is charged is taken out of the bucket. -/
theorem Tracked.charges {n : Nat} (h : Tracked cfg bucket l) (hcfg : CfgOk cfg)
    (hlater : l.tick ≤ now / cfg.msecPerTick) (hcharges : Charges cfg now n bucket bucket') :
    ∃ l', Tracked cfg bucket' l' ∧ l.Takes (cfg.maximum .read) (cfg.rate .read) n l' ∧
      l'.tick = now / cfg.msecPerTick := by
  obtain ⟨tick, updated, htick, hupdated, hlast, hlimit, hn⟩ := hcharges
  have htick := evTokenBucketGetTick_ok htick
  obtain ⟨l1, htracked, htakes, hl1⟩ := h.update hcfg hlater
  rw [← htick, ← hupdated] at htracked
  have hamount := htracked.amount
  have hnonneg := htracked.nonneg
  have hfull := htracked.full
  have hrefill := htakes.refill
  refine ⟨⟨l1.amount - n, l1.tick⟩, ⟨?_, htracked.synced.of_lastUpdated hlast, ?_, ?_⟩,
    ⟨htakes.later, ?_, ?_⟩, hl1⟩
  · rw [hlimit, hamount]
  · show 0 ≤ l1.amount - n
    omega
  · show l1.amount - n ≤ _
    omega
  · show l1.amount - n + n ≤ _
    omega
  · show l1.amount - n + n ≤ _
    simpa using hrefill

theorem tracks_step (hcfg : CfgOk cfg) (hsmall : cfg.maximum .read < 2 ^ 31) (h : Tracks cfg b l s)
    (ha : Conforming b s a) (hstep : bevStep s a = .ok s') : ∃ l',
      l.Takes (cfg.maximum .read) (cfg.rate .read) (bytesRead b s a) l' ∧
      (bytesRead b s a = 0 ∨ l'.tick = s.now / cfg.msecPerTick) ∧ Tracks cfg b l' s' := by
  obtain ⟨hlater, bucket, hmeter, htracked⟩ := h
  have hbound : ∀ tick, evTokenBucketGetTick s.now cfg = .ok tick →
      (evTokenBucketUpdate bucket cfg tick).limit .read < 2 ^ 31 := by
    intro tick htick
    obtain ⟨l', htracked', _⟩ := htracked.charges hcfg hlater (.idle htick rfl)
    have hfull := htracked'.full
    rw [htracked'.amount]
    omega
  have hnow := (now_step s a).of_ok hstep
  have hnow : s.now / cfg.msecPerTick ≤ s'.now / cfg.msecPerTick := Nat.div_le_div_right hnow
  obtain ⟨bucket', hmeter', ⟨rfl, hzero⟩ | hcharges⟩ := (metered_step hmeter ha hbound).of_ok hstep
  · rw [hzero]
    exact ⟨l, .zero le_rfl htracked.full (by simp), .inl rfl, hlater.trans hnow, bucket', hmeter',
      htracked⟩
  · obtain ⟨l', htracked', htakes, htick⟩ := htracked.charges hcfg hlater hcharges
    exact ⟨l', htakes, .inr htick, htick.le.trans hnow, bucket', hmeter', htracked'⟩

/-- A configuration that is the first one of a bufferevent starts with one tick's worth. -/
theorem tracks_setRateLimit (hcfg : CfgOk cfg)
    (hnone : (s.bevs b).rateLimiting.bind RateLimit.cfg = none)
    (hset : buffereventSetRateLimit s.now (s.bevs b) (some cfg) = .ok (0, bev)) :
    ∃ l, Tracks cfg b l (s.setBev b bev) := by
  obtain ⟨hsame, _⟩ | ⟨_, hfail⟩ | ⟨rlim, mm, tick, _, htick, hrlim, heq⟩ :=
    (buffereventSetRateLimit_cases s.now (s.bevs b) cfg).of_ok hset
  · rw [hnone] at hsame
    cases hsame
  · cases hfail
  have hold : rlim.cfg = none := by
    rcases hrlim with hr | ⟨_, rfl⟩
    · rw [hr] at hnone
      exact hnone
    · rfl
  rw [hold] at heq
  obtain rfl := congrArg Prod.snd heq
  have htick := evTokenBucketGetTick_ok htick
  refine ⟨⟨cfg.rate .read, s.now / cfg.msecPerTick⟩, le_rfl,
    ⟨fun d => cfg.rate d, tick⟩, ?_, ⟨rfl, ⟨.inl ?_⟩, ?_, ?_⟩⟩
  · rw [bevs_setBev_self]
    refine (Metered.timerStable cfg _).installed ?_ _
    exact ⟨_, rfl, rfl, rfl⟩
  · show (s.now / cfg.msecPerTick % 2 ^ 32 + 2 ^ 32 - tick) % 2 ^ 32 = 0
    omega
  · exact Int.natCast_nonneg _
  · show ((cfg.rate .read : Nat) : Int) ≤ cfg.maximum .read
    exact_mod_cast hcfg.burst .read

/-- A bufferevent keeps to its read limit. `s` is a system in which the bufferevent `b` has no
configuration, and `cfg` is the one that it gets. -/
theorem readIn_le {addr msec : Nat} {rate burst : Dir → Nat} {as : List BevAction}
    (hnew : evTokenBucketCfgNew addr rate burst msec = some cfg)
    (hsmall : ∀ d, cfg.maximum d < 2 ^ 31)
    (hnone : (s.bevs b).rateLimiting.bind RateLimit.cfg = none)
    (hset : buffereventSetRateLimit s.now (s.bevs b) (some cfg) = .ok (0, bev))
    (hsteps : Meets bevStep (Conforming b) (s.setBev b bev) as) :
    (∀ lo hi, lo ≤ hi → readIn b cfg.msecPerTick lo hi (s.setBev b bev) as ≤
      cfg.maximum .read + (hi - lo) * cfg.rate .read) ∧
    ∀ s', run bevStep (s.setBev b bev) as = .ok s' →
      ∃ rlim, (s'.bevs b).rateLimiting = some rlim ∧ 0 ≤ rlim.limit.limit .read := by
  have hcfg := cfgOk_of_new hnew
  obtain ⟨l, hl⟩ := tracks_setRateLimit hcfg hnone hset
  have hstep : ∀ l s a s', Tracks cfg b l s → Conforming b s a → bevStep s a = .ok s' → ∃ l',
      l.Takes (cfg.maximum .read) (cfg.rate .read) (bytesRead b s a) l' ∧
      (bytesRead b s a = 0 ∨ l'.tick = s.now / cfg.msecPerTick) ∧ Tracks cfg b l' s' :=
    fun l s a s' h ha => tracks_step hcfg (hsmall .read) h ha
  refine ⟨fun lo hi hlohi => ?_, fun s' hrun => ?_⟩
  · have hspent := spentIn_le lo hi (fun l s h => by
      obtain ⟨_, bucket, _, htracked⟩ := h
      exact htracked.nonneg) hstep hl hsteps
    obtain ⟨_, bucket, _, htracked⟩ := hl
    have hle := hspent.trans (Level.budget_le (cfg.rate .read) hlohi htracked.full)
    exact_mod_cast hle
  have hinv : ∃ l', Tracks cfg b l' s' := by
    refine run_invariant (I := fun s => ∃ l', Tracks cfg b l' s) (fun s a s' h ha heq => ?_)
      ⟨l, hl⟩ hsteps hrun
    obtain ⟨l, hl⟩ := h
    obtain ⟨l', _, _, hl'⟩ := hstep l s a s' hl ha heq
    exact ⟨l', hl'⟩
  obtain ⟨l', _, bucket, ⟨rlim, hr, _, rfl⟩, htracked⟩ := hinv
  exact ⟨rlim, hr, htracked.amount ▸ htracked.nonneg⟩

/-- Two bytes in each tick of ten milliseconds, and at most three at once. -/
def twoPerTick : TokenBucketCfg :=
  { addr := 1, rate := fun _ => 2, maximum := fun _ => 3, msecPerTick := 10 }

/-- The limit is used up, refilled and used again. -/
def twoTicks : List BevAction :=
  [.readcb 0 { result := .ok 2 }, .elapse 10, .refill 0, .readcb 0 { result := .ok 1 }]

/-- A read is conforming when it was asked for `n` bytes and returns at most that. -/
theorem conforming_readcb {n : Nat}
    (hasked : (buffereventReadcb s b env).map (fun r => r.1.asked) = .ok (some n))
    (hresult : ∀ k, env.result = .ok k → k ≤ n) : Conforming b s (.readcb b env) := by
  intro _ r hr n' k hn' hk
  rw [hr] at hasked
  obtain rfl := Option.some.inj (hn'.symm.trans (Except.ok.inj hasked))
  exact hresult k hk

/-- In two ticks at most five bytes are read. -/
theorem readIn_le_twoTicks : ∃ bev,
    buffereventSetRateLimit 0 (freshSystem.bevs 0) (some twoPerTick) = .ok (0, bev) ∧
    readIn 0 10 0 1 (freshSystem.setBev 0 bev) twoTicks ≤ 3 + (1 - 0) * 2 := by
  have hnew : evTokenBucketCfgNew 1 (fun _ => 2) (fun _ => 3) 10 = some twoPerTick := rfl
  have hsmall : ∀ d, twoPerTick.maximum d < 2 ^ 31 := fun _ => by
    show 3 < 2 ^ 31
    norm_num
  refine ⟨_, rfl, (readIn_le hnew hsmall rfl rfl ?_).1 0 1 (by decide)⟩
  refine Meets.cons (conforming_readcb (n := 2) rfl ?_) rfl (Meets.cons trivial rfl
    (Meets.cons trivial rfl (Meets.cons (conforming_readcb (n := 2) rfl ?_) rfl trivial)))
  all_goals
    rintro k ⟨⟩
    decide

end Libevent
