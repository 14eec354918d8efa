import Libevent.Proofs.Bufferevent.Pending

/-!
# `Libevent.Proofs.Bufferevent.Wakeup`: rate limiting does not lose a wake-up

`Woken bev`: a direction that is suspended because its bucket is empty has the refill timer
pending, and a direction whose limit is used up is suspended.

`bevRun_woken`: this holds in every state of every run in which `event_add` succeeds and no update
wraps a limit around. `woken_lost`: a limit that was raised above the maximum is not cut back by
`ev_token_bucket_update_`, since its difference to the maximum is unsigned; a limit close to
`2 ^ 63` turns negative with the next tick, with nothing suspended.
-/

namespace Libevent

open Lib SuspendReason

variable {bev bev' : Bufferevent} {d : Dir} {what : SuspendFlags} {cfg : TokenBucketCfg}
  {bucket : TokenBucket} {now : Nat}

/-! ### The invariant -/

/-- No wake-up is lost. -/
structure Woken (bev : Bufferevent) : Prop where
  pending : ∀ d, bw ∈ bev.suspended d →
    ∃ rlim, bev.rateLimiting = some rlim ∧ rlim.refillPending = true
  limit : ∀ rlim, bev.rateLimiting = some rlim → rlim.cfg.isSome = true → ∀ d,
    rlim.limit.limit d ≤ 0 → bw ∈ bev.suspended d

/-- The invariant. Without a configuration, nothing is suspended because of bandwidth: the refill
callback does nothing then. -/
structure RefillInv (bev : Bufferevent) : Prop where
  woken : Woken bev
  used : ∀ rlim d, bev.rateLimiting = some rlim → bw ∈ bev.suspended d → rlim.cfg.isSome = true
  cfg : ∀ rlim cfg, bev.rateLimiting = some rlim → rlim.cfg = some cfg → CfgOk cfg
  mm : bev.mm.Reliable

/-- The invariant looks at the flag for bandwidth and at the rate limit. -/
theorem RefillInv.of_fields (h : RefillInv bev)
    (hbw : ∀ d, bw ∈ bev'.suspended d ↔ bw ∈ bev.suspended d)
    (hrate : bev'.rateLimiting = bev.rateLimiting) (hfails : bev'.mm.fails = bev.mm.fails) :
    RefillInv bev' where
  woken :=
    { pending := fun d hd => by rw [hrate]; exact h.woken.pending d ((hbw d).mp hd)
      limit := fun rlim hr hcfg d hle =>
        (hbw d).mpr (h.woken.limit rlim (hrate ▸ hr) hcfg d hle) }
  used := fun rlim d hr hd => h.used rlim d (hrate ▸ hr) ((hbw d).mp hd)
  cfg := fun rlim cfg hr hcfg => h.cfg rlim cfg (hrate ▸ hr) hcfg
  mm := h.mm.congr hfails

theorem RefillInv.same (h : RefillInv bev) (hsame : SameRate what bev bev')
    (hwhat : bw ∉ what) : RefillInv bev' :=
  h.of_fields (hsame.flags _ hwhat) hsame.rate hsame.fails

/-- Calls that do not concern rate limits. -/
theorem RefillInv.plain (h : RefillInv bev) (hsame : SameRate {.wm} bev bev') : RefillInv bev' :=
  h.same hsame (by decide)

/-! ### Updates -/

/-- An update cannot wrap the limits around: they are not above the maximum, or far from
`2 ^ 63`. -/
def TokenBucket.Unwrapped (bucket : TokenBucket) (cfg : TokenBucketCfg) (tick : Nat) : Prop :=
  ∀ d, bucket.limit d ≤ cfg.maximum d ∨ bucket.limit d + bucket.ticks tick * cfg.rate d < 2 ^ 63

/-- A limit that is not used up is not used up after a refill. -/
theorem refillLimit_pos {nTicks : Nat} {limit : Int} (hcfg : CfgOk cfg) (hn : nTicks ≠ 0)
    (hwrap : limit ≤ cfg.maximum d ∨ limit + nTicks * cfg.rate d < 2 ^ 63) (hpos : 0 < limit) :
    0 < refillLimit cfg d nTicks limit := by
  have hrate := hcfg.rate d
  have hburst := hcfg.burst d
  have hprod : (0 : Int) ≤ nTicks * cfg.rate d := by positivity
  rcases hwrap with hle | hlt
  · rw [refillLimit_eq_min hcfg hn (by omega) hle]
    omega
  unfold refillLimit
  split
  · omega
  have hsame : ssizeOf (limit + nTicks * cfg.rate d) = limit + nTicks * cfg.rate d :=
    Int.bmod_eq_of_le (by omega) (by omega)
  omega

theorem evTokenBucketUpdate_pos {tick : Nat} (hcfg : CfgOk cfg) (hwrap : bucket.Unwrapped cfg tick)
    (hpos : 0 < bucket.limit d) :
    0 < (evTokenBucketUpdate bucket cfg tick).limit d := by
  rcases evTokenBucketUpdate_cases bucket cfg tick with ⟨_, heq⟩ | ⟨hn, _, heq⟩
  · rw [heq]
    exact hpos
  rw [heq]
  show 0 < refillLimit cfg d (bucket.ticks tick) (bucket.limit d)
  exact refillLimit_pos hcfg hn (hwrap d) hpos

/-- No update of the bucket wraps a limit around now. -/
def Bufferevent.Unwrapped (now : Nat) (bev : Bufferevent) : Prop :=
  ∀ rlim cfg tick, bev.rateLimiting = some rlim → rlim.cfg = some cfg →
    evTokenBucketGetTick now cfg = .ok tick → rlim.limit.Unwrapped cfg tick

/-! ### Functions that change the rate limit -/

/-- The invariant but for the timer, when the rate limit is `rlim`. -/
structure Charged (bev : Bufferevent) (rlim : RateLimit) : Prop where
  rate : bev.rateLimiting = some rlim
  limit : rlim.cfg.isSome = true → ∀ d, rlim.limit.limit d ≤ 0 → bw ∈ bev.suspended d
  used : ∀ d, bw ∈ bev.suspended d → rlim.cfg.isSome = true
  cfg : ∀ cfg, rlim.cfg = some cfg → CfgOk cfg
  mm : bev.mm.Reliable

variable {rlim : RateLimit}

/-- The timer is pending when it is needed. -/
theorem Charged.refillInv (h : Charged bev rlim)
    (hpending : ∀ d, bw ∈ bev.suspended d → rlim.refillPending = true) :
    RefillInv bev where
  woken :=
    { pending := fun d hd => ⟨rlim, h.rate, hpending d hd⟩
      limit := fun r hr hcfg => by
        cases h.rate.symm.trans hr
        exact h.limit hcfg }
  used r d hr hd := by
    cases h.rate.symm.trans hr
    exact h.used d hd
  cfg r cfg hr hcfg := by
    cases h.rate.symm.trans hr
    exact h.cfg cfg hcfg
  mm := h.mm

/-- The timer is added. -/
theorem Charged.addRefill (h : Charged bev rlim) : RefillInv bev.addRefill.2 := by
  have heq : bev.addRefill.2 = { bev with
      rateLimiting := some { rlim with refillPending := true }, mm := bev.mm.alloc.2 } := by
    unfold Bufferevent.addRefill
    rw [if_pos h.mm.alloc_fst, h.rate]
    rfl
  rw [heq]
  exact Charged.refillInv ⟨rfl, h.limit, h.used, h.cfg, h.mm⟩ fun _ _ => rfl

/-- Nothing waits for the timer, which is deleted. -/
theorem Charged.delRefill (h : Charged bev rlim) (hidle : ∀ d, bw ∉ bev.suspended d) :
    RefillInv bev.delRefill := by
  have heq : bev.delRefill =
      { bev with rateLimiting := some { rlim with refillPending := false } } := by
    rw [Bufferevent.delRefill, h.rate]
    rfl
  rw [heq]
  exact Charged.refillInv ⟨rfl, h.limit, h.used, h.cfg, h.mm⟩ fun d hd => absurd hd (hidle d)

namespace RefillInv

variable {left : Int}

section
variable (h : RefillInv bev) (hr : bev.rateLimiting = some rlim)
include h hr

theorem charged : Charged bev rlim :=
  ⟨hr, h.woken.limit rlim hr, fun d => h.used rlim d hr, fun cfg => h.cfg rlim cfg hr, h.mm⟩

theorem refillPending (hd : bw ∈ bev.suspended d) : rlim.refillPending = true := by
  obtain ⟨r, hr', hpending⟩ := h.woken.pending d hd
  cases hr.symm.trans hr'
  exact hpending

omit hr in
/-- Nothing waits for the timer, which is deleted. -/
theorem of_idle (hidle : ∀ d, bw ∉ bev.suspended d) : RefillInv bev.delRefill := by
  cases hr : bev.rateLimiting with
  | none =>
    have heq : bev.delRefill = bev := by
      rw [Bufferevent.delRefill, hr, Option.map_none, ← hr]
    rw [heq]
    exact h
  | some rlim => exact (h.charged hr).delRefill hidle

/-- The bucket changes, and what is used up then is suspended already. -/
theorem withBucket
    (hlimit : rlim.cfg.isSome = true → ∀ x, bucket.limit x ≤ 0 → bw ∈ bev.suspended x) :
    RefillInv (bev.withBucket rlim bucket) :=
  Charged.refillInv ⟨rfl, hlimit, fun d => h.used rlim d hr, fun cfg => h.cfg rlim cfg hr, h.mm⟩
    fun _ hx => show rlim.refillPending = true from h.refillPending hr hx

/-- The limit of one direction changes. -/
theorem withLimit (hleft : left ≤ 0 → bw ∈ bev.suspended d) :
    RefillInv (bev.withLimit rlim d left) := by
  refine h.withBucket hr fun hcfg x hle => ?_
  by_cases hx : x = d
  · subst hx
    exact hleft (by simpa using hle)
  · rw [TokenBucket.withLimit_of_ne hx] at hle
    exact h.woken.limit rlim hr hcfg x hle

/-- Nothing is left in one direction. -/
theorem exhaust (hcfg : rlim.cfg = some cfg) (d : Dir) (left : Int) :
    RefillInv ((bev.withLimit rlim d left).exhaust d) := by
  have hsome : rlim.cfg.isSome = true := by rw [hcfg]; rfl
  refine Charged.addRefill ⟨rateLimiting_suspend d _ {.bw},
    fun _ x hle => ?_, fun _ _ => hsome, fun cfg => h.cfg rlim cfg hr,
      h.mm.congr (SameRate.suspend ..).fails⟩
  rw [mem_suspend_self]
  by_cases hx : x = d
  · exact .inl hx
  · rw [TokenBucket.withLimit_of_ne hx] at hle
    exact .inr (h.woken.limit rlim hr hsome x hle)

/-- Something is left again in one direction. -/
theorem resume (hleft : 0 < left) : RefillInv ((bev.withLimit rlim d left).resume d) := by
  have hlimit : rlim.cfg.isSome = true → ∀ x, (rlim.limit.withLimit d left).limit x ≤ 0 →
      x ≠ d ∧ bw ∈ bev.suspended x := fun hcfg x hle => by
    by_cases hx : x = d
    · subst hx
      rw [TokenBucket.withLimit_self] at hle
      exact absurd hle (not_le.mpr hleft)
    · rw [TokenBucket.withLimit_of_ne hx] at hle
      exact ⟨hx, h.woken.limit rlim hr hcfg x hle⟩
  -- `base` has the timer of before, or none
  have hgo : ∀ base rlim', base.suspended = bev.suspended → base.rateLimiting = some rlim' →
      rlim'.limit = rlim.limit.withLimit d left → rlim'.cfg = rlim.cfg → base.mm = bev.mm →
      (∀ x, x ≠ d → bw ∈ bev.suspended x → rlim'.refillPending = true) →
      RefillInv (buffereventUnsuspend d base {.bw}) := by
    intro base rlim' hsuspended hr' hbucket hcfg' hmm hpending
    have hbw : ∀ x, _ := mem_unsuspend_self (r := .bw) base d
    simp only [hsuspended] at hbw
    have hsame := SameRate.unsuspend d base {.bw}
    have hcharged : Charged (buffereventUnsuspend d base {.bw}) rlim' := by
      refine ⟨hsame.rate.trans hr', fun hcfg x hle => ?_, fun x hx => ?_, fun cfg hcfg => ?_,
        (hmm ▸ h.mm : base.mm.Reliable).congr hsame.fails⟩
      · rw [hcfg'] at hcfg
        rw [hbucket] at hle
        exact (hbw x).mpr (hlimit hcfg x hle)
      · rw [hcfg']
        exact h.used rlim x hr ((hbw x).mp hx).2
      · exact h.cfg rlim cfg hr (hcfg' ▸ hcfg)
    refine hcharged.refillInv fun x hx => ?_
    exact hpending x ((hbw x).mp hx).1 ((hbw x).mp hx).2
  unfold Bufferevent.resume
  split
  · -- the other direction waits for the timer
    exact hgo _ { rlim with limit := rlim.limit.withLimit d left } rfl rfl rfl rfl rfl
      fun _ _ hbw => show rlim.refillPending = true from h.refillPending hr hbw
  · next hother =>
    exact hgo _ { rlim with limit := rlim.limit.withLimit d left, refillPending := false }
      rfl rfl rfl rfl rfl fun x hx hbw => absurd (eq_other_of_ne hx ▸ hbw) hother

theorem spent (hcfg : rlim.cfg = some cfg) (hspent : Spent bev rlim d left bev') :
    RefillInv bev' := by
  cases hspent with
  | exhaust => exact h.exhaust hr hcfg d left
  | resume hleft => exact h.resume hr hleft
  | keep hleft =>
    -- a limit that was used up before belongs to a direction that is suspended
    exact h.withLimit hr fun hle => h.woken.limit rlim hr (by rw [hcfg]; rfl) d (hleft hle)

/-- What is used up after an update was used up before it. -/
theorem of_update {tick : Nat} (hcfg : rlim.cfg = some cfg)
    (hwrap : rlim.limit.Unwrapped cfg tick) (x : Dir)
    (hle : (evTokenBucketUpdate rlim.limit cfg tick).limit x ≤ 0) : bw ∈ bev.suspended x := by
  refine h.woken.limit rlim hr (by rw [hcfg]; rfl) x (not_lt.mp fun hpos => ?_)
  exact absurd (evTokenBucketUpdate_pos (h.cfg rlim cfg hr hcfg) hwrap hpos) (not_lt.mpr hle)

end

theorem decrementBuckets (h : RefillInv bev) (d : Dir) (bytes : Int) :
    RefillInv (buffereventDecrementBuckets d bev bytes).2 := by
  rcases buffereventDecrementBuckets_cases d bev bytes with
    ⟨-, heq⟩ | ⟨rlim, cfg, hr, hcfg, hspent⟩
  · rw [heq]
    exact h
  · exact h.spent hr hcfg hspent

theorem refreshed {base : Bufferevent} (h : RefillInv bev) (hwrap : bev.Unwrapped now)
    (hbase : bev.Refreshed now base) : RefillInv base := by
  obtain ⟨_, rfl⟩ | ⟨rlim, cfg, tick, hr, hcfg, htick, rfl⟩ := hbase
  · exact h
  · exact h.withBucket hr fun _ => h.of_update hr hcfg (hwrap rlim cfg tick hr hcfg htick)

theorem getRlimMax (h : RefillInv bev) (d : Dir) (hwrap : bev.Unwrapped now)
    (group : GroupId → RateGroup) :
    Partly (buffereventGetRlimMax d now group bev) fun r => RefillInv r.2 :=
  getRlimMax_keeps (fun _ => h.refreshed hwrap)
    (fun _ hbase => hbase.same (.suspend d _ _) (by decide)) group

end RefillInv

/-! ### Refills and configurations -/

/-- `r` is the bufferevent after one direction was suspended or not, by its limit, and whether it
waits for the next tick. -/
structure Settles (d : Dir) (limit : TokenBucket) (bev : Bufferevent) (r : Bool × Bufferevent) :
    Prop where
  rate : r.2.rateLimiting = bev.rateLimiting
  other : ∀ x, x ≠ d → (bw ∈ r.2.suspended x ↔ bw ∈ bev.suspended x)
  waits : bw ∈ r.2.suspended d → r.1 = true
  limit : limit.limit d ≤ 0 → bw ∈ r.2.suspended d
  mm : r.2.mm.Reliable

theorem settles_unsuspend {limit : TokenBucket} {waits : Bool} (hmm : bev.mm.Reliable)
    (hpos : 0 < limit.limit d) : Settles d limit bev (waits, buffereventUnsuspend d bev {.bw}) where
  rate := rateLimiting_unsuspend d bev {.bw}
  other x hx := (mem_unsuspend_self bev d x).trans (and_iff_right hx)
  waits h := absurd rfl ((mem_unsuspend_self bev d d).mp h).1
  limit hle := absurd hle (not_le.mpr hpos)
  mm := hmm.congr (SameRate.unsuspend ..).fails

theorem refillDir_settles (bev : Bufferevent) (rlim : RateLimit) (d : Dir) (hmm : bev.mm.Reliable)
    (hlimit : rlim.limit.limit d ≤ 0 → bw ∈ bev.suspended d) :
    Settles d rlim.limit bev (refillDir d rlim bev) := by
  unfold refillDir
  split
  · next hbw =>
    split
    · next hpos =>
      exact settles_unsuspend hmm hpos
    · exact ⟨rfl, fun _ _ => Iff.rfl, fun _ => rfl, fun _ => hbw, hmm⟩
  · next hbw => exact ⟨rfl, fun _ _ => Iff.rfl, fun h => absurd h hbw, hlimit, hmm⟩

theorem setRateLimitDir_settles (d : Dir) (limit : TokenBucket) (hmm : bev.mm.Reliable) :
    Settles d limit bev (setRateLimitDir d limit bev) := by
  unfold setRateLimitDir
  split
  · next hpos =>
    exact settles_unsuspend hmm hpos
  exact ⟨rateLimiting_suspend d bev {.bw},
    fun x hx => (mem_suspend_self bev d x).trans (or_iff_right hx), fun _ => rfl,
    fun _ => (mem_suspend_self bev d d).mpr (.inl rfl), hmm.congr (SameRate.suspend ..).fails⟩

/-- Both directions, one after the other, and then the timer. -/
theorem Settles.refillInv {r w : Bool × Bufferevent} (hr : bev.rateLimiting = some rlim)
    (hcfg : rlim.cfg = some cfg) (hok : CfgOk cfg) (hread : Settles .read rlim.limit bev r)
    (hwrite : Settles .write rlim.limit r.2 w) :
    RefillInv (if r.1 || w.1 then w.2.addRefill.2 else w.2) := by
  have hcharged : Charged w.2 rlim := by
    refine ⟨hwrite.rate.trans (hread.rate.trans hr), fun _ d hle => ?_,
      fun _ _ => by rw [hcfg]; rfl, fun cfg' hcfg' => ?_, hwrite.mm⟩
    · cases d with
      | read => exact (hwrite.other .read (by decide)).mpr (hread.limit hle)
      | write => exact hwrite.limit hle
    · cases hcfg.symm.trans hcfg'
      exact hok
  split
  · exact hcharged.addRefill
  next hnone =>
  simp only [Bool.or_eq_true, not_or, Bool.not_eq_true] at hnone
  refine hcharged.refillInv fun d hd => ?_
  cases d with
  | read =>
    have hwaits := hread.waits ((hwrite.other .read (by decide)).mp hd)
    cases hnone.1.symm.trans hwaits
  | write =>
    have hwaits := hwrite.waits hd
    cases hnone.2.symm.trans hwaits

section
variable (rlim : RateLimit) (hr : bev.rateLimiting = some rlim) (hcfg : rlim.cfg = some cfg)
  (hok : CfgOk cfg) (hmm : bev.mm.Reliable)
include hr hcfg hok hmm

/-- What `bufferevent_set_rate_limit` does with a bucket. -/
theorem refillInv_installed : RefillInv (bev.installed rlim.limit) := by
  have hread := setRateLimitDir_settles .read rlim.limit hmm
  exact hread.refillInv hr hcfg hok (setRateLimitDir_settles .write rlim.limit hread.mm)

theorem refillInv_refilled (hlimit : ∀ d, rlim.limit.limit d ≤ 0 → bw ∈ bev.suspended d) :
    RefillInv (bev.refilled rlim) := by
  have hread := refillDir_settles bev rlim .read hmm (hlimit .read)
  have hwrite := refillDir_settles _ rlim .write hread.mm fun hle =>
    (hread.other .write (by decide)).mpr (hlimit .write hle)
  exact hread.refillInv hr hcfg hok hwrite

end

namespace RefillInv

/-- What the refill callback does once the bucket is updated. -/
theorem refilled (h : RefillInv bev) (hr : bev.rateLimiting = some rlim)
    (hcfg : rlim.cfg = some cfg) (hlimit : ∀ d, bucket.limit d ≤ 0 → bw ∈ bev.suspended d) :
    RefillInv ((bev.delRefill.withBucket { rlim with refillPending := false } bucket).refilled
      { rlim with refillPending := false, limit := bucket }) :=
  refillInv_refilled _ rfl hcfg (h.cfg rlim cfg hr hcfg) h.mm hlimit

theorem refillCallback (h : RefillInv bev) (hwrap : bev.Unwrapped now) :
    Partly (bevRefillCallback now bev) RefillInv := by
  refine (bevRefillCallback_cases now bev).mono ?_
  rintro _ (⟨hnone, rfl⟩ | ⟨rlim, cfg, tick, hr, hcfg, htick, rfl⟩)
  · refine h.of_idle fun d hd => ?_
    obtain ⟨rlim, hr, _⟩ := h.woken.pending d hd
    rw [hr] at hnone
    cases Option.isSome_iff_ne_none.mp (h.used rlim d hr hd) hnone
  · exact h.refilled hr hcfg (h.of_update hr hcfg (hwrap rlim cfg tick hr hcfg htick))

/-- The configuration is taken away. -/
theorem clear (hmm : bev.mm.Reliable) (hr : bev.rateLimiting = some rlim) (hcfg : rlim.cfg = none) :
    RefillInv (buffereventUnsuspend .write (buffereventUnsuspend .read bev {.bw})
      {.bw}).delRefill := by
  have hsame := SameRate.unsuspend .read bev {.bw}
  have hsame' := SameRate.unsuspend .write (buffereventUnsuspend .read bev {.bw}) {.bw}
  have hmm := hmm.congr (hsame'.fails.trans hsame.fails)
  have hread := mem_unsuspend_self (r := .bw) bev .read
  have hwrite := mem_unsuspend_self (r := .bw) (buffereventUnsuspend .read bev {.bw}) .write
  have hrate := hsame'.rate.trans (hsame.rate.trans hr)
  generalize buffereventUnsuspend .write (buffereventUnsuspend .read bev {.bw}) {.bw} = bev' at *
  have hidle : ∀ d, bw ∉ bev'.suspended d := by
    intro d hd
    cases d with
    | read => exact ((hread .read).mp ((hwrite .read).mp hd).2).1 rfl
    | write => exact ((hwrite .write).mp hd).1 rfl
  have hcharged : Charged bev' rlim := by
    refine ⟨hrate, fun hsome => ?_, fun d hd => absurd hd (hidle d), fun cfg hsome => ?_, hmm⟩
    · rw [hcfg] at hsome
      cases hsome
    · cases hcfg.symm.trans hsome
  exact hcharged.delRefill hidle

theorem setRateLimit (h : RefillInv bev) (now : Nat) {cfg : Option TokenBucketCfg}
    (hok : ∀ c, cfg = some c → CfgOk c) :
    Partly (buffereventSetRateLimit now bev cfg) fun r => RefillInv r.2 := by
  cases cfg with
  | none =>
    unfold buffereventSetRateLimit
    cases hr : bev.rateLimiting with
    | none => exact h
    | some rlim => exact clear h.mm rfl rfl
  | some cfg =>
    refine (buffereventSetRateLimit_cases now bev cfg).mono ?_
    rintro _ (⟨_, rfl⟩ | ⟨_, rfl⟩ | ⟨rlim, mm, tick, hfails, _, _, rfl⟩)
    · exact h
    · exact h.of_fields (fun _ => Iff.rfl) rfl rfl
    · exact refillInv_installed { rlim with
          cfg := some cfg
          limit := evTokenBucketInit rlim.limit cfg tick rlim.cfg.isSome
          refillPending := false } rfl rfl (hok cfg rfl) (h.mm.congr hfails)

end RefillInv

/-! ### Whole systems -/

theorem refillInv_groupStable : GroupStable (fun _ => RefillInv) := by
  intro b bev bev' hmove h
  cases hmove with
  | suspend d => exact h.same (.suspend d _ _) (by decide)
  | unsuspend d => exact h.same (.unsuspend d _ _) (by decide)
  | group g hr =>
    have hc := h.charged hr
    refine Charged.refillInv ⟨rfl, hc.limit, hc.used, hc.cfg, hc.mm⟩ fun d hd => ?_
    have hpending := h.refillPending hr hd
    exact hpending
  | alloc => exact h.of_fields (fun _ => Iff.rfl) rfl rfl
  | create hnone =>
    have hidle : ∀ d, bw ∉ bev.suspended d := fun d hd => by
      obtain ⟨r, hr, _⟩ := h.woken.pending d hd
      cases hnone.symm.trans hr
    refine Charged.refillInv ⟨rfl, fun hcfg => ?_, fun d hd => absurd hd (hidle d),
      fun cfg hcfg => ?_, h.mm⟩ fun d hd => absurd hd (hidle d)
    · cases hcfg
    · cases hcfg

theorem refillInv_ioStable (b : BevId) : IoStable (fun _ => RefillInv) b := by
  intro bev bev' hmove h
  cases hmove with
  | disable event => exact h.plain (.disable _ event)
  | full => exact h.plain (.suspend .read _ _)
  | freezeInput => exact h.of_fields (fun _ => Iff.rfl) rfl rfl
  | freezeOutput => exact h.of_fields (fun _ => Iff.rfl) rfl rfl
  | setInput len => exact h.plain (.setInput _ len)
  | drain n => exact h.of_fields (fun _ => Iff.rfl) rfl rfl
  | delIfDrained => exact h.plain (.delIfDrained _)
  | charge d bytes => exact h.decrementBuckets d bytes

variable {s s' : BevSystem}

/-- The steps that are excluded: other code that uses the flag of the rate limits, a configuration
that `ev_token_bucket_cfg_new` does not make, and an update that wraps a limit around. -/
def Unlosing (s : BevSystem) : BevAction → Prop
  | .suspend _ _ what => bw ∉ what
  | .unsuspend _ _ what => bw ∉ what
  | .setRateLimit _ cfg => ∀ c, cfg = some c → CfgOk c
  | .readcb b _ => (s.bevs b).Unwrapped s.now
  | .writecb b _ => (s.bevs b).Unwrapped s.now
  | .getLimit b _ => (s.bevs b).Unwrapped s.now
  | .getMax b _ => (s.bevs b).Unwrapped s.now
  | .refill b => (s.bevs b).Unwrapped s.now
  | _ => True

/-- A step loses no refill. -/
theorem refill_step (h : s.All (fun _ => RefillInv)) {a : BevAction} (ha : Unlosing s a) :
    Partly (bevStep s a) (BevSystem.All (fun _ => RefillInv)) := by
  have hgroup := refillInv_groupStable
  by_cases hplain : ∃ b, a.plain = some b
  · obtain ⟨b, hb⟩ := hplain
    refine (bevStep_plain s hb).mono ?_
    rintro _ ⟨bev, hsame, rfl⟩
    exact h.setBev b ((h b).plain hsame)
  cases a with
  | suspend b d what => exact h.setBev b ((h b).same (.suspend d _ _) ha)
  | unsuspend b d what => exact h.setBev b ((h b).same (.unsuspend d _ _) ha)
  | readcb b env =>
    exact Yields.map ((readcb_path s b env).mono fun _ => Allowed.all hgroup
      (refillInv_ioStable b) h ((h b).getRlimMax .read ha s.groups))
  | writecb b env =>
    exact Yields.map ((writecb_path s b env).mono fun _ => Allowed.all hgroup
      (refillInv_ioStable b) h ((h b).getRlimMax .write ha s.groups))
  | setRateLimit b cfg =>
    exact h.tryBev b ((h b).setRateLimit s.now ha)
  | decrementLimit b d decr =>
    refine h.tryBev b ((buffereventDecrementLimit_cases d (s.bevs b) decr).mono ?_)
    rintro r ⟨rlim, cfg, hr, hcfg, hspent⟩
    exact (h b).spent hr hcfg hspent
  | getLimit b d =>
    exact h.tryBev b ((buffereventGetLimit_cases d s.now _).mono fun _ => (h b).refreshed ha)
  | getMax b d =>
    exact h.tryBev b ((h b).getRlimMax d ha s.groups)
  | refill b => exact Yields.map (((h b).refillCallback ha).mono fun _ hbev => h.setBev b hbev)
  | joinGroup | leaveGroup | decrementGroup | refillGroup | setGroupCfg | setMinShare =>
    exact (bevStep_group s (by trivial)).mono fun _ hpath => hpath.all hgroup h
  | elapse msec => exact h
  | _ => exact absurd ⟨_, rfl⟩ hplain

/-! ### Runs -/

theorem refillInv_fresh {mm : Mm} (hmm : mm.Reliable) : RefillInv { mm := mm } where
  woken := ⟨fun d hd => absurd hd (by simp), fun rlim hr => by cases hr⟩
  used rlim d hr := by cases hr
  cfg rlim cfg hr := by cases hr
  mm := hmm

/-- No wake-up is lost, in any run in which `event_add` succeeds and no step is one of those
excluded by `Unlosing`. -/
theorem bevRun_woken {as : List BevAction} (hfresh : s.Fresh)
    (hmm : ∀ b, (s.bevs b).mm.Reliable) (hsteps : Meets bevStep Unlosing s as)
    (hrun : run bevStep s as = .ok s') : ∀ b, Woken (s'.bevs b) := by
  have hstart : s.All (fun _ => RefillInv) := fun b => by
    rw [hfresh b]
    exact refillInv_fresh (hmm b)
  have hall := Yields.run (E := fun _ => True) (fun s a h ha => refill_step h ha) hstart hsteps
  exact fun b => (hall.of_ok hrun b).woken

/-- Limits that are not above the maximum do not wrap around. -/
theorem unwrapped_of_le (now : Nat) (h : ∀ rlim cfg, bev.rateLimiting = some rlim →
    rlim.cfg = some cfg → ∀ d, rlim.limit.limit d ≤ cfg.maximum d) : bev.Unwrapped now :=
  fun rlim cfg _ hr hcfg _ d => .inl (h rlim cfg hr hcfg d)

/-- One byte in each millisecond. -/
def slowCfg : TokenBucketCfg :=
  { addr := 1, rate := fun _ => 1, maximum := fun _ => 1, msecPerTick := 1 }

theorem slowCfg_ok : CfgOk slowCfg := by
  have hnew : evTokenBucketCfgNew 1 (fun _ => 1) (fun _ => 1) 1 = some slowCfg := rfl
  exact cfgOk_of_new hnew

/-- A bufferevent uses up its limit, and the limit is refilled. -/
def refillRun : List BevAction :=
  [.setRateLimit 0 (some slowCfg), .readcb 0 { result := .ok 1 }, .elapse 1, .refill 0]

/-- The limit is spent, and the timer refills it. -/
theorem bevRun_woken_refill :
    ∃ s', run bevStep freshSystem refillRun = .ok s' ∧ ∀ b, Woken (s'.bevs b) := by
  obtain ⟨s', hrun⟩ : ∃ s', run bevStep freshSystem refillRun = .ok s' := ⟨_, rfl⟩
  refine ⟨s', hrun, bevRun_woken (fun _ => rfl) (fun _ _ => rfl) ?_ hrun⟩
  refine Meets.cons (fun c hc => Option.some.inj hc ▸ slowCfg_ok) rfl ?_
  refine Meets.cons (unwrapped_of_le _ fun rlim cfg hr hcfg d => ?_) rfl ?_
  · cases hr
    cases hcfg
    cases d <;> decide
  refine Meets.cons trivial rfl (Meets.cons (unwrapped_of_le _ fun rlim cfg hr hcfg d => ?_) rfl
    trivial)
  cases hr
  cases hcfg
  cases d <;> decide

/-- A limit that was raised to `2 ^ 63 - 1` is negative after the next tick, and the direction is
not suspended. -/
theorem woken_lost : ∃ s', run bevStep freshSystem [.setRateLimit 0 (some slowCfg),
      .decrementLimit 0 .read (-(2 ^ 63 - 2)), .elapse 1, .getLimit 0 .read] = .ok s' ∧
    (∃ rlim, (s'.bevs 0).rateLimiting = some rlim ∧ rlim.cfg = some slowCfg ∧
      rlim.limit.limit .read < 0) ∧
    bw ∉ (s'.bevs 0).suspended .read ∧ ¬Woken (s'.bevs 0) := by
  refine ⟨_, rfl, ⟨_, rfl, rfl, by decide⟩, by decide, fun h => ?_⟩
  exact absurd (h.limit _ rfl rfl .read (by decide)) (by decide)

end Libevent
