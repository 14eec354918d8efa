import Libevent.Bufferevent.Core
import Libevent.Event.Timeout

/-!
# `Libevent.Bufferevent.RateLimit`: token buckets

The token buckets of `bufferevent_ratelim.c`, and the rate limit of one bufferevent. Limits are
`ev_ssize_t`, rates and maxima are `size_t`, and ticks are 32 bits wide. Sums and differences of
limits wrap around.
-/

namespace Libevent

def EV_RATE_LIMIT_MAX : Nat := EV_SSIZE_MAX

/-- `(ev_ssize_t)n`. -/
def ssizeOf (n : Int) : Int := n.bmod (2 ^ 64)

/-- `(size_t)n`. -/
def sizeOfInt (n : Int) : Nat := (n % 2 ^ 64).toNat

/-! ### Ticks -/

/-- A time in whole milliseconds. -/
def Timeval.wholeMsec (tv : Timeval) : Int := tv.tvSec * 1000 + (tv.tvUsec / 1000 : Nat)

/-- `tick_timeout`: the `tick_len` of `ev_token_bucket_cfg_new`, or one second for `NULL`. -/
def tickTimeout (tickLen : Option Timeval) : Timeval := tickLen.getD ⟨1, 0⟩

/-- `msec_per_tick`, an `unsigned`. -/
def msecPerTick (tickLen : Option Timeval) : Nat :=
  ((tickTimeout tickLen).masked.wholeMsec % 2 ^ 32).toNat

/-- `ev_token_bucket_cfg_new`, up to the allocation: `msec` is the length of a tick in milliseconds,
as the source computes it from `tick_len`. -/
def evTokenBucketCfgNew (addr : Nat) (rate burst : Dir → Nat) (msec : Nat) :
    Option TokenBucketCfg :=
  if rate .read > burst .read ∨ rate .write > burst .write ∨ rate .read < 1 ∨ rate .write < 1 then
    none
  else if rate .read > EV_RATE_LIMIT_MAX ∨ rate .write > EV_RATE_LIMIT_MAX ∨
      burst .read > EV_RATE_LIMIT_MAX ∨ burst .write > EV_RATE_LIMIT_MAX then none
  else some { addr := addr, rate := rate, maximum := burst, msecPerTick := msec % 2 ^ 32 }

/-- `ev_token_bucket_init_`. -/
def evTokenBucketInit (bucket : TokenBucket) (cfg : TokenBucketCfg) (currentTick : Nat)
    (reinit : Bool) : TokenBucket :=
  if reinit then
    { bucket with limit := fun d =>
        if bucket.limit d > cfg.maximum d then cfg.maximum d else bucket.limit d }
  else { limit := fun d => cfg.rate d, lastUpdated := currentTick }

/-- What `n_ticks` ticks make of a limit. The difference is one of `size_t`. -/
def refillLimit (cfg : TokenBucketCfg) (d : Dir) (nTicks : Nat) (limit : Int) : Int :=
  if sizeOfInt (cfg.maximum d - limit) / nTicks < cfg.rate d then cfg.maximum d
  else ssizeOf (limit + nTicks * cfg.rate d)

/-- `n_ticks` of `ev_token_bucket_update_`: a difference of two `unsigned`. -/
def TokenBucket.ticks (bucket : TokenBucket) (currentTick : Nat) : Nat :=
  (currentTick + 2 ^ 32 - bucket.lastUpdated) % 2 ^ 32

/-- `ev_token_bucket_update_`. -/
def evTokenBucketUpdate (bucket : TokenBucket) (cfg : TokenBucketCfg) (currentTick : Nat) :
    TokenBucket :=
  let nTicks := bucket.ticks currentTick
  if nTicks = 0 ∨ nTicks > INT_MAX then bucket
  else
    { limit := fun d => refillLimit cfg d nTicks (bucket.limit d), lastUpdated := currentTick }

/-- `ev_token_bucket_get_tick_`, when the time is `msec` milliseconds. -/
def evTokenBucketGetTick (msec : Nat) (cfg : TokenBucketCfg) : Except BevFault Nat :=
  if cfg.msecPerTick = 0 then .error .divideByZero
  else .ok (msec / cfg.msecPerTick % 2 ^ 32)

/-! ### The limit of one bufferevent -/

/-- `bufferevent_update_buckets`. -/
def buffereventUpdateBuckets (now : Nat) (bev : Bufferevent) (rlim : RateLimit)
    (cfg : TokenBucketCfg) : Except BevFault (RateLimit × Bufferevent) := do
  let tick ← evTokenBucketGetTick now cfg
  let rlim := if tick ≠ rlim.limit.lastUpdated then
    { rlim with limit := evTokenBucketUpdate rlim.limit cfg tick } else rlim
  pure (rlim, { bev with rateLimiting := some rlim })

/-- `event_add` of `refill_bucket_event`. -/
def Bufferevent.addRefill (bev : Bufferevent) : Bool × Bufferevent :=
  if bev.mm.alloc.1 then
    (true, { bev with
      rateLimiting := bev.rateLimiting.map fun r => { r with refillPending := true }
      mm := bev.mm.alloc.2 })
  else (false, { bev with mm := bev.mm.alloc.2 })

/-- `event_del` of `refill_bucket_event`. -/
def Bufferevent.delRefill (bev : Bufferevent) : Bufferevent :=
  { bev with rateLimiting := bev.rateLimiting.map fun r => { r with refillPending := false } }

/-- `bufferevent_get_rlim_max_`, as far as the limit of the bufferevent itself goes. -/
def ownMax (d : Dir) (now : Nat) (bev : Bufferevent) (rlim : RateLimit) :
    Except BevFault (Int × Bufferevent) :=
  match rlim.cfg with
  | none => .ok (bev.maxSingle d, bev)
  | some cfg =>
    (buffereventUpdateBuckets now bev rlim cfg).map fun r => (r.1.limit.limit d, r.2)

/-- `bufferevent_get_rlim_max_`, as far as the share in the group goes. -/
def clampToShare (d : Dir) (group : GroupId → RateGroup) (rlim : RateLimit) (maxSoFar : Int)
    (bev : Bufferevent) : Int × Bufferevent :=
  match rlim.group with
  | none => (maxSoFar, bev)
  | some g =>
    if (group g).suspended d then (min maxSoFar 0, buffereventSuspend d bev {.bwGroup})
    else
      let share := ((group g).rateLimit.limit d).tdiv (group g).members.length
      (min maxSoFar (max share (group g).minShare), bev)

/-- `bufferevent_get_rlim_max_`. `group` are the groups by their address. -/
def buffereventGetRlimMax (d : Dir) (now : Nat) (group : GroupId → RateGroup)
    (bev : Bufferevent) : Except BevFault (Int × Bufferevent) :=
  match bev.rateLimiting with
  | none => .ok (bev.maxSingle d, bev)
  | some rlim =>
    (ownMax d now bev rlim).map fun r =>
      let (maxSoFar, bev) := clampToShare d group rlim r.1 r.2
      (max maxSoFar 0, bev)

/-- `bufferevent_get_read_max_`. -/
def buffereventGetReadMax := buffereventGetRlimMax .read

/-- `bufferevent_get_write_max_`. -/
def buffereventGetWriteMax := buffereventGetRlimMax .write

/-- The other direction. -/
def Dir.other : Dir → Dir
  | .read => .write
  | .write => .read

/-- The part of `bufferevent_decrement_read_buckets_` and `bufferevent_decrement_write_buckets_`
that is about the bufferevent itself. -/
def buffereventDecrementBuckets (d : Dir) (bev : Bufferevent) (bytes : Int) : Int × Bufferevent :=
  match bev.rateLimiting with
  | none => (0, bev)
  | some rlim =>
    match rlim.cfg with
    | none => (0, bev)
    | some _ =>
      let left := ssizeOf (rlim.limit.limit d - bytes)
      let bev := { bev with rateLimiting := some { rlim with
        limit := { rlim.limit with limit := Function.update rlim.limit.limit d left } } }
      if left ≤ 0 then
        let (ok, bev) := (buffereventSuspend d bev {.bw}).addRefill
        (if ok then 0 else -1, bev)
      else if SuspendReason.bw ∈ bev.suspended d then
        let bev := if SuspendReason.bw ∈ bev.suspended d.other then bev else bev.delRefill
        (0, buffereventUnsuspend d bev {.bw})
      else (0, bev)

/-- `bufferevent_decrement_read_limit` and `bufferevent_decrement_write_limit`. -/
def buffereventDecrementLimit (d : Dir) (bev : Bufferevent) (decr : Int) :
    Except BevFault (Int × Bufferevent) :=
  match bev.rateLimiting with
  | none => .error .assertFailed
  | some rlim =>
    match rlim.cfg with
    | none => .error .assertFailed
    | some _ =>
      let oldLimit := rlim.limit.limit d
      let newLimit := ssizeOf (oldLimit - decr)
      let bev := { bev with rateLimiting := some { rlim with
        limit := { rlim.limit with limit := Function.update rlim.limit.limit d newLimit } } }
      if oldLimit > 0 ∧ newLimit ≤ 0 then
        let (ok, bev) := (buffereventSuspend d bev {.bw}).addRefill
        .ok (if ok then 0 else -1, bev)
      else if oldLimit ≤ 0 ∧ newLimit > 0 then
        let bev := if SuspendReason.bw ∈ bev.suspended d.other then bev else bev.delRefill
        .ok (0, buffereventUnsuspend d bev {.bw})
      else .ok (0, bev)

/-- `bufferevent_decrement_read_limit`. -/
def buffereventDecrementReadLimit := buffereventDecrementLimit .read

/-- `bufferevent_decrement_write_limit`. -/
def buffereventDecrementWriteLimit := buffereventDecrementLimit .write

/-- The two tests of `bev_refill_callback_`: whether the direction has to wait for another tick. -/
def refillDir (d : Dir) (rlim : RateLimit) (bev : Bufferevent) : Bool × Bufferevent :=
  if SuspendReason.bw ∈ bev.suspended d then
    if rlim.limit.limit d > 0 then (false, buffereventUnsuspend d bev {.bw})
    else (true, bev)
  else (false, bev)

/-- `bev_refill_callback_`. The event is not pending any more when its callback runs. -/
def bevRefillCallback (now : Nat) (bev : Bufferevent) : Except BevFault Bufferevent :=
  let bev := bev.delRefill
  match bev.rateLimiting with
  | none => .ok bev
  | some rlim =>
    match rlim.cfg with
    | none => .ok bev
    | some cfg => do
        let tick ← evTokenBucketGetTick now cfg
        let rlim := { rlim with limit := evTokenBucketUpdate rlim.limit cfg tick }
        let bev := { bev with rateLimiting := some rlim }
        let (againRead, bev) := refillDir .read rlim bev
        let (againWrite, bev) := refillDir .write rlim bev
        pure (if againRead || againWrite then bev.addRefill.2 else bev)

/-- One direction at the end of `bufferevent_set_rate_limit`: whether it is suspended. -/
def setRateLimitDir (d : Dir) (limit : TokenBucket) (bev : Bufferevent) : Bool × Bufferevent :=
  if limit.limit d > 0 then (false, buffereventUnsuspend d bev {.bw})
  else (true, buffereventSuspend d bev {.bw})

/-- `rate_limiting` is allocated, unless it is there. -/
def ensureRateLimit (bev : Bufferevent) : Option RateLimit × Bufferevent :=
  match bev.rateLimiting with
  | some rlim => (some rlim, bev)
  | none =>
    if bev.mm.alloc.1 then
      (some {}, { bev with rateLimiting := some {}, mm := bev.mm.alloc.2 })
    else (none, { bev with mm := bev.mm.alloc.2 })

/-- `bufferevent_set_rate_limit`. -/
def buffereventSetRateLimit (now : Nat) (bev : Bufferevent) (cfg : Option TokenBucketCfg) :
    Except BevFault (Int × Bufferevent) :=
  match cfg with
  | none =>
    match bev.rateLimiting with
    | none => .ok (0, bev)
    | some rlim =>
      let bev := { bev with rateLimiting := some { rlim with cfg := none } }
      let bev := buffereventUnsuspendRead bev {.bw}
      let bev := buffereventUnsuspendWrite bev {.bw}
      .ok (0, bev.delRefill)
  | some cfg => do
      let tick ← evTokenBucketGetTick now cfg
      if (bev.rateLimiting.bind RateLimit.cfg).map TokenBucketCfg.addr = some cfg.addr then
        pure (0, bev)
      else
        match ensureRateLimit bev with
        | (none, bev) => pure (-1, bev)
        | (some rlim, bev) =>
          let limit := evTokenBucketInit rlim.limit cfg tick rlim.cfg.isSome
          -- `event_del` and `event_assign` of the refill event
          let rlim := { rlim with cfg := some cfg, limit := limit, refillPending := false }
          let bev := { bev with rateLimiting := some rlim }
          let (suspendedRead, bev) := setRateLimitDir .read limit bev
          let (suspendedWrite, bev) := setRateLimitDir .write limit bev
          pure (0, if suspendedRead || suspendedWrite then bev.addRefill.2 else bev)

/-- `bufferevent_get_read_limit` and `bufferevent_get_write_limit`. -/
def buffereventGetLimit (d : Dir) (now : Nat) (bev : Bufferevent) :
    Except BevFault (Int × Bufferevent) :=
  match bev.rateLimiting with
  | none => .ok (EV_SSIZE_MAX, bev)
  | some rlim =>
    match rlim.cfg with
    | none => .ok (EV_SSIZE_MAX, bev)
    | some cfg => do
        let (rlim, bev) ← buffereventUpdateBuckets now bev rlim cfg
        pure (rlim.limit.limit d, bev)

/-- `bufferevent_set_max_single_read` and `bufferevent_set_max_single_write`. -/
def buffereventSetMaxSingle (d : Dir) (bev : Bufferevent) (size : Nat) : Bufferevent :=
  let size := if size = 0 ∨ size > EV_SSIZE_MAX then MAX_SINGLE_DEFAULT else size
  { bev with maxSingle := Function.update bev.maxSingle d size }

end Libevent
