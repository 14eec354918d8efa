import Libevent.Bufferevent.RateLimit

/-!
# `Libevent.Bufferevent.Group`: rate-limit groups

The groups of `bufferevent_ratelim.c`. A function that holds the lock of a group only tries to
lock the members: a `Walk` says which of these try-locks succeed, and at which member a walk in
random order starts.
-/

namespace Libevent

variable (s : BevSystem)

/-- One walk over the members of a group. -/
structure Walk where
  locks : BevId → Bool
  which : Nat

/-! ### Walks -/

/-- `FOREACH_RANDOM_ORDER`: the members from the random one on, and then those before it. -/
def foreachRandomOrder (members : List BevId) (which : Nat) : List BevId :=
  let first := members[which]?
  members.drop which ++ members.takeWhile fun m => some m ≠ first

/-- The loop of `bev_group_suspend_reading_` and `bev_group_suspend_writing_`. -/
def suspendMembers (d : Dir) (locks : BevId → Bool) : BevSystem → List BevId → BevSystem
  | s, [] => s
  | s, m :: l =>
    let s := if locks m then s.setBev m (buffereventSuspend d (s.bevs m) {.bwGroup}) else s
    suspendMembers d locks s l

/-- `bev_group_suspend_reading_` and `bev_group_suspend_writing_`. -/
def bevGroupSuspend (d : Dir) (s : BevSystem) (g : GroupId) (locks : BevId → Bool) : BevSystem :=
  let grp := s.groups g
  let grp := { grp with
    suspended := Function.update grp.suspended d true
    pendingUnsuspend := Function.update grp.pendingUnsuspend d false }
  suspendMembers d locks (s.setGroup g grp) grp.members

/-- The loop of `bev_group_unsuspend_reading_` and `bev_group_unsuspend_writing_`, with the
variable `again`. -/
def unsuspendMembers (d : Dir) (locks : BevId → Bool) :
    (again : Bool) → BevSystem → List BevId → Bool × BevSystem
  | again, s, [] => (again, s)
  | again, s, m :: l =>
    if locks m then
      unsuspendMembers d locks again (s.setBev m (buffereventUnsuspend d (s.bevs m) {.bwGroup})) l
    else unsuspendMembers d locks true s l

/-- `bev_group_unsuspend_reading_` and `bev_group_unsuspend_writing_`. -/
def bevGroupUnsuspend (d : Dir) (s : BevSystem) (g : GroupId) (walk : Walk) : BevSystem :=
  let grp := s.groups g
  let s := s.setGroup g { grp with suspended := Function.update grp.suspended d false }
  let (again, s) := unsuspendMembers d walk.locks false s
    (foreachRandomOrder grp.members walk.which)
  let grp := s.groups g
  s.setGroup g { grp with pendingUnsuspend := Function.update grp.pendingUnsuspend d again }

/-! ### The bucket of a group -/

/-- The limit of the group changes. -/
def BevSystem.setGroupLimit (g : GroupId) (d : Dir) (limit : Int) : BevSystem :=
  let grp := s.groups g
  s.setGroup g { grp with
    rateLimit := { grp.rateLimit with limit := Function.update grp.rateLimit.limit d limit } }

/-- The part of `bufferevent_decrement_read_buckets_` and `bufferevent_decrement_write_buckets_`
that is about the group. -/
def decrementGroupBucket (d : Dir) (s : BevSystem) (g : GroupId) (bytes : Int) (walk : Walk) :
    BevSystem :=
  let left := ssizeOf ((s.groups g).rateLimit.limit d - bytes)
  let s := s.setGroupLimit g d left
  if left ≤ 0 then bevGroupSuspend d s g walk.locks
  else if (s.groups g).suspended d then bevGroupUnsuspend d s g walk
  else s

/-- `bufferevent_decrement_read_buckets_` and `bufferevent_decrement_write_buckets_`. -/
def buffereventDecrementAllBuckets (d : Dir) (s : BevSystem) (b : BevId) (bytes : Int)
    (walk : Walk) : BevSystem :=
  let s := s.setBev b (buffereventDecrementBuckets d (s.bevs b) bytes).2
  match (s.bevs b).rateLimiting.bind RateLimit.group with
  | none => s
  | some g => decrementGroupBucket d s g bytes walk

/-- `bufferevent_rate_limit_group_decrement_read` and
`bufferevent_rate_limit_group_decrement_write`. -/
def buffereventRateLimitGroupDecrement (d : Dir) (s : BevSystem) (g : GroupId) (decr : Int)
    (walk : Walk) : BevSystem :=
  let oldLimit := (s.groups g).rateLimit.limit d
  let newLimit := ssizeOf (oldLimit - decr)
  let s := s.setGroupLimit g d newLimit
  if oldLimit > 0 ∧ newLimit ≤ 0 then bevGroupSuspend d s g walk.locks
  else if oldLimit ≤ 0 ∧ newLimit > 0 then bevGroupUnsuspend d s g walk
  else s

/-- One direction of `bev_group_refill_callback_`. -/
def refillGroupDir (d : Dir) (s : BevSystem) (g : GroupId) (walk : Walk) : BevSystem :=
  let grp := s.groups g
  if grp.pendingUnsuspend d = true ∨
      (grp.suspended d = true ∧ grp.rateLimit.limit d ≥ grp.minShare) then
    bevGroupUnsuspend d s g walk
  else s

/-- `bev_group_refill_callback_`. -/
def bevGroupRefillCallback (g : GroupId) (walkRead walkWrite : Walk) :
    Except BevFault BevSystem := do
  let grp := s.groups g
  let tick ← evTokenBucketGetTick s.now grp.rateLimitCfg
  let s := s.setGroup g { grp with
    rateLimit := evTokenBucketUpdate grp.rateLimit grp.rateLimitCfg tick }
  pure (refillGroupDir .write (refillGroupDir .read s g walkRead) g walkWrite)

/-! ### Configuration -/

/-- `bufferevent_rate_limit_group_set_min_share`. -/
def buffereventRateLimitGroupSetMinShare (grp : RateGroup) (share : Nat) : Int × RateGroup :=
  if share > EV_SSIZE_MAX then (-1, grp)
  else (0, { grp with
    configuredMinShare := share
    minShare := min (min share (grp.rateLimitCfg.rate .read)) (grp.rateLimitCfg.rate .write) })

/-- `bufferevent_rate_limit_group_new`, up to the allocations. -/
def buffereventRateLimitGroupNew (now : Nat) (cfg : TokenBucketCfg) :
    Except BevFault RateGroup := do
  let tick ← evTokenBucketGetTick now cfg
  let grp : RateGroup := { rateLimitCfg := cfg, rateLimit := evTokenBucketInit {} cfg tick false }
  pure (buffereventRateLimitGroupSetMinShare grp 64).2

/-- `bufferevent_rate_limit_group_set_cfg`. -/
def buffereventRateLimitGroupSetCfg (grp : RateGroup) (cfg : TokenBucketCfg) : RateGroup :=
  let limit := fun d => min (grp.rateLimit.limit d) (cfg.maximum d)
  let grp := { grp with rateLimitCfg := cfg, rateLimit := { grp.rateLimit with limit := limit } }
  (buffereventRateLimitGroupSetMinShare grp grp.configuredMinShare).2

/-! ### Members -/

/-- `bufferevent_remove_from_rate_limit_group_internal_`. -/
def buffereventRemoveFromRateLimitGroup (b : BevId) (unsuspend : Bool) :
    BevSystem :=
  let s := match (s.bevs b).rateLimiting with
    | none => s
    | some rlim =>
      match rlim.group with
      | none => s
      | some g =>
        let grp := s.groups g
        (s.setBev b { s.bevs b with rateLimiting := some { rlim with group := none } }).setGroup
          g { grp with members := grp.members.erase b }
  if unsuspend then
    let bev := buffereventUnsuspendRead (s.bevs b) {.bwGroup}
    s.setBev b (buffereventUnsuspendWrite bev {.bwGroup})
  else s

/-- The bufferevent is put into the list of the group: whether the group is suspended. -/
def enterRateLimitGroup (b : BevId) (g : GroupId) : (Dir → Bool) × BevSystem :=
  let bev := s.bevs b
  let grp := s.groups g
  let s := s.setBev b { bev with
    rateLimiting := bev.rateLimiting.map fun r => { r with group := some g } }
  (grp.suspended, s.setGroup g { grp with members := b :: grp.members })

/-- The first part of `bufferevent_add_to_rate_limit_group`, until the lock of the group is
released: whether the group is suspended, when the bufferevent has joined it. -/
def joinRateLimitGroup (b : BevId) (g : GroupId) : Option (Dir → Bool) × BevSystem :=
  match ensureRateLimit (s.bevs b) with
  | (none, bev) => (none, s.setBev b bev)
  | (some rlim, bev) =>
    let s := s.setBev b bev
    if rlim.group = some g then (none, s)
    else
      let s := if rlim.group.isSome then buffereventRemoveFromRateLimitGroup s b true else s
      let (suspended, s) := enterRateLimitGroup s b g
      (some suspended, s)

/-- The second part: the bufferevent is suspended when the group was. -/
def suspendJoined (b : BevId) (suspended : Dir → Bool) : BevSystem :=
  let bev := s.bevs b
  let bev := if suspended .read then buffereventSuspendRead bev {.bwGroup} else bev
  let bev := if suspended .write then buffereventSuspendWrite bev {.bwGroup} else bev
  s.setBev b bev

/-- `bufferevent_add_to_rate_limit_group`. -/
def buffereventAddToRateLimitGroup (b : BevId) (g : GroupId) : BevSystem :=
  match joinRateLimitGroup s b g with
  | (none, s) => s
  | (some suspended, s) => suspendJoined s b suspended

end Libevent
