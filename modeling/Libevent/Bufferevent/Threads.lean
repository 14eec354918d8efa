import Libevent.Bufferevent.Group

/-!
# `Libevent.Bufferevent.Threads`: groups that several threads use

The functions of `Libevent.Bufferevent.Group` as steps that threads take in any order. A step is
what a thread does while it holds the lock of a group: nothing of the group changes inside it. A
thread that only holds the lock of a bufferevent can be interrupted: `bufferevent_readcb` between
asking for its allowance and charging what was read, and `bufferevent_add_to_rate_limit_group`
after it released the lock of the group. In the second case it matters what the thread does next,
so that the bufferevent is listed in `joining`, with the two flags that the thread has read.
-/

namespace Libevent

/-- The system, and the bufferevents whose `bufferevent_add_to_rate_limit_group` has released the
lock of the group but not that of the bufferevent, with `rsuspend` and `wsuspend`. -/
structure GroupState where
  sys : BevSystem
  joining : BevId → Option (Dir → Bool) := fun _ => none

/-- What a thread does under the lock of a group, or with a bufferevent alone. -/
inductive GroupAction where
  /-- `bufferevent_get_rlim_max_`. -/
  | getMax (b : BevId) (d : Dir)
  /-- `bufferevent_decrement_read_buckets_` or `bufferevent_decrement_write_buckets_`. -/
  | charge (b : BevId) (d : Dir) (bytes : Int) (walk : Walk)
  /-- `bufferevent_rate_limit_group_decrement_read` or `_write`. -/
  | decrementGroup (g : GroupId) (d : Dir) (decr : Int) (walk : Walk)
  /-- `bev_group_refill_callback_`. -/
  | refillGroup (g : GroupId) (walkRead walkWrite : Walk)
  /-- `bufferevent_rate_limit_group_set_cfg`. -/
  | setGroupCfg (g : GroupId) (cfg : TokenBucketCfg)
  /-- `bufferevent_rate_limit_group_set_min_share`. -/
  | setMinShare (g : GroupId) (share : Nat)
  /-- `bufferevent_add_to_rate_limit_group`, until it releases the lock of the group. -/
  | joinBegin (b : BevId) (g : GroupId)
  /-- The rest of `bufferevent_add_to_rate_limit_group`. -/
  | joinEnd (b : BevId)
  /-- `bufferevent_remove_from_rate_limit_group`. -/
  | leave (b : BevId)
  /-- Suspending for another reason. -/
  | suspend (b : BevId) (d : Dir) (what : SuspendFlags)
  /-- Unsuspending for another reason. -/
  | unsuspend (b : BevId) (d : Dir) (what : SuspendFlags)
  /-- `bev_refill_callback_`. -/
  | refill (b : BevId)
  | elapse (msec : Nat)

/-- One step. -/
def groupStep (s : GroupState) : GroupAction → Except BevFault GroupState
  | .getMax b d =>
    (buffereventGetRlimMax d s.sys.now s.sys.groups (s.sys.bevs b)).map fun r =>
      { s with sys := s.sys.setBev b r.2 }
  | .charge b d bytes walk =>
    .ok { s with sys := buffereventDecrementAllBuckets d s.sys b bytes walk }
  | .decrementGroup g d decr walk =>
    .ok { s with sys := buffereventRateLimitGroupDecrement d s.sys g decr walk }
  | .refillGroup g walkRead walkWrite =>
    (bevGroupRefillCallback s.sys g walkRead walkWrite).map fun sys => { s with sys := sys }
  | .setGroupCfg g cfg =>
    .ok { s with sys :=
      s.sys.setGroup g (buffereventRateLimitGroupSetCfg (s.sys.groups g) cfg) }
  | .setMinShare g share =>
    .ok { s with sys :=
      s.sys.setGroup g (buffereventRateLimitGroupSetMinShare (s.sys.groups g) share).2 }
  | .joinBegin b g =>
    let r := joinRateLimitGroup s.sys b g
    .ok { sys := r.2, joining := Function.update s.joining b r.1 }
  | .joinEnd b =>
    match s.joining b with
    | none => .ok s
    | some suspended =>
      .ok { sys := suspendJoined s.sys b suspended
            joining := Function.update s.joining b none }
  | .leave b => .ok { s with sys := buffereventRemoveFromRateLimitGroup s.sys b true }
  | .suspend b d what =>
    .ok { s with sys := s.sys.setBev b (buffereventSuspend d (s.sys.bevs b) what) }
  | .unsuspend b d what =>
    .ok { s with sys := s.sys.setBev b (buffereventUnsuspend d (s.sys.bevs b) what) }
  | .refill b =>
    (bevRefillCallback s.sys.now (s.sys.bevs b)).map fun bev =>
      { s with sys := s.sys.setBev b bev }
  | .elapse msec => .ok { s with sys := { s.sys with now := s.sys.now + msec } }

/-- The lock of a bufferevent that is joining a group is held: no other thread does anything with
it, and a walk does not get its lock. The flag of groups is theirs alone. -/
def Exclusive (s : GroupState) : GroupAction → Prop
  | .getMax b _ => s.joining b = none
  | .charge b _ _ walk => s.joining b = none ∧ ∀ m, walk.locks m = true → s.joining m = none
  | .decrementGroup _ _ _ walk => ∀ m, walk.locks m = true → s.joining m = none
  | .refillGroup _ walkRead walkWrite => ∀ m, (walkRead.locks m = true → s.joining m = none) ∧
      (walkWrite.locks m = true → s.joining m = none)
  | .joinBegin b _ => s.joining b = none
  | .leave b => s.joining b = none
  | .suspend b _ what => s.joining b = none ∧ SuspendReason.bwGroup ∉ what
  | .unsuspend b _ what => s.joining b = none ∧ SuspendReason.bwGroup ∉ what
  | .refill b => s.joining b = none
  | _ => True

end Libevent
