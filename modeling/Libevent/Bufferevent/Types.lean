import Libevent.Buffer.Types

/-!
# `Libevent.Bufferevent.Types`: socket bufferevents and rate limits

`struct bufferevent` with `struct bufferevent_private`, `struct bufferevent_rate_limit` and
`struct bufferevent_rate_limit_group`. What the source has twice, for reading and for writing, is
a function of the direction here.

Of the two evbuffers, the length of the input matters, and the lengths of the chains of the
output, with whether they are sent by `sendfile`. Of the events, it matters whether they are
pending. Left out are the user's callbacks, which are the last thing that a function calls, the
timeouts, connecting, and the locks, whose try-locks are arguments of the functions that try them.
-/

namespace Libevent

/-- `EV_READ` or `EV_WRITE`. -/
inductive Dir where
  | read
  | write
  deriving DecidableEq, Repr

/-- A mask of `EV_READ` and `EV_WRITE`. -/
abbrev IoMask := Dir → Bool

/-- The mask of one direction. -/
def IoMask.only (d : Dir) : IoMask := fun x => decide (x = d)

/-- The flags of `bufferevent_suspend_flags`. -/
inductive SuspendReason where
  | wm
  | bw
  | bwGroup
  | lookup
  | filtRead
  deriving DecidableEq, Repr

abbrev SuspendFlags := Finset SuspendReason

abbrev BevId := Nat

abbrev GroupId := Nat

/-- Why a run stops inside a function: an assertion, a null pointer, or a division by zero. -/
inductive BevFault where
  | assertFailed
  | nullDeref
  | divideByZero
  deriving DecidableEq, Repr

/-! ### Token buckets -/

/-- `struct ev_token_bucket_cfg`. `addr` is its address, which `bufferevent_set_rate_limit`
compares. `tick_timeout` is only passed to `event_add`. -/
structure TokenBucketCfg where
  addr : Nat
  rate : Dir → Nat
  maximum : Dir → Nat
  msecPerTick : Nat

/-- `struct ev_token_bucket`. -/
structure TokenBucket where
  limit : Dir → Int := fun _ => 0
  lastUpdated : Nat := 0

/-- `struct bufferevent_rate_limit`. -/
structure RateLimit where
  cfg : Option TokenBucketCfg := none
  limit : TokenBucket := {}
  /-- Whether `refill_bucket_event` is pending. -/
  refillPending : Bool := false
  group : Option GroupId := none

/-- `struct bufferevent_rate_limit_group`. The number of members is the length of the list. -/
structure RateGroup where
  members : List BevId := []
  rateLimit : TokenBucket := {}
  rateLimitCfg : TokenBucketCfg
  suspended : Dir → Bool := fun _ => false
  pendingUnsuspend : Dir → Bool := fun _ => false
  minShare : Int := 0
  configuredMinShare : Nat := 0

/-! ### Bufferevents -/

/-- A chain of the output: its length, and whether it is a file segment that is sent by
`sendfile`. -/
structure OutChain where
  off : Nat
  sendfile : Bool := false
  deriving DecidableEq, Repr

/-- `evbuffer_get_length` of the output. -/
def outLen (l : List OutChain) : Nat := (l.map OutChain.off).sum

def MAX_SINGLE_DEFAULT : Nat := 16384

/-- `struct bufferevent` and `struct bufferevent_private`. `pending` says whether `ev_read` and
`ev_write` are pending. `wmCb` is `read_watermarks_cb`, `none` before it is added, and whether it
is enabled. `mm` are the outcomes of `event_add` for the events of this bufferevent, and of the
allocations for it. -/
structure Bufferevent where
  enabled : IoMask := IoMask.only .write
  suspended : Dir → SuspendFlags := fun _ => ∅
  pending : Dir → Bool := fun _ => false
  wmReadHigh : Nat := 0
  wmCb : Option Bool := none
  input : Nat := 0
  output : List OutChain := []
  inputFrozen : Bool := true
  outputFrozen : Bool := true
  maxSingle : Dir → Nat := fun _ => MAX_SINGLE_DEFAULT
  rateLimiting : Option RateLimit := none
  mm : Mm := {}

/-- The bufferevents and groups of a program, and the time in milliseconds. -/
structure BevSystem where
  bevs : BevId → Bufferevent := fun _ => {}
  groups : GroupId → RateGroup
  now : Nat := 0

def BevSystem.setBev (s : BevSystem) (b : BevId) (bev : Bufferevent) : BevSystem :=
  { s with bevs := Function.update s.bevs b bev }

def BevSystem.setGroup (s : BevSystem) (g : GroupId) (grp : RateGroup) : BevSystem :=
  { s with groups := Function.update s.groups g grp }

end Libevent
