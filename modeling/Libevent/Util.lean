import Libevent.Event.Timeout

/-!
# `Libevent.Util`: the ratcheting clock and the weak random generator

`adjust_monotonic_time` of `evutil_time.c`, with seconds that do not overflow, and
`evutil_weakrand_` and `evutil_weakrand_range_` of `evutil.c`.
-/

namespace Libevent

/-! ### `evutil_time.c` -/

/-- The part of `struct evutil_monotonic_timer` that all clocks share. -/
structure MonotonicTimer where
  adjustMonotonicClock : Timeval := {}
  lastTime : Timeval := {}

/-- `adjust_monotonic_time`: the timer, and what becomes of `tv`. -/
def adjustMonotonicTime (base : MonotonicTimer) (tv : Timeval) : MonotonicTimer × Timeval :=
  let tv := evutilTimeradd tv base.adjustMonotonicClock
  if evutilTimercmpLt tv base.lastTime then
    -- it was not monotonic after all
    let adjust := evutilTimersub base.lastTime tv
    ({ base with adjustMonotonicClock := evutilTimeradd adjust base.adjustMonotonicClock },
      base.lastTime)
  else ({ base with lastTime := tv }, tv)

/-! ### `evutil.c` -/

def EVUTIL_WEAKRAND_MAX : Int := 0x7fffffff

/-- `evutil_weakrand_`, which returns the new seed. -/
def evutilWeakrand (seed : UInt32) : UInt32 := (seed * 1103515245 + 12345) &&& 0x7fffffff

/-- The loop of `evutil_weakrand_range_`. -/
def weakrandRangeLoop (divisor top : Int) : Nat → UInt32 → Except Fault (Int × UInt32)
  | 0, _ => .error .outOfFuel
  | fuel + 1, seed =>
    let seed := evutilWeakrand seed
    let result := Int.tdiv seed.toNat divisor
    if result ≥ top then weakrandRangeLoop divisor top fuel seed else .ok (result, seed)

/-- `evutil_weakrand_range_`: the result and the new seed. -/
def evutilWeakrandRange (fuel : Nat) (seed : UInt32) (top : Int) : Except Fault (Int × UInt32) :=
  weakrandRangeLoop (EVUTIL_WEAKRAND_MAX.tdiv top) top fuel seed

end Libevent
