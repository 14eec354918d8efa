import Libevent.Event.Types

/-!
# `Libevent.Event.Timeout`: timevals and the encoding of common timeouts

The macros of `event2/util.h` on `struct timeval`, and the bits that `event.c` puts in the
`tv_usec` of a common timeout: 4 bits of magic, 8 bits of index, 20 bits of microseconds.
-/

namespace Libevent

def MICROSECONDS_MASK : Nat := 0x000fffff
def COMMON_TIMEOUT_IDX_MASK : Nat := 0x0ff00000
def COMMON_TIMEOUT_IDX_SHIFT : Nat := 20
def COMMON_TIMEOUT_MASK : Nat := 0xf0000000
def COMMON_TIMEOUT_MAGIC : Nat := 0x50000000
def MAX_COMMON_TIMEOUTS : Nat := 256

/-- `evutil_timercmp(tvp, uvp, >)`. -/
def evutilTimercmpGt (tvp uvp : Timeval) : Bool :=
  if tvp.tvSec = uvp.tvSec then decide (tvp.tvUsec > uvp.tvUsec)
  else decide (tvp.tvSec > uvp.tvSec)

/-- `evutil_timercmp(tvp, uvp, >=)`. -/
def evutilTimercmpGe (tvp uvp : Timeval) : Bool :=
  if tvp.tvSec = uvp.tvSec then decide (tvp.tvUsec ≥ uvp.tvUsec)
  else decide (tvp.tvSec ≥ uvp.tvSec)

/-- `evutil_timercmp(tvp, uvp, <)`. -/
def evutilTimercmpLt (tvp uvp : Timeval) : Bool :=
  if tvp.tvSec = uvp.tvSec then decide (tvp.tvUsec < uvp.tvUsec)
  else decide (tvp.tvSec < uvp.tvSec)

/-- `evutil_timeradd`. -/
def evutilTimeradd (tvp uvp : Timeval) : Timeval :=
  let sec := tvp.tvSec + uvp.tvSec
  let usec := tvp.tvUsec + uvp.tvUsec
  if usec ≥ 1000000 then ⟨sec + 1, usec - 1000000⟩ else ⟨sec, usec⟩

/-- `evutil_timersub`. -/
def evutilTimersub (tvp uvp : Timeval) : Timeval :=
  let sec := tvp.tvSec - uvp.tvSec
  if tvp.tvUsec < uvp.tvUsec then ⟨sec - 1, tvp.tvUsec + 1000000 - uvp.tvUsec⟩
  else ⟨sec, tvp.tvUsec - uvp.tvUsec⟩

/-- `COMMON_TIMEOUT_IDX`. -/
def commonTimeoutIdx (tv : Timeval) : Nat :=
  (tv.tvUsec &&& COMMON_TIMEOUT_IDX_MASK) >>> COMMON_TIMEOUT_IDX_SHIFT

/-- `is_common_timeout`, for a base with `nCommonTimeouts` queues. -/
def isCommonTimeout (tv : Timeval) (nCommonTimeouts : Nat) : Bool :=
  if tv.tvUsec &&& COMMON_TIMEOUT_MASK ≠ COMMON_TIMEOUT_MAGIC then false
  else decide (commonTimeoutIdx tv < nCommonTimeouts)

/-- `tv_usec & ~MICROSECONDS_MASK`. -/
def magicBits (usec : Nat) : Nat :=
  usec >>> COMMON_TIMEOUT_IDX_SHIFT <<< COMMON_TIMEOUT_IDX_SHIFT

/-- `is_same_common_timeout`. -/
def isSameCommonTimeout (tv1 tv2 : Timeval) : Bool :=
  magicBits tv1.tvUsec == magicBits tv2.tvUsec

/-- The timeval with the magic bits masked out. -/
def Timeval.masked (tv : Timeval) : Timeval :=
  { tv with tvUsec := tv.tvUsec &&& MICROSECONDS_MASK }

end Libevent
