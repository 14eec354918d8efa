import Libevent.Event.Types

/-!
# `Libevent.Http.Retry`: when an HTTP client connects again

The part of `evhttp_connection_cb_cleanup` that arms `retry_ev` after a failed connect. The reset of
the connection, and the requests that fail when there is no further try, are left out.
-/

namespace Libevent

/-- The fields of `struct evhttp_connection` that decide about another try. -/
structure ConnectRetry where
  retryCnt : Nat := 0
  retryMax : Int
  initialRetryTimeout : Timeval

/-- One round of the loop. -/
def doubleRetry (tvRetry : Timeval) : Timeval :=
  let usec := tvRetry.tvUsec * 2
  let tvRetry : Timeval :=
    if usec > 1000000 then ⟨tvRetry.tvSec + 1, usec - 1000000⟩ else ⟨tvRetry.tvSec, usec⟩
  let sec := tvRetry.tvSec * 2
  if sec > 3600 then ⟨3600, 0⟩ else ⟨sec, tvRetry.tvUsec⟩

/-- The delay of the next try, if there is one. -/
def evhttpConnectionCbCleanup (evcon : ConnectRetry) : Option Timeval × ConnectRetry :=
  if evcon.retryMax < 0 ∨ evcon.retryCnt < evcon.retryMax then
    (some (doubleRetry^[evcon.retryCnt] evcon.initialRetryTimeout),
      { evcon with retryCnt := evcon.retryCnt + 1 })
  else (none, evcon)

end Libevent
