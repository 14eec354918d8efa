import Libevent.Dns.Suspend
import Libevent.Lib.Run

/-!
# `Libevent.Dns.Step`: what can happen to an `evdns_base`

The calls of the user, the events of the sockets and of the timers, and the callbacks that have been
scheduled, one step for each.
-/

namespace Libevent

/-- What can happen to a base. -/
inductive DnsAction where
  | resolve (type : DnsType) (name : Bytes) (noSearch : Bool)
  /-- A packet arrives from the nameserver. -/
  | packet (ns transId flags : Nat) (reply : Option EvdnsBase.DnsReply)
  /-- Reading from the nameserver's socket fails. -/
  | readError (ns : Nat)
  /-- The nameserver's socket can be written to. -/
  | writable (ns : Nat)
  /-- A request times out. -/
  | timeout (id : Nat)
  /-- The user cancels. -/
  | cancel (h : Nat)
  /-- The time has come to probe a nameserver that is down. -/
  | probe (ns : Nat)
  /-- A scheduled callback runs. -/
  | callback
  | nameserverAdd
  | setMaxInflight (maxinflight : Int)
  | suspend
  | resume
  deriving DecidableEq, Repr

namespace EvdnsBase

/-- The handle is one that the user has been given, and the user's callback has not run. -/
def userHandle (base : EvdnsBase) (h : Nat) : Bool :=
  match base.handle h with
  | none => false
  | some handle =>
    match handle.currentReq with
    | none => true
    | some id => (base.req id).any (·.userCallback = .user)

/-- The part of `nameserver_ready_callback` for `EV_WRITE`. -/
def nameserverWritable (env : DnsEnv) (base : EvdnsBase) (ns : Nat) :
    Except DnsFault EvdnsBase := do
  let base := base.modifyNs ns fun server => { server with choked := false }
  let marked := base.anyMarked
  let base ← base.evdnsTransmit env
  pure (if marked then base else base.nameserverWriteWaiting ns false)

/-- The timer of a request has gone off, and is not pending any more. -/
def requestTimedOut (env : DnsEnv) (base : EvdnsBase) (id : Nat) : Except DnsFault EvdnsBase :=
  (base.modifyReq id fun req => { req with timer := false }).evdnsRequestTimeoutCallback env id

end EvdnsBase

/-- One of the things that can happen. An action whose occasion does not come up does nothing: a
callback for a socket runs while its nameserver is there, for writing only while that is waited for.
-/
def dnsStep (env : DnsEnv) (base : EvdnsBase) : DnsAction → Except DnsFault EvdnsBase
  | .resolve type name noSearch => base.evdnsBaseResolve env type name noSearch
  | .packet ns transId flags reply =>
    if ns ∈ base.servers then
      (base.modifyNs ns fun server => { server with timedout := 0 }).replyParse env transId flags
        reply
    else .ok base
  | .readError ns => if ns ∈ base.servers then base.nameserverFailed ns else .ok base
  | .writable ns =>
    if ns ∈ base.servers ∧ (base.nameserver ns).event ∧ (base.nameserver ns).writeWaiting then
      base.nameserverWritable env ns
    else .ok base
  | .timeout id =>
    if (base.req id).any (·.timer) then base.requestTimedOut env id else .ok base
  | .cancel h => if base.userHandle h then base.evdnsCancelRequest env h else .ok base
  | .probe ns =>
    if ns ∈ base.servers ∧ (base.nameserver ns).timer then
      (base.clearTimer ns).nameserverSendProbe env ns
    else .ok base
  | .callback =>
    match base.deferred with
    | [] => .ok base
    | d :: rest => { base with deferred := rest }.replyRunCallback env d
  | .nameserverAdd => .ok base.evdnsNameserverAdd
  | .setMaxInflight maxinflight => base.evdnsBaseSetMaxRequestsInflight maxinflight
  | .suspend => base.evdnsBaseClearNameserversAndSuspend env
  | .resume => base.evdnsBaseResume env

end Libevent
