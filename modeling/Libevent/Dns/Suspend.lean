import Libevent.Dns.Request

/-!
# `Libevent.Dns.Suspend`: clearing the nameservers

`evdns_base_clear_nameservers_and_suspend` frees the nameservers one after the other, cancels their
probes on the way, and puts the requests in flight back into the waiting queue.
-/

namespace Libevent

namespace EvdnsBase

variable (env : DnsEnv) (base : EvdnsBase)

/-- `mm_free` of a nameserver. -/
def freeNameserver (ns : Nat) : EvdnsBase :=
  { base with released := ns :: base.released }

/-- One turn of the first loop of `evdns_base_clear_nameservers_and_suspend`. -/
def suspendServer (ns : Nat) : Except DnsFault EvdnsBase := do
  let _ ← base.getNameserver ns
  let base := base.modifyNs ns fun server => { server with event := false, timer := false }
  let base ← base.cancelProbe env ns
  pure (base.freeNameserver ns)

/-- One turn of the second loop: the request goes to the front of the waiting queue. -/
def suspendReq (id : Nat) : Except DnsFault EvdnsBase := do
  let base := base.modifyReq id fun req =>
    { req with
      txCount := 0
      reissueCount := 0
      ns := none
      timer := false
      transId := 0
      transmitMe := false
      sentTo := none }
  let base := { base with globalRequestsWaiting := base.globalRequestsWaiting + 1 }
  let base ← base.evdnsRequestInsert id .waiting
  -- this is a circular list, so the start is shifted back by one
  pure { base with
    reqWaitingHead := base.reqWaitingHead.getLast?.toList ++ base.reqWaitingHead.dropLast }

/-- The second loop, with what is set when the loops are done. -/
def suspendRequests : Except DnsFault EvdnsBase := do
  let base ← base.reqHeads.flatten.foldlM suspendReq base
  pure { base with
    reqHeads := base.reqHeads.map fun _ => []
    globalRequestsInflight := 0 }

/-- `evdns_base_clear_nameservers_and_suspend`. The ring is followed from the `server_head` that it
starts at, whatever becomes of `server_head`. -/
def evdnsBaseClearNameserversAndSuspend : Except DnsFault EvdnsBase := do
  if base.servers = [] then pure base
  else
    let base ← base.servers.foldlM (suspendServer env) base
    suspendRequests { base with servers := [], globalGoodNameservers := 0 }

/-- `evdns_base_resume`. -/
def evdnsBaseResume : Except DnsFault EvdnsBase :=
  base.evdnsRequestsPumpWaitingQueue env

end EvdnsBase

end Libevent
