import Libevent.Dns.Base
import Mathlib.Logic.Function.Iterate

/-!
# `Libevent.Dns.Request`: the requests of an `evdns_base`

The functions of `evdns.c` that make, send, move and finish requests, under their names. They change
the base and return it; a failed assertion, a use of freed memory and a `NULL` pointer are faults.

What the system decides comes from `DnsEnv`: the random numbers that are drawn and what `sendto`
returns. A reply is what `reply_parse` has made of a packet: its id, its flags, and whether the
answer section was understood.
-/

namespace Libevent

namespace EvdnsBase

variable (env : DnsEnv) (base : EvdnsBase) (id ns : Nat)

/-! ### Nameservers -/

/-- `request_find_from_trans_id`. -/
def requestFindFromTransId (transId : Nat) : Option Nat :=
  (base.reqHeads.getD (transId % base.reqHeads.length) []).find? fun id =>
    (base.req id).any (·.transId = transId)

/-- `transaction_id_pick` takes the number: it is not `0xffff` and not the id of a request that is
in flight. -/
def idUnused (transId : Nat) : Bool :=
  transId ≠ 0xffff && (base.requestFindFromTransId transId).isNone

/-- `transaction_id_pick`. It draws until it has an id that it can take. -/
def transactionIdPick : Except DnsFault (EvdnsBase × Nat) :=
  match ((env.random base.draws).map UInt16.toNat).find? base.idUnused with
  | some transId => .ok ({ base with draws := base.draws + 1 }, transId)
  | none => .error .spins

/-- The loop of `nameserver_pick` around the ring. When it is back at the start, all nameservers are
down and the assertion that none is counted as good fails. -/
def nameserverPickLoop (base : EvdnsBase) : Nat → List Nat → Except DnsFault (EvdnsBase × Nat)
  | 0, _ => .error .assertion
  | _ + 1, [] => .error .assertion
  | n + 1, ns :: rest => do
    let server ← base.getNameserver ns
    if server.state then pure ({ base with servers := rest ++ [ns] }, ns)
    else nameserverPickLoop base n (rest ++ [ns])

/-- `nameserver_pick`. -/
def nameserverPick : Except DnsFault (EvdnsBase × Option Nat) :=
  match base.servers with
  | [] => .ok (base, none)
  | head :: rest => do
    if base.globalGoodNameservers = 0 then
      let _ ← base.getNameserver head
      let servers := rest ++ [head]
      pure ({ base with servers := servers }, servers.head?)
    else
      let (base, ns) ← nameserverPickLoop base base.servers.length base.servers
      pure (base, some ns)

/-- The request goes from one nameserver to another. -/
def swapNs (id old ns : Nat) : EvdnsBase :=
  let base := base.modifyNs old fun server =>
    { server with requestsInflight := server.requestsInflight - 1 }
  let base := base.modifyNs ns fun server =>
    { server with requestsInflight := server.requestsInflight + 1 }
  base.modifyReq id fun req => { req with ns := some ns }

/-- `request_swap_ns`. -/
def requestSwapNs : Option Nat → Except DnsFault EvdnsBase
  | none => .ok base
  | some ns => do
    let req ← base.getReq id
    if req.ns = some ns then pure base
    else
      let old ← getNs req
      let server ← base.getNameserver old
      if 0 < server.requestsInflight then
        let _ ← base.getNameserver ns
        pure (base.swapNs id old ns)
      else .error .assertion

/-- The request can be moved to another nameserver when `ns` fails. -/
def reassign (base : EvdnsBase) (id : Nat) : Except DnsFault EvdnsBase := do
  let req ← base.getReq id
  if req.txCount = 0 ∧ req.ns = some ns then
    let (base, picked) ← base.nameserverPick
    base.requestSwapNs id picked
  else pure base

/-- The nameserver is marked as down, and its timer is started. -/
def markDown : EvdnsBase :=
  { base.modifyNs ns fun server =>
      { server with state := false, failedTimes := 1, timer := true } with
    globalGoodNameservers := base.globalGoodNameservers - 1 }

/-- `nameserver_failed`. -/
def nameserverFailed : Except DnsFault EvdnsBase := do
  let server ← base.getNameserver ns
  if server.state then
    let base := base.markDown ns
    if base.globalGoodNameservers < 0 then .error .assertion
    else if base.globalGoodNameservers = 0 then pure base
    else base.reqHeads.flatten.foldlM (reassign ns) base
  else pure base

/-! ### Sending -/

/-- `nameserver_write_waiting`. The event is deleted and added again. -/
def nameserverWriteWaiting (waiting : Bool) : EvdnsBase :=
  if (base.nameserver ns).writeWaiting = waiting then base
  else base.modifyNs ns fun server => { server with writeWaiting := waiting, event := true }

/-- The event of the socket is added for the first request. -/
def startEvent (s : Nameserver) : Nameserver :=
  { s with event := s.event || (s.requestsInflight = 1 && base.disableWhenInactive) }

/-- The event is added if need be, and `sendto` is called. -/
def startSend (server : Nat) : EvdnsBase :=
  { base.modifyNs server base.startEvent with sends := base.sends + 1 }

/-- `evdns_request_transmit_to`, which is only called with the request's own nameserver. -/
def evdnsRequestTransmitTo (server : Nat) : Except DnsFault (EvdnsBase × SendtoResult) := do
  let _ ← base.getNameserver server
  let result := env.sendto base.sends
  let base := base.startSend server
  match result with
  | .sent => pure (base, result)
  | .retriable => pure (base, result)
  | .failed =>
    let base ← base.nameserverFailed server
    pure (base, result)

/-- The socket would block: the rest waits until it can be written to. -/
def noteChoked : EvdnsBase :=
  (base.modifyNs ns fun server => { server with choked := true }).nameserverWriteWaiting ns true

/-- The request has been sent once more, or sending has failed: its timer is started. -/
def noteTried : EvdnsBase :=
  base.modifyReq id fun req =>
    { req with timer := true, txCount := req.txCount + 1, transmitMe := false }

/-- The packet is on its way to the nameserver. -/
def noteSent (id ns : Nat) : EvdnsBase :=
  (base.noteTried id).modifyReq id fun req => { req with sentTo := some ns }

/-- The request needs to be transmitted. -/
def markReq : EvdnsBase :=
  base.modifyReq id fun req => { req with transmitMe := true }

/-- `evdns_request_transmit`. -/
def evdnsRequestTransmit : Except DnsFault EvdnsBase := do
  base.assertValidRequest id
  let base := base.markReq id
  let req ← base.getReq id
  if req.transId = 0xffff then .error .assertion
  else match req.ns with
    | none => pure base
    | some ns =>
      let server ← base.getNameserver ns
      if server.choked then pure base
      else
        let (base, result) ← base.evdnsRequestTransmitTo env ns
        match result with
        | .retriable => pure (base.noteChoked ns)
        -- a failure is left to the timeout, which will make us send the request again
        | .failed => pure (base.noteTried id)
        | .sent => pure (base.noteSent id ns)

/-- Sends the request if it is marked. -/
def transmitIfMarked : Except DnsFault EvdnsBase := do
  let req ← base.getReq id
  if req.transmitMe then base.evdnsRequestTransmit env id else pure base

/-- `evdns_transmit`. -/
def evdnsTransmit : Except DnsFault EvdnsBase :=
  base.reqHeads.flatten.foldlM (transmitIfMarked env) base

/-- What `evdns_transmit` returns: some request was marked. -/
def anyMarked : Bool :=
  base.reqHeads.flatten.any fun id => (base.req id).any (·.transmitMe)

/-! ### Rings -/

/-- `evdns_request_remove`. -/
def evdnsRequestRemove (ring : Ring) : Except DnsFault EvdnsBase := do
  base.assertValidRequest id
  match ring with
  | .waiting => pure { base with reqWaitingHead := base.reqWaitingHead.erase id }
  | .head k => pure { base with reqHeads := base.reqHeads.modify k (·.erase id) }

/-- `evdns_request_insert`. -/
def evdnsRequestInsert (ring : Ring) : Except DnsFault EvdnsBase := do
  base.assertValidRequest id
  match ring with
  | .waiting => pure { base with reqWaitingHead := base.reqWaitingHead ++ [id] }
  | .head k => pure { base with reqHeads := base.reqHeads.modify k (· ++ [id]) }

/-- `request_trans_id_set`. -/
def requestTransIdSet (id transId : Nat) : EvdnsBase :=
  base.modifyReq id fun req => { req with transId := transId, packetId := htons transId }

/-- Moves a request that has got its nameserver from the waiting queue to the inflight queue. -/
def moveWaiting (id ns : Nat) : Except DnsFault EvdnsBase := do
  let _ ← base.getNameserver ns
  let base := base.modifyNs ns fun server =>
    { server with requestsInflight := server.requestsInflight + 1 }
  let base ← base.evdnsRequestRemove id .waiting
  let base := { base with
    globalRequestsWaiting := base.globalRequestsWaiting - 1
    globalRequestsInflight := base.globalRequestsInflight + 1 }
  let (base, transId) ← base.transactionIdPick env
  let base := base.requestTransIdSet id transId
  base.evdnsRequestInsert id (base.reqHead transId)

/-- The loop of `evdns_requests_pump_waiting_queue`. Each turn takes one request off the waiting
queue. -/
def pumpLoop : Nat → EvdnsBase → Except DnsFault EvdnsBase
  | 0, base => .ok base
  | n + 1, base =>
    if base.globalRequestsInflight < base.globalMaxRequestsInflight ∧
        base.globalRequestsWaiting ≠ 0 then
      match base.reqWaitingHead with
      | [] => .error .assertion
      | id :: _ => do
        let (base, picked) ← base.nameserverPick
        let base := base.modifyReq id fun req => { req with ns := picked }
        match picked with
        | none => pure base
        | some ns =>
          let base ← base.moveWaiting env id ns
          let base ← base.evdnsRequestTransmit env id
          let base ← base.evdnsTransmit env
          pumpLoop n base
    else .ok base

/-- `evdns_requests_pump_waiting_queue`. -/
def evdnsRequestsPumpWaitingQueue : Except DnsFault EvdnsBase :=
  pumpLoop env base.reqWaitingHead.length base

/-! ### The end of a request -/

/-- `search_request_finished`. -/
def searchRequestFinished (h : Nat) : EvdnsBase :=
  base.modifyHandle h fun handle => { handle with searchState := none, searchOrigname := [] }

/-- What `request_finished` does to the handle. -/
def releaseHandle (h : Nat) (freeHandle : Bool) : Except DnsFault EvdnsBase := do
  let handle ← base.getHandle h
  if handle.currentReq ≠ some id then .error .assertion
  else if freeHandle then
    let base := base.searchRequestFinished h
    let base := base.modifyHandle h fun handle => { handle with currentReq := none }
    -- if the callback is scheduled, the handle is not freed until later
    if handle.pendingCb then pure base else pure (base.freeHandle h)
  else pure (base.modifyHandle h fun handle => { handle with currentReq := none })

/-- The bookkeeping of `request_finished`. The timer is only deleted for a request in flight. -/
def uncount (req : DnsRequest) (ring : Ring) : Except DnsFault EvdnsBase := do
  if ring = .waiting then
    pure { base with globalRequestsWaiting := base.globalRequestsWaiting - 1 }
  else
    let base := base.modifyReq id fun req => { req with timer := false }
    let ns ← getNs req
    let _ ← base.getNameserver ns
    pure { base.modifyNs ns fun server =>
        { server with requestsInflight := server.requestsInflight - 1 } with
      globalRequestsInflight := base.globalRequestsInflight - 1 }

/-- The nameserver's events are deleted when it has nothing to do. -/
def deactivate (req : DnsRequest) : Except DnsFault EvdnsBase :=
  match req.ns with
  | none => pure base
  | some ns => do
    let server ← base.getNameserver ns
    if server.requestsInflight = 0 ∧ base.disableWhenInactive then
      pure (base.modifyNs ns fun server => { server with event := false, timer := false })
    else pure base

/-- `mm_free` of a request. A timer that is still pending would be left to the event loop. -/
def releaseReq : Except DnsFault EvdnsBase := do
  let req ← base.getReq id
  if req.timer then .error .pendingTimer else pure (base.freeReq id)

/-- `request_finished`. -/
def requestFinished (ring : Ring) (freeHandle : Bool) : Except DnsFault EvdnsBase := do
  let req ← base.getReq id
  base.assertValidRequest id
  let base ← base.evdnsRequestRemove id ring
  let base ← base.uncount id req ring
  let base ← base.deactivate req
  let base ← match req.handle with
    | none => pure base
    | some h => base.releaseHandle id h freeHandle
  let base ← base.releaseReq id
  base.evdnsRequestsPumpWaitingQueue env

/-- `reply_schedule_callback`. -/
def replyScheduleCallback (err : DnsErr) : Except DnsFault EvdnsBase := do
  let req ← base.getReq id
  let base := match req.handle with
    | none => base
    | some h => base.modifyHandle h fun handle => { handle with pendingCb := true }
  pure { base with deferred := base.deferred ++ [⟨req.handle, req.userCallback, err⟩] }

/-- The callback of a request in flight is scheduled, and the request is finished. -/
def closeRequest (id transId : Nat) (err : DnsErr) : Except DnsFault EvdnsBase := do
  let base ← base.replyScheduleCallback id err
  base.requestFinished env id (base.reqHead transId) true

/-- `evdns_cancel_request`. -/
def evdnsCancelRequest (h : Nat) : Except DnsFault EvdnsBase := do
  let handle ← base.getHandle h
  match handle.currentReq with
  | none => pure base
  | some id =>
    if handle.pendingCb then pure base
    else
      base.assertValidRequest id
      let base ← base.replyScheduleCallback id .cancel
      let req ← base.getReq id
      if req.ns.isSome then base.requestFinished env id (base.reqHead req.transId) true
      else base.requestFinished env id .waiting true

/-- The nameserver's `probe_request` is set to `NULL`. -/
def clearProbe : EvdnsBase :=
  base.modifyNs ns fun server => { server with probeRequest := none }

/-- The nameserver's `timeout_event` is deleted. -/
def clearTimer : EvdnsBase :=
  base.modifyNs ns fun server => { server with timer := false }

/-- The nameserver's `probe_request` is cancelled, if there is one. -/
def cancelProbe : Except DnsFault EvdnsBase :=
  match (base.nameserver ns).probeRequest with
  | none => pure base
  | some h => do
    let base ← base.evdnsCancelRequest env h
    pure (base.clearProbe ns)

/-- The nameserver is marked as up. -/
def markUp : EvdnsBase :=
  { base.modifyNs ns fun server =>
      { server with state := true, failedTimes := 0, timedout := 0 } with
    globalGoodNameservers := base.globalGoodNameservers + 1 }

/-- `nameserver_up`. -/
def nameserverUp : Except DnsFault EvdnsBase := do
  let server ← base.getNameserver ns
  if server.state then pure base
  else
    let base ← (base.clearTimer ns).cancelProbe env ns
    pure (base.markUp ns)

/-! ### New requests -/

/-- `dnsname_to_labels` finds no label of more than 63 bytes. -/
def dnsnameToLabelsOk (name : Bytes) : Bool :=
  (name.splitOn 46).all fun label => label.length ≤ 63

/-- `string_num_dots`. -/
def stringNumDots (name : Bytes) : Nat := name.count 46

/-- The request is allocated, and its handle points at it. -/
def newReq (req : DnsRequest) : EvdnsBase × Nat :=
  let id := base.nextReq
  let base := { base with
    req := Function.update base.req id (some req)
    nextReq := id + 1 }
  match req.handle with
  | none => (base, id)
  | some h => (base.modifyHandle h fun handle => { handle with currentReq := some id }, id)

/-- `request_new`. -/
def requestNew (handle : Option Nat) (type : DnsType) (name : Bytes)
    (callback : DnsCallback) : Except DnsFault (EvdnsBase × Option Nat) := do
  let issuingNow := base.globalRequestsInflight < base.globalMaxRequestsInflight
  let (base, transId) ← if issuingNow then base.transactionIdPick env else pure (base, 0xffff)
  if 256 ≤ name.length then pure (base, none)
  else if !dnsnameToLabelsOk name then pure (base, none)
  else
    let (base, ns) ← if issuingNow then base.nameserverPick else pure (base, none)
    let (base, id) := base.newReq {
      packetId := htons transId, requestType := type, userCallback := callback, ns := ns,
      transId := transId, handle := handle }
    pure (base, some id)

/-- `request_submit`. -/
def requestSubmit : Except DnsFault EvdnsBase := do
  base.assertValidRequest id
  let req ← base.getReq id
  match req.ns with
  | some ns =>
    let base ← base.evdnsRequestInsert id (base.reqHead req.transId)
    let _ ← base.getNameserver ns
    let base := { base.modifyNs ns fun server =>
        { server with requestsInflight := server.requestsInflight + 1 } with
      globalRequestsInflight := base.globalRequestsInflight + 1 }
    base.evdnsRequestTransmit env id
  | none =>
    let base ← base.evdnsRequestInsert id .waiting
    pure { base with globalRequestsWaiting := base.globalRequestsWaiting + 1 }

/-- A request is made for the handle, and submitted if the name is accepted. -/
def requestIssue (h : Nat) (type : DnsType) (name : Bytes)
    (callback : DnsCallback) : Except DnsFault EvdnsBase := do
  let (base, req) ← base.requestNew env (some h) type name callback
  match req with
  | none => pure base
  | some id => base.requestSubmit env id

/-! ### Searching -/

/-- `search_make_new`. -/
def searchMakeNew (state : SearchState) (n : Nat) (baseName : Bytes) :
    Except DnsFault (Option Bytes) :=
  if baseName = [] then .ok none
  else match state.domains.drop n with
    | [] => .error .assertion
    | domain :: _ =>
      .ok (some (baseName ++ (if baseName.getLast? = some 46 then [] else [46]) ++ domain))

/-- The name that `search_request_new` asks for: the name as it was given if it has enough dots, and
the name in the first domain otherwise. -/
def searchFirstName (state : SearchState) (name : Bytes) :
    Except DnsFault (Option Bytes) :=
  if state.ndots ≤ stringNumDots name then .ok (some name) else searchMakeNew state 0 name

/-- The handle becomes that of a search. -/
def startSearch (state : { state : SearchState // state.domains ≠ [] }) (name : Bytes)
    (handle : EvdnsRequest) : EvdnsRequest :=
  { handle with
    searchIndex := if state.val.ndots ≤ stringNumDots name then -1 else 0
    searchOrigname := name
    searchState := some state }

/-- `search_request_new`. -/
def searchRequestNew (h : Nat) (type : DnsType) (name : Bytes)
    (callback : DnsCallback) : Except DnsFault EvdnsBase :=
  match base.globalSearchState with
  | none => base.requestIssue env h type name callback
  | some state =>
    if hdomains : state.domains = [] then base.requestIssue env h type name callback
    else do
      match ← searchFirstName state name with
      | none => pure base
      | some newName =>
        let (base, req) ← base.requestNew env (some h) type newName callback
        match req with
        | none => pure base
        | some id =>
          (base.modifyHandle h (startSearch ⟨state, hdomains⟩ name)).requestSubmit env id

/-- The name that `search_try_next` asks for when `search_index` is `index`, unless there is none:
the next domain, or the name as it was given. The flag says that the search ends with it. -/
def searchNextName (state : SearchState) (index : Int) (origname : Bytes) :
    Except DnsFault (Option (Bytes × Bool)) := do
  if state.domains.length ≤ index then
    -- no more postfixes to try, however we may need to try this name without a postfix
    if stringNumDots origname < state.ndots then pure (some (origname, true)) else pure none
  else
    let newName ← searchMakeNew state index.toNat origname
    pure (newName.map fun name => (name, false))

/-- The index of the search is counted up. -/
def searchAdvance (h : Nat) : EvdnsBase :=
  base.modifyHandle h fun handle => { handle with searchIndex := handle.searchIndex + 1 }

/-- The handle and the request point at each other. -/
def linkHandle (h id : Nat) : EvdnsBase :=
  (base.modifyHandle h fun handle => { handle with currentReq := some id }).modifyReq id fun req =>
    { req with handle := some h }

/-- `search_try_next`. The flag says that another request has been submitted. -/
def searchTryNext (h : Nat) : Except DnsFault (EvdnsBase × Bool) := do
  let handle ← base.getHandle h
  match handle.currentReq, handle.searchState with
  | none, _ => .error .nullPointer
  | some _, none => pure (base, false)
  | some id, some state =>
    let req ← base.getReq id
    let base := base.searchAdvance h
    match ← searchNextName state.val (handle.searchIndex + 1) handle.searchOrigname with
    | none => pure (base, false)
    | some (name, last) =>
      let (base, newreq) ← base.requestNew env none req.requestType name req.userCallback
      match newreq with
      | none => pure (base, false)
      | some newreq =>
        let base := if last then base.searchRequestFinished h else base
        let base ← base.requestFinished env id (base.reqHead req.transId) false
        let base ← (base.linkHandle h newreq).requestSubmit env newreq
        pure (base, true)

/-! ### Timeouts and replies -/

/-- `evdns_request_timeout_callback`. -/
def evdnsRequestTimeoutCallback : Except DnsFault EvdnsBase := do
  let req ← base.getReq id
  if base.globalMaxRetransmits ≤ req.txCount then
    let ns ← getNs req
    let base ← base.closeRequest env id req.transId .timeout
    base.nameserverFailed ns
  else
    let base := base.modifyReq id fun req => { req with timer := false, sentTo := none }
    let (base, picked) ← base.nameserverPick
    let base ← base.requestSwapNs id picked
    let base ← base.evdnsRequestTransmit env id
    let req ← base.getReq id
    let ns ← getNs req
    let server ← base.getNameserver ns
    if base.globalMaxNameserverTimeout < server.timedout + 1 then
      let base := base.modifyNs ns fun server => { server with timedout := 0 }
      base.nameserverFailed ns
    else pure (base.modifyNs ns fun server => { server with timedout := server.timedout + 1 })

/-- `request_reissue`. The flag says that it is pointless. -/
def requestReissue : Except DnsFault (EvdnsBase × Bool) := do
  base.assertValidRequest id
  let lastNs := (← base.getReq id).ns
  let (base, picked) ← base.nameserverPick
  let base ← base.requestSwapNs id picked
  if (← base.getReq id).ns = lastNs then pure (base, true)
  else
    pure (base.modifyReq id fun req =>
      { req with
        reissueCount := req.reissueCount + 1
        txCount := 0
        transmitMe := true
        sentTo := none }, false)

/-- `struct reply`: whether there was an answer in it. -/
structure DnsReply where
  haveAnswer : Bool
  deriving DecidableEq, Repr

/-- The error that `reply_handle` finds in a reply, if there is one. -/
def replyError (flags : Nat) (reply : Option DnsReply) : Option DnsErr :=
  if flags &&& 0x020f ≠ 0 ∨ !reply.any (·.haveAnswer) then
    if flags &&& 0x0200 ≠ 0 then some .truncated
    else match flags &&& 0x000f with
      | 0 => if reply.isSome then some .nodata else some .unknown
      | 1 => some .format
      | 2 => some .serverfailed
      | 3 => some .notexist
      | 4 => some .notimpl
      | 5 => some .refused
      | _ => some .unknown
  else none

/-- The nameserver forgets a probe that has been answered. -/
def forgetProbe (req : DnsRequest) (ns : Nat) : Except DnsFault EvdnsBase := do
  let server ← base.getNameserver ns
  pure (if req.handle = server.probeRequest then base.clearProbe ns else base)

/-- The next name is tried if there is a search, and if the lookup is not a reverse one. The flag
says that another request has been submitted. -/
def tryNext (req : DnsRequest) (h : Nat) : Except DnsFault (EvdnsBase × Bool) := do
  let handle ← base.getHandle h
  if handle.searchState.isSome ∧ req.requestType ≠ .ptr then base.searchTryNext env h
  else pure (base, false)

/-- The end of `reply_handle` after an error: the next name of the search, or the failure. -/
def replyFailed (error : DnsErr) : Except DnsFault EvdnsBase := do
  let req ← base.getReq id
  match req.handle with
  | none => .error .nullPointer
  | some h =>
    let (base, submitted) ← base.tryNext env req h
    if submitted then pure base else base.closeRequest env id req.transId error

/-- `reply_handle`. -/
def replyHandle (flags : Nat) (reply : Option DnsReply) : Except DnsFault EvdnsBase := do
  base.assertValidRequest id
  let req ← base.getReq id
  let ns ← getNs req
  match replyError flags reply with
  | none =>
    let base ← base.replyScheduleCallback id .none
    let base ← base.forgetProbe req ns
    let base ← base.nameserverUp env ns
    base.requestFinished env id (base.reqHead req.transId) true
  | some .serverfailed => base.evdnsRequestTimeoutCallback env id
  | some error =>
    if error = .notimpl ∨ error = .refused then
      -- we regard these errors as marking a bad nameserver
      if req.reissueCount < base.globalMaxReissues then
        let base ← base.nameserverFailed ns
        let (base, pointless) ← base.requestReissue id
        if pointless then base.replyFailed env id error else pure base
      else base.replyFailed env id error
    else
      -- we got a good reply from the nameserver: it is up
      let base ← base.forgetProbe req ns
      let base ← base.nameserverUp env ns
      base.replyFailed env id error

/-- What `reply_handle` is given of a reply: nothing if the flags say that there was an error other
than that the name does not exist. -/
def replyGiven (flags : Nat) (reply : Option DnsReply) : Option DnsReply :=
  if flags &&& 0x020f ≠ 0 ∧ flags &&& 0x020f ≠ 3 then none else reply

/-- `reply_parse`, with `reply` as what it makes of the sections of the packet. -/
def replyParse (transId flags : Nat) (reply : Option DnsReply) : Except DnsFault EvdnsBase :=
  match base.requestFindFromTransId transId with
  | none => .ok base
  | some id =>
    if flags &&& 0x8000 = 0 then .ok base
    else base.replyHandle env id flags (replyGiven flags reply)

/-! ### Probes -/

/-- `nameserver_probe_failed`. -/
def nameserverProbeFailed : EvdnsBase :=
  let base := base.clearTimer ns
  if (base.nameserver ns).state then base
  else base.modifyNs ns fun server =>
    { server with failedTimes := server.failedTimes + 1, timer := true }

/-- `nameserver_probe_callback`. -/
def nameserverProbeCallback (result : DnsErr) (ns : Nat) : Except DnsFault EvdnsBase := do
  if result = .cancel then pure base
  else
    let _ ← base.getNameserver ns
    let base := base.clearProbe ns
    if result = .none ∨ result = .notexist then base.nameserverUp env ns
    else pure (base.nameserverProbeFailed ns)

/-- The name that a probe asks for. -/
def PROBE_NAME : Bytes := [103, 111, 111, 103, 108, 101, 46, 99, 111, 109]

/-- `nameserver_send_probe`. -/
def nameserverSendProbe : Except DnsFault EvdnsBase := do
  let _ ← base.getNameserver ns
  let (base, h) := base.newHandle
  let (base, req) ← base.requestNew env (some h) .a PROBE_NAME (.probe ns)
  match req with
  | none => pure (base.freeHandle h)
  | some id =>
    let base := base.modifyNs ns fun server => { server with probeRequest := some h }
    -- we force this into the inflight queue no matter what
    let (base, transId) ← base.transactionIdPick env
    let base := base.requestTransIdSet id transId
    let base := base.modifyReq id fun req => { req with ns := some ns }
    base.requestSubmit env id

/-- `user_callback` is called. A callback of the user is not part of the model: what it does to the
base are actions of their own. -/
def runUserCallback (d : DeferredReply) : Except DnsFault EvdnsBase :=
  match d.callback with
  | .user => .ok base
  | .probe ns => base.nameserverProbeCallback env d.err ns

/-- `reply_run_callback`. -/
def replyRunCallback (d : DeferredReply) : Except DnsFault EvdnsBase := do
  let base ← base.runUserCallback env d
  match d.handle with
  | none => pure base
  | some h =>
    let handle ← base.getHandle h
    if handle.pendingCb then pure (base.freeHandle h) else pure base

/-! ### The interface -/

/-- The request of `evdns_base_resolve_ipv4`, `evdns_base_resolve_ipv6` and
`evdns_base_resolve_reverse`. -/
def resolveWith (h : Nat) (type : DnsType) (name : Bytes) (noSearch : Bool) :
    Except DnsFault EvdnsBase :=
  if noSearch ∨ type = .ptr then base.requestIssue env h type name .user
  else base.searchRequestNew env h type name .user

/-- `evdns_base_resolve_ipv4`, `evdns_base_resolve_ipv6` and `evdns_base_resolve_reverse`. -/
def evdnsBaseResolve (type : DnsType) (name : Bytes) (noSearch : Bool) :
    Except DnsFault EvdnsBase := do
  let (base, h) := base.newHandle
  let base ← base.resolveWith env h type name noSearch
  let handle ← base.getHandle h
  if handle.currentReq = none then pure (base.freeHandle h) else pure base

/-- `evdns_nameserver_add_impl_`, for an address that is new. -/
def evdnsNameserverAdd : EvdnsBase :=
  let ns := base.nextNs
  { base with
    nameserver := Function.update base.nameserver ns
      { state := true, event := !base.disableWhenInactive }
    nextNs := ns + 1
    servers := match base.servers with
      | [] => [ns]
      | head :: rest => head :: ns :: rest
    globalGoodNameservers := base.globalGoodNameservers + 1 }

/-- Moves a request to its new head. -/
def rehash (heads : List (List Nat)) (id : Nat) : Except DnsFault (List (List Nat)) := do
  base.assertValidRequest id
  let req ← base.getReq id
  pure (heads.modify (req.transId % heads.length) (· ++ [id]))

/-- `evdns_base_set_max_requests_inflight`. -/
def evdnsBaseSetMaxRequestsInflight (maxinflight : Int) : Except DnsFault EvdnsBase := do
  let maxinflight := if maxinflight < 1 then 1 else maxinflight
  let nHeads := ((maxinflight + 4) / 5).toNat
  let reqHeads ← base.reqHeads.flatten.foldlM base.rehash (List.replicate nHeads [])
  pure { base with reqHeads := reqHeads, globalMaxRequestsInflight := maxinflight }

/-- The options of a base, its search list, and the number of its first nameservers. -/
structure DnsOptions where
  globalMaxReissues : Nat := 1
  globalMaxRetransmits : Nat := 3
  globalMaxNameserverTimeout : Nat := 3
  globalSearchState : Option SearchState := none
  disableWhenInactive : Bool := false
  nameservers : Nat := 0

/-- `evdns_base_new`. The nameservers that it finds in `resolv.conf` are added before
`disable_when_inactive` is set. -/
def evdnsBaseNew (options : DnsOptions) : EvdnsBase :=
  let base : EvdnsBase := {
    reqHeads := List.replicate 13 []
    globalMaxRequestsInflight := 64
    globalMaxReissues := options.globalMaxReissues
    globalMaxRetransmits := options.globalMaxRetransmits
    globalMaxNameserverTimeout := options.globalMaxNameserverTimeout
    globalSearchState := options.globalSearchState }
  { evdnsNameserverAdd^[options.nameservers] base with
    disableWhenInactive := options.disableWhenInactive }

end EvdnsBase

end Libevent
