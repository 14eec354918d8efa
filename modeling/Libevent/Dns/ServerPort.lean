import Libevent.Dns.Base
import Libevent.Lib.Run

/-!
# `Libevent.Dns.ServerPort`: the port of a DNS server

The functions of `evdns.c` for a server port: receiving queries, responding to them, dropping them,
flushing the replies that could not be sent, and closing the port. A port that has been released
stays in the model with a flag, so that an access to it shows as a fault; so does an access to a
request that has been released. The recursion depth of the port's lock is a number.

The user's callback runs in the middle of `server_port_ready_callback`, and may call the interface.
So the callback is split in two: `ready` enters it and leaves the port `reading`, each `query` comes
in that phase, and `readDone` is its end. What the user calls in between are actions of their own.
Queries that do not parse leave no trace and are left out.
-/

namespace Libevent

/-- `struct server_request`. -/
structure ServerRequest where
  id : Nat
  /-- The response has been formatted. -/
  response : Bool := false
  /-- What the last `sendto` of the response returned. -/
  lastSend : Option SendtoResult := none
  deriving DecidableEq, Repr

/-- The flags that the port's event is registered with. -/
structure PortEvent where
  read : Bool
  write : Bool
  deriving DecidableEq, Repr

/-- `struct evdns_server_port`, and the requests that have been made on it. -/
structure ServerPort where
  refcnt : Int := 1
  choked : Bool := false
  closing : Bool := false
  /-- The ring from `pending_replies` on. -/
  pendingReplies : List Nat := []
  /-- The event, if it is pending. -/
  event : Option PortEvent := some ⟨true, false⟩
  lock : Int := 0
  released : Bool := false
  /-- The requests that are allocated. -/
  requests : List ServerRequest := []
  next : Nat := 0
  /-- `server_port_ready_callback` is reading from the socket. -/
  reading : Bool := false
  sends : Nat := 0
  deriving DecidableEq, Repr

/-- What must not happen. -/
inductive PortFault where
  | useAfterFree
  | assertion
  deriving DecidableEq, Repr

namespace ServerPort

variable (sendto : Nat → SendtoResult) (port : ServerPort)

/-- An access to the port. -/
def touch : Except PortFault Unit :=
  if port.released then .error .useAfterFree else .ok ()

/-- `EVDNS_LOCK`. -/
def evdnsLock : Except PortFault ServerPort := do
  port.touch
  pure { port with lock := port.lock + 1 }

/-- `EVDNS_UNLOCK`. -/
def evdnsUnlock : Except PortFault ServerPort := do
  port.touch
  pure { port with lock := port.lock - 1 }

def find (port : ServerPort) (id : Nat) : Option ServerRequest :=
  port.requests.find? (·.id = id)

def modify (id : Nat) (f : ServerRequest → ServerRequest) : ServerPort :=
  { port with requests := port.requests.map fun req => if req.id = id then f req else req }

/-- `server_port_free`. -/
def serverPortFree : Except PortFault ServerPort := do
  port.touch
  if port.refcnt ≠ 0 ∨ port.pendingReplies ≠ [] then .error .assertion
  else pure { port with event := none, released := true }

/-- `server_request_free`. The flag says that the port has been released. -/
def serverRequestFree (id : Nat) : Except PortFault (ServerPort × Bool) := do
  match port.find id with
  | none => .error .useAfterFree
  | some _ =>
    let port ← port.evdnsLock
    let port := { port with
      pendingReplies := port.pendingReplies.erase id
      refcnt := port.refcnt - 1
      requests := port.requests.filter (·.id ≠ id) }
    if port.refcnt = 0 then
      let port ← port.evdnsUnlock
      let port ← port.serverPortFree
      pure (port, true)
    else
      let port ← port.evdnsUnlock
      pure (port, false)

/-- `sendto` of the response of a request. -/
def send (id : Nat) : Except PortFault (ServerPort × SendtoResult) := do
  port.touch
  let result := sendto port.sends
  pure ({ port.modify id fun req => { req with lastSend := some result } with
    sends := port.sends + 1 }, result)

/-- The loop of `server_port_flush`. Each turn takes one reply off the ring. The flag says that the
loop has come to the end of the ring. -/
def flushLoop : Nat → ServerPort → Except PortFault (ServerPort × Bool)
  | 0, port => .ok (port, true)
  | n + 1, port =>
    match port.pendingReplies with
    | [] => .ok (port, true)
    | id :: _ => do
      let (port, result) ← port.send sendto id
      if result = .retriable then pure (port, false)
      else
        -- an error that is not retriable drops the reply
        let (port, freed) ← port.serverRequestFree id
        if freed then pure (port, false)
        else if port.pendingReplies.head? = some id then .error .assertion
        else flushLoop n port

/-- `server_port_flush`. -/
def serverPortFlush : Except PortFault ServerPort := do
  port.touch
  let (port, done) ← flushLoop sendto port.pendingReplies.length port
  -- no more pending replies: stop listening for writeable events
  if done then pure { port with event := some ⟨true, false⟩ } else pure port

/-- The beginning of `server_port_ready_callback`, up to `server_port_read`. -/
def serverPortReady (write read : Bool) : Except PortFault ServerPort := do
  let port ← port.evdnsLock
  let port ← if write then serverPortFlush sendto { port with choked := false } else pure port
  if read then
    port.touch
    pure { port with reading := true }
  else port.evdnsUnlock

/-- The end of `server_port_ready_callback`: `recvfrom` finds nothing more. -/
def serverPortReadDone : Except PortFault ServerPort := do
  port.touch
  { port with reading := false }.evdnsUnlock

/-- The reply is put into the ring. The first one makes the port wait for its socket to become
writable. -/
def queueReply (id : Nat) : ServerPort :=
  if port.pendingReplies ≠ [] then { port with pendingReplies := port.pendingReplies ++ [id] }
  else
    { port with
      pendingReplies := [id]
      choked := true
      event := some ⟨!port.closing, true⟩ }

/-- What comes after a reply that has been sent. -/
def replySent (id : Nat) : Except PortFault ServerPort := do
  let (port, freed) ← port.serverRequestFree id
  if freed then port.evdnsUnlock
  else
    let port ← if port.pendingReplies ≠ [] then port.serverPortFlush sendto else pure port
    port.evdnsUnlock

/-- `evdns_server_request_respond`. The argument says whether the response can be formatted. -/
def evdnsServerRequestRespond (id : Nat) (formats : Bool) : Except PortFault ServerPort := do
  match port.find id with
  | none => .error .useAfterFree
  | some req =>
    let port ← port.evdnsLock
    if !req.response ∧ !formats then port.evdnsUnlock
    else
      let port := port.modify id fun req => { req with response := true }
      let (port, result) ← port.send sendto id
      match result with
      | .retriable => port.evdnsUnlock
      | .failed => (port.queueReply id).evdnsUnlock
      | .sent => port.replySent sendto id

/-- `request_parse`, for a query that parses. Only standard queries are supported. -/
def requestParse (flags : Nat) (formats : Bool) : Except PortFault ServerPort := do
  port.touch
  let flags := flags &&& 0x0110
  let id := port.next
  let port := { port with
    requests := port.requests ++ [{ id := id }]
    next := id + 1
    refcnt := port.refcnt + 1 }
  if flags &&& 0x7800 ≠ 0 then port.evdnsServerRequestRespond sendto id formats
  else pure port

/-- `evdns_server_request_drop`. -/
def evdnsServerRequestDrop (id : Nat) : Except PortFault ServerPort := do
  let (port, _) ← port.serverRequestFree id
  pure port

/-- `evdns_close_server_port`. -/
def evdnsCloseServerPort : Except PortFault ServerPort := do
  let port ← port.evdnsLock
  let port := { port with refcnt := port.refcnt - 1 }
  if port.refcnt = 0 then
    let port ← port.evdnsUnlock
    port.serverPortFree
  else pure { port with closing := true }

/-- The user may respond to the request or drop it: it is allocated, and it has not been queued. -/
def owned (id : Nat) : Bool :=
  (port.find id).isSome && !port.pendingReplies.contains id

end ServerPort

/-- What can happen to a port. -/
inductive PortAction where
  /-- The event of the port becomes active. -/
  | ready (write read : Bool)
  | query (flags : Nat) (formats : Bool)
  | readDone
  | respond (id : Nat) (formats : Bool)
  | drop (id : Nat)
  | close
  deriving DecidableEq, Repr

/-- One of the things that can happen. An action whose occasion does not come up does nothing: the
event is registered only for some flags, a query comes while the port is read, the user has the
requests it has been given, and closes the port once. -/
def portStep (sendto : Nat → SendtoResult) (port : ServerPort) :
    PortAction → Except PortFault ServerPort
  | .ready write read =>
    if !port.reading &&
        port.event.any fun event => (!write || event.write) && (!read || event.read) then
      port.serverPortReady sendto write read
    else .ok port
  | .query flags formats =>
    if port.reading then port.requestParse sendto flags formats else .ok port
  | .readDone => if port.reading then port.serverPortReadDone else .ok port
  | .respond id formats =>
    if port.owned id then port.evdnsServerRequestRespond sendto id formats else .ok port
  | .drop id => if port.owned id then port.evdnsServerRequestDrop id else .ok port
  | .close => if port.closing || port.released then .ok port else port.evdnsCloseServerPort

end Libevent
