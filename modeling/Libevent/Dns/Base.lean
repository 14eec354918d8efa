import Libevent.Basic
import Mathlib.Logic.Function.Basic
import Mathlib.Data.List.Basic

/-!
# `Libevent.Dns.Base`: the state of an `evdns_base`

A pointer is a number, and the memory behind it is a map: `req` for `struct request`, `handle` for
`struct evdns_request`, `nameserver` for `struct nameserver`. A freed request or handle is `none`,
and the freed nameservers are listed in `released`, so that a use after it shows. A circular list is
the list of its members from its head on: `evdns_request_insert` appends, and the ring of
nameservers is rotated when `server_head` moves.

The names, packets and addresses are left out except for what decides whether a request is made, and
for the id that a packet starts with. Timers and the events of the sockets are flags that say
whether the event is pending.
-/

namespace Libevent

/-- `DNS_ERR_*`. -/
inductive DnsErr where
  | none
  | format
  | serverfailed
  | notexist
  | notimpl
  | refused
  | truncated
  | unknown
  | timeout
  | shutdown
  | cancel
  | nodata
  deriving DecidableEq, Repr

/-- `TYPE_A`, `TYPE_PTR` and `TYPE_AAAA`. -/
inductive DnsType where
  | a
  | ptr
  | aaaa
  deriving DecidableEq, Repr

/-- `user_callback` with its `user_pointer`: a callback of the user, or `nameserver_probe_callback`
with its nameserver. -/
inductive DnsCallback where
  | user
  | probe (ns : Nat)
  deriving DecidableEq, Repr

/-- `struct search_state`. -/
structure SearchState where
  ndots : Nat := 1
  domains : List Bytes := []
  deriving DecidableEq, Repr

/-- `struct evdns_request`, the handle. A search is only started when there are domains. -/
structure EvdnsRequest where
  currentReq : Option Nat := none
  pendingCb : Bool := false
  searchIndex : Int := 0
  searchState : Option { state : SearchState // state.domains ≠ [] } := none
  searchOrigname : Bytes := []
  deriving DecidableEq, Repr

/-- `struct request`. -/
structure DnsRequest where
  /-- The first two bytes of the packet, `request`. -/
  packetId : UInt8 × UInt8
  requestType : DnsType
  reissueCount : Nat := 0
  txCount : Nat := 0
  userCallback : DnsCallback
  ns : Option Nat
  transId : Nat
  transmitMe : Bool := false
  handle : Option Nat
  /-- `timeout_event` is pending. -/
  timer : Bool := false
  /-- The nameserver that has been sent the packet, until it answers or the time is up. The source
  does not record it. -/
  sentTo : Option Nat := none
  deriving DecidableEq, Repr

/-- `htons`, as the two bytes in memory. -/
def htons (n : Nat) : UInt8 × UInt8 := (UInt8.ofNat (n / 256), UInt8.ofNat n)

/-- `struct nameserver`. -/
structure Nameserver where
  failedTimes : Nat := 0
  timedout : Nat := 0
  /-- `event`, for the socket, is pending. -/
  event : Bool := false
  probeRequest : Option Nat := none
  state : Bool := false
  choked : Bool := false
  writeWaiting : Bool := false
  requestsInflight : Int := 0
  /-- `timeout_event` is pending. -/
  timer : Bool := false
  deriving DecidableEq, Repr

/-- `struct deferred_reply_callback`. -/
structure DeferredReply where
  handle : Option Nat
  callback : DnsCallback
  err : DnsErr
  deriving DecidableEq, Repr

/-- `struct evdns_base`, and the objects that belong to it. -/
structure EvdnsBase where
  reqHeads : List (List Nat)
  reqWaitingHead : List Nat := []
  /-- The ring of nameservers from `server_head` on. -/
  servers : List Nat := []
  globalGoodNameservers : Int := 0
  globalRequestsInflight : Int := 0
  globalRequestsWaiting : Int := 0
  globalMaxRequestsInflight : Int
  globalMaxReissues : Nat := 1
  globalMaxRetransmits : Nat := 3
  globalMaxNameserverTimeout : Nat := 3
  globalSearchState : Option SearchState := none
  disableWhenInactive : Bool := false
  req : Nat → Option DnsRequest := fun _ => none
  handle : Nat → Option EvdnsRequest := fun _ => none
  nameserver : Nat → Nameserver := fun _ => {}
  /-- The nameservers that have been freed. -/
  released : List Nat := []
  /-- The next addresses that the allocator returns. -/
  nextReq : Nat := 0
  nextHandle : Nat := 0
  nextNs : Nat := 0
  /-- The callbacks that the event loop has still to run. -/
  deferred : List DeferredReply := []
  /-- How many transaction ids have been picked, and how many packets sent. -/
  draws : Nat := 0
  sends : Nat := 0

/-- What must not happen, and a loop that does not end. -/
inductive DnsFault where
  | useAfterFree
  | nullPointer
  | assertion
  /-- A request is freed while its timer is pending. -/
  | pendingTimer
  | spins
  deriving DecidableEq, Repr

/-- What `sendto` returns: it sends the packet, it would block, or it fails. -/
inductive SendtoResult where
  | sent
  | retriable
  | failed
  deriving DecidableEq, Repr

/-- What the system decides: the random numbers that each call of `transaction_id_pick` is given,
and the fate of each packet. -/
structure DnsEnv where
  random : Nat → List UInt16
  sendto : Nat → SendtoResult

namespace EvdnsBase

variable (base : EvdnsBase)

/-! ### Memory -/

def getReq (id : Nat) : Except DnsFault DnsRequest :=
  match base.req id with
  | some req => .ok req
  | none => .error .useAfterFree

def getHandle (h : Nat) : Except DnsFault EvdnsRequest :=
  match base.handle h with
  | some handle => .ok handle
  | none => .error .useAfterFree

def getNameserver (ns : Nat) : Except DnsFault Nameserver :=
  if ns ∈ base.released then .error .useAfterFree else .ok (base.nameserver ns)

def modifyReq (id : Nat) (f : DnsRequest → DnsRequest) : EvdnsBase :=
  { base with req := Function.update base.req id ((base.req id).map f) }

def modifyHandle (h : Nat) (f : EvdnsRequest → EvdnsRequest) : EvdnsBase :=
  { base with handle := Function.update base.handle h ((base.handle h).map f) }

def modifyNs (ns : Nat) (f : Nameserver → Nameserver) : EvdnsBase :=
  { base with nameserver := Function.update base.nameserver ns (f (base.nameserver ns)) }

def freeReq (id : Nat) : EvdnsBase :=
  { base with req := Function.update base.req id none }

def freeHandle (h : Nat) : EvdnsBase :=
  { base with handle := Function.update base.handle h none }

/-- `mm_calloc` of a handle. -/
def newHandle : EvdnsBase × Nat :=
  ({ base with
    handle := Function.update base.handle base.nextHandle (some {})
    nextHandle := base.nextHandle + 1 }, base.nextHandle)

/-! ### Rings -/

/-- The lists that a request may be in. -/
inductive Ring where
  | waiting
  | head (k : Nat)
  deriving DecidableEq, Repr

/-- `&REQ_HEAD(base, id)`. -/
def reqHead (transId : Nat) : Ring := .head (transId % base.reqHeads.length)

/-- The request's nameserver, which is not `NULL`. -/
def getNs (req : DnsRequest) : Except DnsFault Nat :=
  match req.ns with
  | some ns => .ok ns
  | none => .error .nullPointer

/-- `ASSERT_VALID_REQUEST`. -/
def assertValidRequest (id : Nat) : Except DnsFault Unit := do
  let req ← base.getReq id
  match req.handle with
  | none => .error .assertion
  | some h =>
    let handle ← base.getHandle h
    if handle.currentReq = some id then pure () else .error .assertion

end EvdnsBase

end Libevent
