import Libevent.Dns.Base
import Libevent.Lib.Run

/-!
# `Libevent.Dns.Getaddrinfo`: one call to `evdns_getaddrinfo`

A call launches a request for an A record, one for an AAAA record, or both. Each of them is an
`evdns_request`, the handle, whose callback `evdns_getaddrinfo_gotresolve` runs later from the event
loop. The state of the call is the `evdns_getaddrinfo_request`, which every callback reaches through
a pointer.

Callbacks run one at a time. The user may cancel between any two of them, as long as the user's own
callback has not been invoked. The base is not freed, so that `DNS_ERR_SHUTDOWN` is not reported.

The counters of answers and timeouts in the base and the port are left out. Of the hints, it is kept
whether they leave the type of the socket open: then every address gives two entries.
-/

namespace Libevent

/-- The `EVUTIL_EAI_*` that are used here. The value 0 is `none` of `Option Eai`. -/
inductive Eai where
  | nodata
  | noname
  | fail
  | again
  | cancel
  | memory
  deriving DecidableEq, Repr

/-- The two kinds of record. -/
inductive Family where
  | ipv4
  | ipv6
  deriving DecidableEq, Repr

def Family.other : Family → Family
  | .ipv4 => .ipv6
  | .ipv6 => .ipv4

/-- The entries of a `struct evutil_addrinfo`. -/
abbrev Addrinfo := List (Family × Bytes)

/-- What the callback of a handle is called with: the result, and the addresses. -/
structure SubResult where
  result : DnsErr
  addresses : List Bytes := []
  deriving DecidableEq, Repr

/-- The handle of a sub-request. -/
inductive HandleState where
  /-- It was never launched. -/
  | absent
  /-- `current_req` is set and `pending_cb` is not. -/
  | working
  /-- `pending_cb` is set: the callback is scheduled. -/
  | scheduled (sub : SubResult)
  /-- The callback has run, and the handle is freed. -/
  | freed
  deriving DecidableEq, Repr

/-- `struct evdns_getaddrinfo_request`. A sub-request `r` is a pointer to its handle, or `NULL`, and
`user_cb` is set or `NULL`. -/
structure GetaddrinfoRequest where
  r : Family → Bool
  /-- `ai_socktype` and `ai_protocol` of the hints are 0. -/
  indecisive : Bool := true
  userCb : Bool := true
  cnameResult : Option Bytes := none
  pendingResult : Option Addrinfo := none
  pendingError : Option Eai := none
  userCanceled : Bool := false
  requestDone : Bool := false

/-- The arguments of the user's callback. -/
structure Answer where
  err : Option Eai
  res : Option Addrinfo := none
  cname : Option Bytes := none
  deriving DecidableEq, Repr

/-- What a call to `evdns_getaddrinfo` has left behind. -/
structure GetaddrinfoWorld where
  handle : Family → HandleState
  /-- The request, until it is freed. -/
  data : Option GetaddrinfoRequest
  /-- The event `timeout` is pending. -/
  timeout : Bool := false
  frees : Nat := 0
  /-- The invocations of the user's callback. -/
  answers : List Answer := []

/-- What must not happen. -/
inductive GetaddrinfoFault where
  | useAfterFree
  | nullCallback
  | assertion
  deriving DecidableEq, Repr

/-! ### The pieces -/

variable (w : GetaddrinfoWorld)

/-- `evdns_err_to_getaddrinfo_err`. -/
def evdnsErrToGetaddrinfoErr : DnsErr → Option Eai
  | .none => none
  | .notexist => some .noname
  | _ => some .fail

/-- `getaddrinfo_merge_err`. -/
def getaddrinfoMergeErr (e₁ e₂ : Option Eai) : Option Eai :=
  match e₁ with
  | none => e₂
  | some e => some e

/-- `evdns_cancel_request`: it does nothing when the callback is scheduled already. -/
def evdnsCancelRequest (f : Family) : Except GetaddrinfoFault GetaddrinfoWorld :=
  match w.handle f with
  | .working =>
    .ok { w with handle := Function.update w.handle f (.scheduled ⟨.cancel, []⟩) }
  | .scheduled _ => .ok w
  | .absent => .error .useAfterFree
  | .freed => .error .useAfterFree

/-- Cancels the sub-request when its pointer is not `NULL`. -/
def cancelIfSet (data : GetaddrinfoRequest) (f : Family) (w : GetaddrinfoWorld) :
    Except GetaddrinfoFault GetaddrinfoWorld :=
  if data.r f then evdnsCancelRequest w f else .ok w

/-- The call of `user_cb`. -/
def callUser (data : GetaddrinfoRequest) (answer : Answer) (w : GetaddrinfoWorld) :
    Except GetaddrinfoFault GetaddrinfoWorld :=
  if data.userCb then .ok { w with answers := w.answers ++ [answer] } else .error .nullCallback

/-- `free_getaddrinfo_request`. -/
def freeGetaddrinfoRequest : Except GetaddrinfoFault GetaddrinfoWorld :=
  match w.data with
  | none => .error .useAfterFree
  | some _ => .ok { w with data := none, timeout := false, frees := w.frees + 1 }

/-- `add_cname_to_reply`, and the invocation of the callback with the reply. -/
def replyAnswer (data : GetaddrinfoRequest) (res : Addrinfo) : Answer :=
  ⟨none, some res, data.cnameResult⟩

/-! ### The callbacks -/

/-- The end of `evdns_getaddrinfo_gotresolve` when the sub-request reports the error `err`. -/
def gotresolveError (data : GetaddrinfoRequest) (req : Family)
    (result : DnsErr) (err : Eai) : Except GetaddrinfoFault GetaddrinfoWorld := do
  if data.r req.other then
    -- the other request is still working; maybe it will succeed
    pure { w with
      data := some { data with pendingError := some err }
      timeout := result ≠ .shutdown || w.timeout }
  else
    let answer :=
      if data.userCanceled then ⟨some .cancel, none, none⟩
      else match data.pendingResult with
        | some res => replyAnswer data res
        | none => ⟨getaddrinfoMergeErr (some err) data.pendingError, none, none⟩
    freeGetaddrinfoRequest (← callUser data answer w)

/-- The end of `evdns_getaddrinfo_gotresolve` when the sub-request has answers. `alloc` says that
`evutil_new_addrinfo_` succeeds for all of them. -/
def gotresolveAnswer (data : GetaddrinfoRequest) (req : Family)
    (addresses : List Bytes) (alloc : Bool) : Except GetaddrinfoFault GetaddrinfoWorld := do
  -- an indecisive user gets an entry for TCP and one for UDP
  let res := addresses.flatMap fun address =>
    List.replicate (if data.indecisive then 2 else 1) (req, address)
  if !alloc then
    let w ← cancelIfSet data req.other w
    let w ← callUser data ⟨some .memory, none, none⟩ w
    if data.r req.other then pure w else freeGetaddrinfoRequest w
  else if data.r req.other then
    -- the other request is still in progress; wait for it
    pure { w with data := some { data with pendingResult := some res }, timeout := true }
  else
    let pending := data.pendingResult.getD []
    let res := if req = .ipv4 then res ++ pending else pending ++ res
    freeGetaddrinfoRequest (← callUser data (replyAnswer data res) w)

/-- `evdns_getaddrinfo_gotresolve`. -/
def evdnsGetaddrinfoGotresolve (req : Family) (sub : SubResult)
    (alloc : Bool) : Except GetaddrinfoFault GetaddrinfoWorld := do
  match w.data with
  | none => .error .useAfterFree
  | some data =>
    let data := { data with
      requestDone := (sub.result ≠ .shutdown && !data.r req.other) || data.requestDone
      r := Function.update data.r req false }
    let w := { w with data := some data }
    if sub.result = .cancel ∧ !data.userCanceled then
      -- a cancel request of our own; we already answered the user
      if data.r req.other then pure w else freeGetaddrinfoRequest w
    else if !data.userCb then freeGetaddrinfoRequest w
    else
      let err := if sub.result = .none then
          if sub.addresses = [] then some Eai.nodata else none
        else evdnsErrToGetaddrinfoErr sub.result
      match err with
      | some err => gotresolveError w data req sub.result err
      | none =>
        if data.userCanceled then
          -- the other request is still working; let it report the failure
          if data.r req.other then pure w
          else freeGetaddrinfoRequest (← callUser data ⟨some .cancel, none, none⟩ w)
        else gotresolveAnswer w data req sub.addresses alloc

/-- What `evdns_getaddrinfo_timeout_cb` reports: the outcome of the other request. -/
def timeoutAnswer (data : GetaddrinfoRequest) : Answer :=
  match data.pendingResult with
  | some res => replyAnswer data res
  | none => ⟨getaddrinfoMergeErr data.pendingError (some .again), none, none⟩

/-- `evdns_getaddrinfo_timeout_cb`. -/
def evdnsGetaddrinfoTimeoutCb : Except GetaddrinfoFault GetaddrinfoWorld := do
  match w.data with
  | none => .error .useAfterFree
  | some data =>
    let w ← cancelIfSet data .ipv4 w
    let w ← cancelIfSet data .ipv6 w
    if data.r .ipv4 && data.r .ipv6 then .error .assertion
    else
      let w ← callUser data (timeoutAnswer data) w
      let cnameResult := if data.pendingResult.isSome then none else data.cnameResult
      let w := { w with
        data := some { data with
          pendingResult := none, cnameResult := cnameResult, userCb := false } }
      -- should be impossible?
      if !data.r .ipv4 && !data.r .ipv6 then freeGetaddrinfoRequest w else pure w

/-- `evdns_getaddrinfo_cancel`. -/
def evdnsGetaddrinfoCancel : Except GetaddrinfoFault GetaddrinfoWorld := do
  match w.data with
  | none => .error .useAfterFree
  | some data =>
    if data.requestDone then pure w
    else
      let data := { data with userCanceled := true }
      let w ← cancelIfSet data .ipv4 { w with data := some data, timeout := false }
      cancelIfSet data .ipv6 w

/-- `evdns_getaddrinfo`, from the point where the request is allocated: `launched` says for which
records `evdns_base_resolve_ipv4` and `evdns_base_resolve_ipv6` are called and return a handle. -/
def evdnsGetaddrinfo (indecisive : Bool) (launched : Family → Bool) : GetaddrinfoWorld :=
  if launched .ipv4 || launched .ipv6 then
    { handle := fun f => if launched f then .working else .absent
      data := some { r := launched, indecisive := indecisive } }
  else
    { handle := fun _ => .absent
      data := none
      frees := 1
      answers := [⟨some .fail, none, none⟩] }

/-! ### What happens to a call -/

/-- What can happen. -/
inductive GetaddrinfoAction where
  /-- The sub-request is over and its callback is scheduled. A `CNAME` in the reply is stored. -/
  | resolved (f : Family) (sub : SubResult) (cname : Option Bytes)
  /-- The scheduled callback runs. -/
  | callback (f : Family) (alloc : Bool)
  /-- The timer for the slower sub-request runs out. -/
  | timeout
  /-- The user cancels. -/
  | cancel
  deriving DecidableEq, Repr

/-- One of the things that can happen. An action whose occasion does not come up does nothing. -/
def getaddrinfoStep : GetaddrinfoAction → Except GetaddrinfoFault GetaddrinfoWorld
  | .resolved f sub cname => do
    if w.handle f = .working ∧ sub.result ≠ .cancel ∧ sub.result ≠ .shutdown then
      match w.data with
      | none => .error .useAfterFree
      | some data =>
        pure { w with
          handle := Function.update w.handle f (.scheduled sub)
          data := some { data with cnameResult := data.cnameResult.or cname } }
    else pure w
  | .callback f alloc => do
    match w.handle f with
    | .scheduled sub =>
      let w ← evdnsGetaddrinfoGotresolve w f sub alloc
      pure { w with handle := Function.update w.handle f .freed }
    | _ => pure w
  | .timeout =>
    if w.timeout then evdnsGetaddrinfoTimeoutCb { w with timeout := false } else .ok w
  | .cancel =>
    if w.answers = [] then evdnsGetaddrinfoCancel w else .ok w

/-- The allocations of the action succeed. -/
def GetaddrinfoAction.Allocates : GetaddrinfoAction → Prop
  | .callback _ alloc => alloc = true
  | _ => True

/-- A sequence of actions after a call. -/
def getaddrinfoRun (indecisive : Bool) (launched : Family → Bool)
    (actions : List GetaddrinfoAction) : Except GetaddrinfoFault GetaddrinfoWorld :=
  Lib.run getaddrinfoStep (evdnsGetaddrinfo indecisive launched) actions

end Libevent
