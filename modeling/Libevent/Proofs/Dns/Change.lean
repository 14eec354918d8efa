import Libevent.Proofs.Dns.Inv
import Mathlib.Logic.Relation

/-!
# `Libevent.Proofs.Dns.Change`: what a function does to a base, one change after the other

The functions of `evdns.c` change a base in a few ways only. `Change` lists them, each with the
circumstances that it is made in, and a `Path` is a sequence of changes. A specification of a
function says that it takes a path; so what every change keeps is kept by every function, and a
property of all runs needs no second look at the functions (`Path.preserves`).

Some changes are made in some steps only, and whether they are is a parameter, `DnsPermits`.
-/

namespace Libevent

open Lib Function

/-- The changes that not every step makes. -/
structure DnsPermits where
  /-- A request is put into flight with an id that was picked before others were sent. -/
  stale : Prop := True
  /-- A request goes to another nameserver because of an answer that blames its own. -/
  reissue : Prop := True
  /-- The nameserver comes up. -/
  raise : Nat → Prop := fun _ => True

namespace EvdnsBase

/-! ### The pieces -/

/-- No request in flight has the id. -/
def Unused (base : EvdnsBase) (t : Nat) : Prop :=
  ∀ id ∈ base.reqHeads.flatten, ∀ ns, base.rings.place id ≠ some (ns, t)

/-- The request enters the ring of its id, and counts for its nameserver. -/
def launchReq (base : EvdnsBase) (id ns t : Nat) : EvdnsBase :=
  { base.modifyNs ns fun server =>
      { server with requestsInflight := server.requestsInflight + 1 } with
    reqHeads := base.reqHeads.modify (t % base.reqHeads.length) (· ++ [id])
    globalRequestsInflight := base.globalRequestsInflight + 1 }

/-- The request has got a nameserver and an id. -/
def assigned (ns t : Nat) (req : DnsRequest) : DnsRequest :=
  { req with ns := some ns, transId := t, packetId := htons t }

/-- The request leaves the waiting queue with a nameserver and an id. -/
def moveReq (base : EvdnsBase) (id ns t : Nat) : EvdnsBase :=
  let base := base.modifyReq id (assigned ns t)
  { base with
    reqWaitingHead := base.reqWaitingHead.erase id
    globalRequestsWaiting := base.globalRequestsWaiting - 1
    draws := base.draws + 1 }.launchReq id ns t

/-- Nothing has changed but handles, scheduled callbacks, the waiting queue and counters. -/
structure Aside (base base' : EvdnsBase) : Prop where
  req : base'.req = base.req
  nameserver : base'.nameserver = base.nameserver
  reqHeads : base'.reqHeads = base.reqHeads
  servers : base'.servers = base.servers
  disableWhenInactive : base'.disableWhenInactive = base.disableWhenInactive
  released : base'.released = base.released
  max : base'.globalMaxRequestsInflight = base.globalMaxRequestsInflight

section
variable (base : EvdnsBase)

theorem Aside.refl : Aside base base := ⟨rfl, rfl, rfl, rfl, rfl, rfl, rfl⟩

theorem Aside.modifyHandle (hd : Nat) (f : EvdnsRequest → EvdnsRequest) :
    Aside base (base.modifyHandle hd f) := ⟨rfl, rfl, rfl, rfl, rfl, rfl, rfl⟩

theorem Aside.newHandle : Aside base base.newHandle.1 :=
  ⟨rfl, rfl, rfl, rfl, rfl, rfl, rfl⟩

theorem Aside.freeHandle (hd : Nat) : Aside base (base.freeHandle hd) :=
  ⟨rfl, rfl, rfl, rfl, rfl, rfl, rfl⟩

end

/-- The request `id` has left its ring and has been freed. The events of its nameserver have been
deleted if that was its last request and they are not wanted then. -/
structure Unlinked (id : Nat) (base base' : EvdnsBase) : Prop where
  req : base'.req = update base.req id none
  flying : ∀ x ∈ base'.reqHeads.flatten, x ∈ base.reqHeads.flatten
  servers : base'.servers = base.servers
  disableWhenInactive : base'.disableWhenInactive = base.disableWhenInactive
  released : base'.released = base.released
  max : base'.globalMaxRequestsInflight = base.globalMaxRequestsInflight
  state : ∀ ns, (base'.nameserver ns).state = (base.nameserver ns).state
  choked : ∀ ns, (base'.nameserver ns).choked = (base.nameserver ns).choked
  probe : ∀ ns, (base'.nameserver ns).probeRequest = (base.nameserver ns).probeRequest
  events : ∀ ns, ((base'.nameserver ns).event = (base.nameserver ns).event ∧
      (base'.nameserver ns).timer = (base.nameserver ns).timer) ∨
    (base.disableWhenInactive = true ∧
      ∀ x ∈ base'.reqHeads.flatten, DnsRings.onServer base'.rings.place ns x = false)

variable {base : EvdnsBase} {id : Nat} {req : DnsRequest}

/-- The other requests are the same. -/
theorem Unlinked.live {base' : EvdnsBase} {x : Nat} (h : Unlinked id base base')
    (hreq : base'.req x = some req) : base.req x = some req := by
  rw [h.req] at hreq
  have hne : x ≠ id := by
    rintro rfl
    rw [update_self] at hreq
    cases hreq
  exact (update_of_ne hne _ _).symm.trans hreq

theorem newReq_req (base : EvdnsBase) (new : DnsRequest) :
    (base.newReq new).1.req = update base.req base.nextReq (some new) := by
  rw [newReq]
  cases new.handle <;> rfl

/-- A request after one has been made. -/
theorem newReq_cases {new : DnsRequest} {x : Nat} (hreq : (base.newReq new).1.req x = some req) :
    (x = base.nextReq ∧ req = new) ∨ (x ≠ base.nextReq ∧ base.req x = some req) := by
  rw [newReq_req] at hreq
  by_cases hx : x = base.nextReq
  · subst hx
    rw [update_self] at hreq
    exact .inl ⟨rfl, (Option.some.inj hreq).symm⟩
  · rw [update_of_ne hx] at hreq
    exact .inr ⟨hx, hreq⟩

/-- The exceptions that changes depend on. -/
structure SameMarks (ctx ctx' : DnsCtx) : Prop where
  loose : ctx'.loose = ctx.loose
  hidden : ctx'.hidden = ctx.hidden
  fresh : ctx'.fresh = ctx.fresh

theorem SameMarks.refl (ctx : DnsCtx) : SameMarks ctx ctx := ⟨rfl, rfl, rfl⟩

/-- A change of a request that leaves its place, its packet and its callback. It may have been tried
once more, and what it has been sent for may be over. -/
def ReqDetails (f : DnsRequest → DnsRequest) : Prop :=
  ∀ req, (f req).ns = req.ns ∧ (f req).transId = req.transId ∧ (f req).packetId = req.packetId ∧
    (f req).userCallback = req.userCallback ∧ req.txCount ≤ (f req).txCount ∧
    ((f req).sentTo = req.sentTo ∨ (f req).sentTo = none)

/-- A change of a nameserver that only concerns how often something has failed. -/
def NsDetails (f : Nameserver → Nameserver) : Prop :=
  ∀ server, (f server).state = server.state ∧ (f server).timer = server.timer ∧
    (f server).probeRequest = server.probeRequest ∧ (f server).event = server.event ∧
    (f server).choked = server.choked ∧
    (f server).requestsInflight = server.requestsInflight

/-- A change of a nameserver that concerns its timer and its probe. -/
def ProbeDetails (f : Nameserver → Nameserver) : Prop :=
  ∀ server, (f server).state = server.state ∧ (f server).event = server.event ∧
    (f server).choked = server.choked ∧
    (f server).requestsInflight = server.requestsInflight

/-- The request is in flight at the nameserver. -/
structure FliesTo (base : EvdnsBase) (ctx : DnsCtx) (id ns : Nat) : Prop where
  inv : base.Inv ctx
  flying : id ∈ base.reqHeads.flatten
  place : ∃ t, base.rings.place id = some (some ns, t)
  server : ns ∈ base.servers

/-- The request about to be sent is this one, if there is one. -/
def DueOnly (ctx : DnsCtx) (id : Nat) : Prop := ctx.fresh = none ∨ ctx.fresh = some id

/-! ### Changes -/

section
variable (env : DnsEnv) (permits : DnsPermits) (base : EvdnsBase) (ctx : DnsCtx)

/-- One change of a base, with what it does to the exceptions. -/
inductive Change : EvdnsBase → DnsCtx → Prop
  /-- `server_head` moves. -/
  | rotate {servers : List Nat} (hperm : servers.Perm base.servers) :
      Change { base with servers := servers } ctx
  /-- Handles, callbacks and counters. -/
  | aside {base' : EvdnsBase} {ctx' : DnsCtx} (h : Aside base base')
      (hctx : SameMarks ctx ctx') : Change base' ctx'
  | reqDetails (id : Nat) {f : DnsRequest → DnsRequest}
      (hf : ReqDetails f) : Change (base.modifyReq id f) ctx
  | nsDetails (ns : Nat) {f : Nameserver → Nameserver}
      (hf : NsDetails f) : Change (base.modifyNs ns f) ctx
  /-- A nameserver goes down. -/
  | down (ns : Nat) : Change (base.markDown ns) ctx
  /-- A request that has not been sent leaves a nameserver that has failed. -/
  | reassign {id old ns : Nat} {req : DnsRequest}
      (h : FliesTo base ctx id old) (hreq : base.req id = some req) (htx : req.txCount = 0)
      (hne : old ≠ ns) (hns : ns ∈ base.servers) : Change (base.swapNs id old ns) ctx
  /-- A request is sent. -/
  | sent {id ns : Nat} (h : FliesTo base ctx id ns)
      (hdue : DueOnly ctx id) (hchoked : (base.nameserver ns).choked = false) :
      Change ((base.startSend ns).noteSent id ns) { ctx with fresh := none }
  /-- The socket would block. -/
  | choke {id ns : Nat} (h : FliesTo base ctx id ns)
      (hdue : DueOnly ctx id) (hsend : env.sendto base.sends = .retriable) :
      Change ((base.startSend ns).noteChoked ns) { ctx with fresh := none }
  /-- Sending fails. -/
  | fail {id ns : Nat} (h : FliesTo base ctx id ns)
      (hdue : DueOnly ctx id) (hchoked : (base.nameserver ns).choked = false)
      (hsend : env.sendto base.sends = .failed) :
      Change (base.startSend ns) { ctx with fresh := none }
  /-- The socket cannot be written to, and the request has to wait. -/
  | skip {id ns : Nat} (h : FliesTo base ctx id ns)
      (hdue : DueOnly ctx id) (hchoked : (base.nameserver ns).choked = true) :
      Change base { ctx with fresh := none }
  /-- A request that waits is put into flight. -/
  | move {id ns t : Nat} {rest : List Nat} (h : base.Inv ctx)
      (hfresh : ctx.fresh = none) (hwaiting : base.reqWaitingHead = id :: rest)
      (ht : base.Unused t) : Change (base.moveReq id ns t) { ctx with fresh := some id }
  /-- A request ends. -/
  | unlink {base' : EvdnsBase} {ctx' : DnsCtx} {id : Nat} (h : Unlinked id base base')
      (hctx : SameMarks ctx ctx') : Change base' ctx'
  /-- A nameserver is about to come up, to be probed, or to give up its probe. -/
  | hide (ns : Nat) : Change base { ctx with hidden := ns :: ctx.hidden }
  | hidden {ns : Nat} {f : Nameserver → Nameserver} (hns : ns ∈ ctx.hidden) (hf : ProbeDetails f) :
      Change (base.modifyNs ns f) ctx
  /-- It is up, its timer is pending, or it has a probe. -/
  | unhide {ctx' : DnsCtx} {ns : Nat} (hctx : ctx = { ctx' with hidden := ns :: ctx'.hidden })
      (hns : (base.nameserver ns).state = true ∨ (base.nameserver ns).timer = true ∨
        (base.nameserver ns).probeRequest.isSome) : Change base ctx'
  /-- A nameserver comes up. -/
  | raise {ns : Nat} (hns : permits.raise ns) : Change (base.markUp ns) ctx
  /-- A request is made. -/
  | make {ctx' : DnsCtx} {req : DnsRequest} (h : base.Inv ctx)
      (hpacket : req.packetId = htons req.transId) (hsent : req.sentTo = none)
      (hloose : ctx'.loose = base.nextReq :: ctx.loose) (hhidden : ctx'.hidden = ctx.hidden)
      (hfresh : ctx'.fresh = ctx.fresh) : Change (base.newReq req).1 ctx'
  /-- A request that is in no ring gets a nameserver or an id. -/
  | assign {id : Nat} {f : DnsRequest → DnsRequest} (h : base.Inv ctx) (hid : id ∈ ctx.loose)
      (hpacket : ∀ req, (f req).packetId = htons (f req).transId ∨
        (f req).packetId = req.packetId ∧ (f req).transId = req.transId)
      (hf : ∀ req, (f req).userCallback = req.userCallback ∧ (f req).txCount = req.txCount ∧
        (f req).sentTo = req.sentTo ∧ ((f req).ns = none → req.ns = none)) :
      Change (base.modifyReq id f) ctx
  /-- A request that is in no ring is put into flight. -/
  | launch {ctx' : DnsCtx} {id ns t : Nat} {req : DnsRequest}
      (h : base.Inv ctx) (hloose : ctx.loose = id :: ctx'.loose) (hreq : base.req id = some req)
      (hplace : req.ns = some ns ∧ req.transId = t) (hnew : req.sentTo = none)
      (ht : base.Unused t ∨ permits.stale)
      (hhidden : ctx'.hidden = ctx.hidden) (hfresh : ctx.fresh = none)
      (hfresh' : ctx'.fresh = some id) : Change (base.launchReq id ns t) ctx'
  /-- A request that is in no ring has to wait. -/
  | enqueue {base' : EvdnsBase} {ctx' : DnsCtx} {id : Nat} {req : DnsRequest}
      (h : Aside base base') (hreq : base.req id = some req) (huser : req.userCallback = .user)
      (hloose : ctx.loose = id :: ctx'.loose) (hhidden : ctx'.hidden = ctx.hidden)
      (hfresh : ctx'.fresh = ctx.fresh) : Change base' ctx'
  /-- A request in flight is about to be sent again. -/
  | due {id : Nat} {req : DnsRequest}
      (hreq : base.req id = some req) (hsent : req.sentTo = none) (hfresh : ctx.fresh = none) :
      Change base { ctx with fresh := some id }
  /-- A request that is about to be sent again gets another nameserver. -/
  | retry {id old ns : Nat} (h : FliesTo base ctx id old)
      (hfresh : ctx.fresh = some id) : Change (base.swapNs id old ns) ctx
  /-- A request is given to another nameserver because of the answer of its own. -/
  | reissue {id old ns : Nat} {f : DnsRequest → DnsRequest}
      (hreissue : permits.reissue) (h : FliesTo base ctx id old) (hne : old ≠ ns)
      (hns : ns ∈ base.servers) (hf : ∀ req, (f req).ns = req.ns ∧ (f req).transId = req.transId ∧
        (f req).packetId = req.packetId ∧ (f req).userCallback = req.userCallback) :
      Change ((base.swapNs id old ns).modifyReq id f) ctx
  /-- The socket can be written to again. -/
  | unchoke {ns : Nat} (hevent : (base.nameserver ns).event = true) :
      Change (base.modifyNs ns fun server => { server with choked := false }) ctx
  | writeWaiting (ns : Nat) (waiting : Bool) : Change (base.nameserverWriteWaiting ns waiting) ctx

end

/-- A sequence of changes. -/
def Path (env : DnsEnv) (permits : DnsPermits) (base : EvdnsBase) (ctx : DnsCtx) (base' : EvdnsBase)
    (ctx' : DnsCtx) : Prop :=
  Relation.ReflTransGen (fun s s' : EvdnsBase × DnsCtx => Change env permits s.1 s.2 s'.1 s'.2)
    (base, ctx) (base', ctx')

variable {env : DnsEnv} {permits : DnsPermits} {base base' base'' : EvdnsBase}
  {ctx ctx' ctx'' : DnsCtx}

theorem Path.refl (base : EvdnsBase) (ctx : DnsCtx) : Path env permits base ctx base ctx :=
  Relation.ReflTransGen.refl

theorem Path.trans (h : Path env permits base ctx base' ctx')
    (h' : Path env permits base' ctx' base'' ctx'') : Path env permits base ctx base'' ctx'' :=
  Relation.ReflTransGen.trans h h'

theorem Change.path (h : Change env permits base ctx base' ctx') :
    Path env permits base ctx base' ctx' :=
  Relation.ReflTransGen.single h

theorem Path.change (h : Path env permits base ctx base' ctx')
    (h' : Change env permits base' ctx' base'' ctx'') : Path env permits base ctx base'' ctx'' :=
  Relation.ReflTransGen.tail h h'

/-- What every change keeps is kept along a path. -/
theorem Path.preserves {P : EvdnsBase → DnsCtx → Prop} (h : Path env permits base ctx base' ctx')
    (hP : ∀ {base ctx base' ctx'}, Change env permits base ctx base' ctx' → P base ctx →
      P base' ctx')
    (hbase : P base ctx) : P base' ctx' := by
  have hgen : ∀ s : EvdnsBase × DnsCtx, Relation.ReflTransGen
      (fun s s' : EvdnsBase × DnsCtx => Change env permits s.1 s.2 s'.1 s'.2) (base, ctx) s →
      P s.1 s.2 := by
    intro s hs
    induction hs with
    | refl => exact hbase
    | tail _ hstep ih => exact hP hstep ih
  exact hgen (base', ctx') h

/-! ### The maximum and the nameservers -/

/-- From `base` to `base'`, nothing has been configured. -/
structure Steady (base base' : EvdnsBase) : Prop where
  max : base'.globalMaxRequestsInflight = base.globalMaxRequestsInflight
  servers : base'.servers.Perm base.servers
  released : base'.released = base.released

theorem Steady.refl (base : EvdnsBase) : Steady base base := ⟨rfl, .refl _, rfl⟩

theorem Steady.trans (h : Steady base base') (h' : Steady base' base'') : Steady base base'' :=
  ⟨h'.max.trans h.max, h'.servers.trans h.servers, h'.released.trans h.released⟩

theorem nameserverWriteWaiting_steady (base : EvdnsBase) (ns : Nat) (waiting : Bool) :
    Steady base (base.nameserverWriteWaiting ns waiting) := by
  rw [nameserverWriteWaiting]
  split <;> exact ⟨rfl, .refl _, rfl⟩

theorem Change.steady (h : Change env permits base ctx base' ctx') : Steady base base' := by
  cases h with
  | rotate hperm => exact ⟨rfl, hperm, rfl⟩
  | aside h | enqueue h => exact ⟨h.max, .of_eq h.servers, h.released⟩
  | choke =>
    refine Steady.trans ?_ (nameserverWriteWaiting_steady _ _ _)
    exact ⟨rfl, .refl _, rfl⟩
  | unlink h => exact ⟨h.max, .of_eq h.servers, h.released⟩
  | make =>
    rw [newReq]
    split <;> exact ⟨rfl, .refl _, rfl⟩
  | writeWaiting ns waiting => exact nameserverWriteWaiting_steady _ _ _
  | _ => exact ⟨rfl, .refl _, rfl⟩

section
variable (h : Path env permits base ctx base' ctx')
include h

theorem Path.steady : Steady base base' :=
  h.preserves (P := fun s _ => Steady base s) (fun hchange hs => hs.trans hchange.steady) (.refl _)

theorem Path.max : base'.globalMaxRequestsInflight = base.globalMaxRequestsInflight := h.steady.max

theorem Path.servers : base'.servers.Perm base.servers :=
  h.steady.servers

theorem Path.released : base'.released = base.released :=
  h.steady.released

end

/-! ### Requests that are in no ring -/

/-- The requests that are in no ring have not been sent. -/
def Unsent (base : EvdnsBase) (ctx : DnsCtx) : Prop :=
  ∀ id ∈ ctx.loose, ∀ req, base.req id = some req → req.sentTo = none

theorem FliesTo.not_loose {ns : Nat} (h : FliesTo base ctx id ns) : id ∉ ctx.loose :=
  (h.inv.flying_of_mem h.flying).1

theorem Unsent.congr (h : Unsent base ctx) (hreq : base'.req = base.req)
    (hloose : ∀ id ∈ ctx'.loose, id ∈ ctx.loose) : Unsent base' ctx' := by
  intro id hid req hid'
  rw [hreq] at hid'
  exact h id (hloose id hid) req hid'

theorem Unsent.modifyReq (h : Unsent base ctx) {f : DnsRequest → DnsRequest}
    (hf : id ∈ ctx.loose → ∀ req, req.sentTo = none → (f req).sentTo = none) :
    Unsent (base.modifyReq id f) ctx := by
  intro x hx req hreq
  rcases modifyReq_cases hreq with ⟨rfl, old, hold, rfl⟩ | ⟨-, hold⟩
  · exact hf hx old (h x hx old hold)
  · exact h x hx req hold

theorem Unsent.swapNs (h : Unsent base ctx) (id old ns : Nat) :
    Unsent (base.swapNs id old ns) ctx :=
  Unsent.modifyReq h fun _ _ hsent => hsent

section
variable (base) (ns : Nat)

/-- What sending does to nameservers does not show in the requests. -/
theorem req_nameserverWriteWaiting (waiting : Bool) :
    (base.nameserverWriteWaiting ns waiting).req = base.req := by
  rw [nameserverWriteWaiting]
  split <;> rfl

theorem heads_nameserverWriteWaiting (waiting : Bool) :
    (base.nameserverWriteWaiting ns waiting).reqHeads = base.reqHeads := by
  rw [nameserverWriteWaiting]
  split <;> rfl

theorem heads_noteChoked : (base.noteChoked ns).reqHeads = base.reqHeads :=
  heads_nameserverWriteWaiting _ ns true

theorem req_noteChoked : (base.noteChoked ns).req = base.req :=
  req_nameserverWriteWaiting _ ns true

end

/-- No change sends a request that is in no ring. -/
theorem Change.unsent (h : Change env permits base ctx base' ctx') (hu : Unsent base ctx) :
    Unsent base' ctx' := by
  cases h with
  | rotate | nsDetails | down | fail | skip | hide | hidden | raise | due | unchoke => exact hu
  | unhide hctx =>
    subst hctx
    exact hu
  | aside h hctx => exact hu.congr h.req fun _ hid => hctx.loose ▸ hid
  | reqDetails id hf =>
    refine hu.modifyReq fun _ req hsent => ?_
    rcases (hf req).2.2.2.2.2 with hsame | hnone
    · exact hsame.trans hsent
    · exact hnone
  | reassign | retry => exact hu.swapNs _ _ _
  | sent h =>
    intro x hx req hreq
    rcases modifyReq_cases hreq with ⟨rfl, -⟩ | ⟨hne, hreq⟩
    · exact absurd hx h.not_loose
    rcases modifyReq_cases hreq with ⟨rfl, -⟩ | ⟨-, hreq⟩
    · exact absurd rfl hne
    · exact hu x hx req hreq
  | choke => exact hu.congr (req_noteChoked _ _) fun _ hid => hid
  | move => exact Unsent.modifyReq hu fun _ _ hsent => hsent
  | unlink h hctx =>
    intro x hx req hreq
    rw [hctx.loose] at hx
    exact hu x hx req (h.live hreq)
  | make h hpacket hsent hloose =>
    intro x hx req hreq
    rcases newReq_cases hreq with ⟨rfl, rfl⟩ | ⟨hne, hold⟩
    · exact hsent
    · rw [hloose] at hx
      exact hu x (List.mem_of_ne_of_mem hne hx) req hold
  | assign h hid hpacket hf => exact hu.modifyReq fun _ req hsent => (hf req).2.2.1.trans hsent
  | launch h hloose =>
    intro x hx
    exact hu x (by rw [hloose]; exact List.mem_cons_of_mem _ hx)
  | enqueue h hreq huser hloose =>
    exact hu.congr h.req fun _ hid => by rw [hloose]; exact List.mem_cons_of_mem _ hid
  | reissue _ h =>
    exact (hu.swapNs _ _ _).modifyReq fun hid => absurd hid h.not_loose
  | writeWaiting ns waiting =>
    exact hu.congr (req_nameserverWriteWaiting base ns waiting) fun _ hid => hid

theorem Path.unsent (h : Path env permits base ctx base' ctx') (hu : Unsent base ctx) :
    Unsent base' ctx' :=
  h.preserves Change.unsent hu

/-! ### Frames with their path -/

/-- A frame, and the path that was taken. -/
structure Keeps (env : DnsEnv) (permits : DnsPermits) (n : Nat) (base : EvdnsBase) (ctx : DnsCtx)
    (base' : EvdnsBase) (ctx' : DnsCtx) : Prop extends Frame ctx.loose n base base' where
  path : Path env permits base ctx base' ctx'

/-- The invariant still holds, and no request has been launched. -/
abbrev Kept (env : DnsEnv) (permits : DnsPermits) (ctx : DnsCtx) (base base' : EvdnsBase) : Prop :=
  base'.Inv ctx ∧ Keeps env permits 0 base ctx base' ctx

theorem Keeps.refl (base : EvdnsBase) (ctx : DnsCtx) : Keeps env permits 0 base ctx base ctx :=
  ⟨.refl _ _, .refl _ _⟩

theorem Keeps.trans {n m : Nat} (h : Keeps env permits n base ctx base' ctx')
    (h' : Keeps env permits m base' ctx' base'' ctx'') (hloose : ctx'.loose = ctx.loose) :
    Keeps env permits (n + m) base ctx base'' ctx'' :=
  ⟨h.toFrame.trans (hloose ▸ h'.toFrame), h.path.trans h'.path⟩

end EvdnsBase

end Libevent
