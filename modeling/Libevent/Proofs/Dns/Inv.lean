import Libevent.Proofs.Dns.Rings
import Libevent.Proofs.Dns.Links
import Libevent.Lib.Outcome

/-!
# `Libevent.Proofs.Dns.Inv`: the invariant of a base, and what small changes do to it

The invariant of a base is that of its three views: its rings, its links and its nameservers.
`Frame` says what the functions that send requests leave alone: they move requests from the front of
the waiting ring to the other rings and change nameservers, and that is all.

The lemmas about views say which view a change of one request, handle or nameserver shows in.
-/

namespace Libevent

open Lib Function

/-- The part of a base that says which nameservers are up. -/
@[ext]
structure DnsServers where
  ring : List Nat
  up : Nat → Bool
  good : Int
  next : Nat
  released : List Nat

def EvdnsBase.goods (base : EvdnsBase) : DnsServers where
  ring := base.servers
  up ns := (base.nameserver ns).state
  good := base.globalGoodNameservers
  next := base.nextNs
  released := base.released

/-- `global_good_nameservers` counts the nameservers that are up, and the nameservers that are not
in the ring have been freed. While they are being freed, some of the ring may be, too. -/
structure DnsServers.Ok (g : DnsServers) (tolerant : Prop) : Prop where
  nodup : g.ring.Nodup
  known : ∀ ns ∈ g.ring, ns < g.next
  good : g.good = g.ring.countP g.up
  live : tolerant ∨ ∀ ns ∈ g.ring, ns ∉ g.released
  accounted : ∀ ns, ns < g.next → ns ∈ g.ring ∨ ns ∈ g.released
  freed : ∀ ns ∈ g.released, ns < g.next

variable {tolerant : Prop} {ns : Nat}

/-- A nameserver goes up or down. -/
def DnsServers.setUp (g : DnsServers) (ns : Nat) (up : Bool) : DnsServers :=
  { g with
    up := update g.up ns up
    good := g.good + (if up then 1 else 0) - (if g.up ns then 1 else 0) }

variable {g : DnsServers}

theorem DnsServers.Ok.setUp (h : g.Ok tolerant) (hns : ns ∈ g.ring)
    (up : Bool) : (g.setUp ns up).Ok tolerant := by
  refine ⟨h.nodup, h.known, ?_, h.live, h.accounted, h.freed⟩
  -- only this nameserver is counted differently
  have hperm := List.perm_cons_erase hns
  have hnodup := List.nodup_cons.mp (hperm.nodup_iff.mp h.nodup)
  have hagree : ∀ x ∈ g.ring.erase ns, g.up x = update g.up ns up x := by
    intro x hx
    have hne : x ≠ ns := fun heq => hnodup.1 (heq ▸ hx)
    rw [update_of_ne hne]
  have hcount := countP_cons_congr (a := ns) hagree
  rw [← hperm.countP_eq, ← hperm.countP_eq, update_self] at hcount
  show g.good + (if up then 1 else 0) - (if g.up ns then 1 else 0) =
    (g.ring.countP (update g.up ns up) : Nat)
  rw [h.good]
  split_ifs at hcount ⊢ <;> omega

/-- The ring of nameservers is rotated. -/
theorem DnsServers.Ok.rotate (h : g.Ok tolerant) {ring : List Nat}
    (hperm : ring.Perm g.ring) : { g with ring := ring }.Ok tolerant where
  nodup := hperm.nodup_iff.mpr h.nodup
  known := fun ns hns => h.known ns (hperm.mem_iff.mp hns)
  good := by
    rw [hperm.countP_eq]
    exact h.good
  live := h.live.imp_right fun hlive ns hns => hlive ns (hperm.mem_iff.mp hns)
  accounted := fun ns hns => (h.accounted ns hns).imp_left hperm.mem_iff.mpr
  freed := h.freed

/-- A nameserver is added, and it is up. -/
def DnsServers.add (g : DnsServers) (ring : List Nat) : DnsServers :=
  { g with
    ring := ring
    up := update g.up g.next true
    good := g.good + 1
    next := g.next + 1 }

theorem DnsServers.Ok.add (h : g.Ok tolerant) {ring : List Nat}
    (hperm : ring.Perm (g.next :: g.ring)) : (g.add ring).Ok tolerant := by
  have hfresh : g.next ∉ g.ring := fun hmem => Nat.lt_irrefl _ (h.known _ hmem)
  exact {
    nodup := hperm.nodup_iff.mpr (List.nodup_cons.mpr ⟨hfresh, h.nodup⟩)
    known := by
      intro ns hns
      rcases List.mem_cons.mp (hperm.mem_iff.mp hns) with rfl | hmem
      · exact Nat.lt_succ_self _
      · exact Nat.lt_succ_of_lt (h.known ns hmem)
    good := by
      -- the others are up as before
      have hsame : g.ring.countP (update g.up g.next true) = g.ring.countP g.up := by
        refine List.countP_congr fun x hx => ?_
        have hne : x ≠ g.next := fun heq => hfresh (heq ▸ hx)
        rw [update_of_ne hne]
      show g.good + 1 = (ring.countP (update g.up g.next true) : Nat)
      rw [hperm.countP_eq, List.countP_cons_of_pos (update_self ..), hsame, h.good,
        Nat.cast_add, Nat.cast_one]
    live := by
      refine h.live.imp_right fun hlive ns hns hreleased => ?_
      rcases List.mem_cons.mp (hperm.mem_iff.mp hns) with rfl | hmem
      · exact Nat.lt_irrefl _ (h.freed _ hreleased)
      · exact hlive ns hmem hreleased
    accounted := by
      intro ns hns
      rcases Nat.lt_succ_iff_lt_or_eq.mp hns with hlt | rfl
      · refine (h.accounted ns hlt).imp_left fun hmem => ?_
        exact hperm.mem_iff.mpr (List.mem_cons_of_mem _ hmem)
      · exact .inl (hperm.mem_iff.mpr List.mem_cons_self)
    freed := fun ns hns => Nat.lt_succ_of_lt (h.freed ns hns) }

/-- The faults that can happen: a number generator that never gives an id that can be taken, and a
use of a nameserver while nameservers are being freed. -/
def DnsCtx.Tolerates (ctx : DnsCtx) (e : DnsFault) : Prop :=
  e = .spins ∨ ctx.tolerant ∧ e = .useAfterFree

/-- The faults between two operations. -/
abbrev Spins : DnsFault → Prop := DnsCtx.Tolerates {}

/-- The nameserver with one request more. -/
abbrev Nameserver.more (server : Nameserver) : Nameserver :=
  { server with requestsInflight := server.requestsInflight + 1 }

/-- The nameserver with one request less. -/
abbrev Nameserver.less (server : Nameserver) : Nameserver :=
  { server with requestsInflight := server.requestsInflight - 1 }

namespace EvdnsBase

/-- The invariant of a base, up to exceptions. -/
structure Inv (base : EvdnsBase) (ctx : DnsCtx) : Prop where
  rings : base.rings.Ok ctx.loose
  links : base.links.Ok ctx
  goods : base.goods.Ok ctx.tolerant
  targets : ∀ ns, base.links.Mentions ns → ns < base.goods.next

variable {base base' : EvdnsBase} {ctx : DnsCtx} {α : Type} {id h : Nat} {req : DnsRequest}
  {handle : EvdnsRequest} {f : DnsRequest → DnsRequest}

/-- The links do not change, and no nameserver is added. -/
theorem Inv.of_links (h : base.Inv ctx) (hrings : base'.rings.Ok ctx.loose)
    (hlinks : base'.links = base.links) (hgoods : base'.goods.Ok ctx.tolerant)
    (hnext : base'.goods.next = base.goods.next) : base'.Inv ctx :=
  ⟨hrings, hlinks ▸ h.links, hgoods, hlinks ▸ hnext ▸ h.targets⟩

theorem Inv.congr (h : base.Inv ctx) (hrings : base'.rings = base.rings)
    (hlinks : base'.links = base.links) (hgoods : base'.goods = base.goods) : base'.Inv ctx :=
  h.of_links (hrings ▸ h.rings) hlinks (hgoods ▸ h.goods) (by rw [hgoods])

/-- A nameserver of the ring can be used, unless nameservers are being freed. -/
theorem Inv.useNameserver (h : base.Inv ctx) (hns : ns ∈ base.servers)
    (hreleased : base'.released = base.released) :
    Yields ctx.Tolerates (base'.getNameserver ns) fun server => server = base'.nameserver ns := by
  rw [EvdnsBase.getNameserver]
  split
  · next hmem =>
    refine .inr ⟨h.goods.live.resolve_right fun hlive => hlive ns hns ?_, rfl⟩
    show ns ∈ base.released
    rw [← hreleased]
    exact hmem
  · exact rfl

/-- What follows on the use of a nameserver. -/
theorem Inv.useNameserver_bind (h : base.Inv ctx) (hns : ns ∈ base.servers)
    (hreleased : base'.released = base.released) {f : Nameserver → Except DnsFault α}
    {post : α → Prop} (hf : Yields ctx.Tolerates (f (base'.nameserver ns)) post) :
    Yields ctx.Tolerates (base'.getNameserver ns >>= f) post :=
  (h.useNameserver hns hreleased).bind fun _ hserver => hserver ▸ hf

theorem Inv.getNameserver_bind (h : base.Inv ctx) (hns : ns ∈ base.servers)
    {f : Nameserver → Except DnsFault α} {post : α → Prop}
    (hf : Yields ctx.Tolerates (f (base.nameserver ns)) post) :
    Yields ctx.Tolerates (base.getNameserver ns >>= f) post :=
  h.useNameserver_bind hns rfl hf

/-! ### Views -/

/-- The place of a request in the rings. -/
theorem place_of_req {ns : Option Nat} (hreq : base.req id = some req) (hns : req.ns = ns) :
    base.rings.place id = some (ns, req.transId) := by
  simp only [rings, hreq, Option.map_some, hns]

theorem owner_of_req {hd : Option Nat} (hreq : base.req id = some req) (hhd : req.handle = hd) :
    base.links.owner id = some (hd, req.userCallback, req.requestType) := by
  simp only [links, hreq, Option.map_some, hhd]

/-- A request whose links are the same belongs to the same handle. -/
theorem same_owner {req' : DnsRequest} (hreq : base.req id = some req)
    (hreq' : base'.req id = some req') (howner : base'.links.owner id = base.links.owner id) :
    req'.handle = req.handle ∧ req'.userCallback = req.userCallback ∧
      req'.requestType = req.requestType := by
  rw [owner_of_req hreq' rfl, owner_of_req hreq rfl] at howner
  simpa using howner

theorem current_of_handle (hh : base.handle h = some handle) :
    base.links.current h = some (handle.currentReq, handle.pendingCb) := by
  simp only [links, hh, Option.map_some]

theorem exists_req_of_place {ns : Option Nat} {t : Nat}
    (hplace : base.rings.place id = some (ns, t)) :
    ∃ req, base.req id = some req ∧ req.ns = ns ∧ req.transId = t := by
  obtain ⟨req, hreq, heq⟩ := Option.map_eq_some_iff.mp hplace
  cases heq
  exact ⟨req, hreq, rfl, rfl⟩

theorem exists_req_of_owner {h : Option Nat} {c : DnsCallback × DnsType}
    (howner : base.links.owner id = some (h, c)) :
    ∃ req, base.req id = some req ∧ req.handle = h ∧ (req.userCallback, req.requestType) = c := by
  obtain ⟨req, hreq, heq⟩ := Option.map_eq_some_iff.mp howner
  cases heq
  exact ⟨req, hreq, rfl, rfl⟩

theorem exists_handle_of_current {cur : Option Nat} {pending : Bool}
    (hcur : base.links.current h = some (cur, pending)) :
    ∃ handle, base.handle h = some handle ∧ handle.currentReq = cur ∧
      handle.pendingCb = pending := by
  obtain ⟨handle, hh, heq⟩ := Option.map_eq_some_iff.mp hcur
  cases heq
  exact ⟨handle, hh, rfl, rfl⟩

theorem getReq_eq (hreq : base.req id = some req) : base.getReq id = .ok req := by
  rw [getReq, hreq]

theorem getHandle_eq (hh : base.handle h = some handle) : base.getHandle h = .ok handle := by
  rw [getHandle, hh]

theorem modifyReq_self (hreq : base.req id = some req)
    (f : DnsRequest → DnsRequest) : (base.modifyReq id f).req id = some (f req) := by
  have hself : (base.modifyReq id f).req id = (base.req id).map f := update_self ..
  rw [hself, hreq, Option.map_some]

theorem modifyReq_old (hreq : (base.modifyReq id f).req id = some req) :
    ∃ old, base.req id = some old ∧ f old = req := by
  have hself : (base.modifyReq id f).req id = (base.req id).map f := update_self ..
  rw [hself] at hreq
  exact Option.map_eq_some_iff.mp hreq

theorem modifyReq_other {x : Nat} (hx : x ≠ id) (hreq : (base.modifyReq id f).req x = some req) :
    base.req x = some req := (update_of_ne hx _ _).symm.trans hreq

/-- A request after a change of one request. -/
theorem modifyReq_cases {x : Nat} (hreq : (base.modifyReq id f).req x = some req) :
    (x = id ∧ ∃ old, base.req id = some old ∧ req = f old) ∨ (x ≠ id ∧ base.req x = some req) := by
  by_cases hx : x = id
  · subst hx
    obtain ⟨old, hold, heq⟩ := modifyReq_old hreq
    exact .inl ⟨rfl, old, hold, heq.symm⟩
  · exact .inr ⟨hx, modifyReq_other hx hreq⟩

theorem modifyNs_self (base : EvdnsBase) (ns : Nat) (f : Nameserver → Nameserver) :
    (base.modifyNs ns f).nameserver ns = f (base.nameserver ns) := update_self ..

/-- What a change of nameservers leaves alone. -/
theorem modifyNs_field {β : Type} (g : Nameserver → β) (base : EvdnsBase)
    {f : Nameserver → Nameserver} (hf : ∀ server, g (f server) = g server) (ns x : Nat) :
    g ((base.modifyNs ns f).nameserver x) = g (base.nameserver x) := by
  show g (update base.nameserver ns _ x) = _
  rw [update_apply]
  split
  · next hx => rw [hf, hx]
  · rfl

theorem modifyNs_other (base : EvdnsBase) {x : Nat} (hx : x ≠ ns) (f : Nameserver → Nameserver) :
    (base.modifyNs ns f).nameserver x = base.nameserver x := update_of_ne hx _ _

theorem map_update {β : Type} (f : Nat → Option α) (k : Nat) (v : Option α) (g : α → β) :
    (fun x => (update f k v x).map g) = update (fun x => (f x).map g) k (v.map g) :=
  Function.comp_update (Option.map g) f k v

theorem field_update {β : Type} (f : Nat → α) (k : Nat) (v : α) (g : α → β) :
    (fun x => g (update f k v x)) = update (fun x => g (f x)) k (g v) :=
  Function.comp_update g f k v

theorem any_update (f : Nat → Option α) (k : Nat) (v : Option α) (p : α → Bool) :
    (fun x => (update f k v x).any p) = update (fun x => (f x).any p) k (v.any p) :=
  Function.comp_update (Option.any p) f k v

/-- A handle that is put back leaves it as it was whether there is a search. -/
theorem searching_self (hh : base.handle h = some handle) :
    update (fun x => (base.handle x).any (·.searchState.isSome)) h
      handle.searchState.isSome = fun x => (base.handle x).any (·.searchState.isSome) := by
  refine update_eq_self_iff.mpr ?_
  rw [hh, Option.any_some]

section
variable (base)

theorem rings_modifyReq (hreq : base.req id = some req) (f : DnsRequest → DnsRequest) :
    (base.modifyReq id f).rings =
      (base.rings.setPlace id (some ((f req).ns, (f req).transId))).setTimer id (f req).timer := by
  simp only [rings, modifyReq, DnsRings.setPlace, DnsRings.setTimer, map_update, any_update, hreq,
    Option.map_some, Option.any_some]

/-- A change of a request that leaves its timer. -/
theorem rings_modifyReq_place (hreq : base.req id = some req) (hf : (f req).timer = req.timer) :
    (base.modifyReq id f).rings = base.rings.setPlace id (some ((f req).ns, (f req).transId)) := by
  have hself : base.rings.timer id = req.timer := by simp [rings, hreq]
  rw [rings_modifyReq base hreq, hf, ← hself, DnsRings.setTimer]
  simp only [DnsRings.setPlace, update_eq_self]

/-- A change of a request that leaves its handle, its callback and its type. -/
theorem links_modifyReq_eq (id : Nat) (hf : ∀ req, (f req).handle = req.handle ∧ (f
      req).userCallback = req.userCallback ∧ (f req).requestType = req.requestType) :
    (base.modifyReq id f).links = base.links := by
  simp only [links, modifyReq, map_update, Option.map_map]
  have hsame : (fun req : DnsRequest => (req.handle, req.userCallback, req.requestType)) ∘ f =
      fun req => (req.handle, req.userCallback, req.requestType) := by
    funext req
    simp only [Function.comp, (hf req).1, (hf req).2.1, (hf req).2.2]
  rw [hsame, update_eq_self id]

theorem rings_modifyNs (ns : Nat) (f : Nameserver → Nameserver) :
    (base.modifyNs ns f).rings = { base.rings with
      load := update base.rings.load ns (f (base.nameserver ns)).requestsInflight } := by
  simp only [rings, modifyNs]
  rw [field_update]

theorem rings_modifyNs_eq (ns : Nat) {f : Nameserver → Nameserver}
    (hf : ∀ server, (f server).requestsInflight = server.requestsInflight) :
    (base.modifyNs ns f).rings = base.rings := by
  rw [rings_modifyNs, hf]
  have hsame : (base.nameserver ns).requestsInflight = base.rings.load ns := rfl
  rw [hsame, update_eq_self]

theorem links_modifyNs (ns : Nat) (f : Nameserver → Nameserver) :
    (base.modifyNs ns f).links = base.links.setProbe ns (f (base.nameserver ns)).probeRequest := by
  simp only [links, modifyNs, DnsLinks.setProbe]
  rw [field_update]

theorem links_modifyNs_eq (ns : Nat) {f : Nameserver → Nameserver}
    (hf : ∀ server, (f server).probeRequest = server.probeRequest) :
    (base.modifyNs ns f).links = base.links := by
  rw [links_modifyNs, hf]
  have hsame : (base.nameserver ns).probeRequest = base.links.probe ns := rfl
  rw [hsame, DnsLinks.setProbe, update_eq_self]

theorem goods_modifyNs (ns : Nat) (f : Nameserver → Nameserver) :
    (base.modifyNs ns f).goods = { base.goods with
      up := update base.goods.up ns (f (base.nameserver ns)).state } := by
  simp only [goods, modifyNs]
  rw [field_update]

theorem goods_modifyNs_eq (ns : Nat) {f : Nameserver → Nameserver}
    (hf : ∀ server, (f server).state = server.state) : (base.modifyNs ns f).goods = base.goods := by
  rw [goods_modifyNs, hf]
  have hsame : (base.nameserver ns).state = base.goods.up ns := rfl
  rw [hsame, update_eq_self]

end

/-! ### What sending leaves alone -/

/-- From `base` to `base'`, the first `n` requests that were waiting have been sent, and requests
may have got other nameservers. -/
structure Frame (loose : List Nat) (n : Nat) (base base' : EvdnsBase) : Prop where
  count : n ≤ base.reqWaitingHead.length
  links : base'.links = base.links
  handle : base'.handle = base.handle
  max : base'.globalMaxRequestsInflight = base.globalMaxRequestsInflight
  servers : base'.servers.Perm base.servers
  waiting : base'.reqWaitingHead = base.reqWaitingHead.drop n
  inflight : base'.globalRequestsInflight = base.globalRequestsInflight + n
  flying : ∀ id ns t, base.rings.place id = some (some ns, t) →
    ∃ ns', base'.rings.place id = some (some ns', t)
  origin : ∀ id ns t, base'.rings.place id = some (some ns, t) →
    (∃ ns', base.rings.place id = some (some ns', t)) ∨ id ∈ base.reqWaitingHead.take n
  aside : ∀ id ∈ loose, base'.rings.place id = base.rings.place id
  down : ∀ ns, base'.goods.up ns = true → base.goods.up ns = true

variable {loose : List Nat}

theorem Frame.refl (loose : List Nat) (base : EvdnsBase) : Frame loose 0 base base where
  count := Nat.zero_le _
  links := rfl
  handle := rfl
  max := rfl
  servers := .refl _
  waiting := rfl
  inflight := (Int.add_zero _).symm
  flying := fun _ ns _ h => ⟨ns, h⟩
  origin := fun _ ns _ h => .inl ⟨ns, h⟩
  aside := fun _ _ => rfl
  down := fun _ h => h

theorem Frame.trans {n m : Nat} {base'' : EvdnsBase} (h : Frame loose n base base')
    (h' : Frame loose m base' base'') : Frame loose (n + m) base base'' where
  count := by
    have hn := h.count
    have hm := h'.count
    rw [h.waiting, List.length_drop] at hm
    omega
  links := h'.links.trans h.links
  handle := h'.handle.trans h.handle
  max := h'.max.trans h.max
  servers := h'.servers.trans h.servers
  waiting := by rw [h'.waiting, h.waiting, List.drop_drop]
  inflight := by rw [h'.inflight, h.inflight, Nat.cast_add, Int.add_assoc]
  flying := by
    intro id ns t hplace
    obtain ⟨ns', hplace'⟩ := h.flying id ns t hplace
    exact h'.flying id ns' t hplace'
  origin := by
    intro id ns t hplace
    have htake : base.reqWaitingHead.take (n + m) =
        base.reqWaitingHead.take n ++ (base.reqWaitingHead.drop n).take m := List.take_add
    rw [htake, List.mem_append]
    rcases h'.origin id ns t hplace with ⟨ns', hplace'⟩ | hmem
    · exact (h.origin id ns' t hplace').imp_right .inl
    · exact .inr (.inr (h.waiting ▸ hmem))
  aside := fun id hid => (h'.aside id hid).trans (h.aside id hid)
  down := fun ns hup => h.down ns (h'.down ns hup)

/-- Nothing but details of requests and nameservers has changed. -/
theorem Frame.of_views (hplace : base'.rings.place = base.rings.place)
    (hservers : base'.servers = base.servers)
    (hwaiting : base'.reqWaitingHead = base.reqWaitingHead)
    (hinflight : base'.globalRequestsInflight = base.globalRequestsInflight)
    (hlinks : base'.links = base.links) (hhandle : base'.handle = base.handle)
    (hmax : base'.globalMaxRequestsInflight = base.globalMaxRequestsInflight)
    (hdown : ∀ ns, base'.goods.up ns = true → base.goods.up ns = true) :
    Frame loose 0 base base' where
  count := Nat.zero_le _
  links := hlinks
  handle := hhandle
  max := hmax
  servers := .of_eq hservers
  waiting := hwaiting
  inflight := hinflight.trans (Int.add_zero _).symm
  flying := fun id ns t h => ⟨ns, by rw [hplace]; exact h⟩
  origin := fun id ns t h => .inl ⟨ns, by rw [← hplace]; exact h⟩
  aside := fun id _ => by rw [hplace]
  down := hdown

theorem Frame.of_rings (hrings : base'.rings = base.rings) (hlinks : base'.links = base.links)
    (hhandle : base'.handle = base.handle)
    (hmax : base'.globalMaxRequestsInflight = base.globalMaxRequestsInflight)
    (hdown : ∀ ns, base'.goods.up ns = true → base.goods.up ns = true) :
    Frame loose 0 base base' :=
  .of_views (congrArg DnsRings.place hrings) (congrArg DnsRings.servers hrings)
    (congrArg DnsRings.waiting hrings) (congrArg DnsRings.inflight hrings) hlinks hhandle hmax
    hdown

/-- Details of a request change. Its timer may be started when the request has a nameserver. -/
theorem Inv.touchReq (h : base.Inv ctx) (hreq : base.req id = some req)
    (hplace : (f req).ns = req.ns ∧ (f req).transId = req.transId) (howner : ∀ req, (f req).handle =
      req.handle ∧ (f req).userCallback = req.userCallback ∧ (f req).requestType = req.requestType)
    (htimer : (f req).timer = true → req.timer = true ∨ req.ns.isSome) :
    (base.modifyReq id f).Inv ctx ∧ Frame ctx.loose 0 base (base.modifyReq id f) := by
  have hlinks := links_modifyReq_eq base id howner
  have hrings : (base.modifyReq id f).rings = base.rings.setTimer id (f req).timer := by
    rw [rings_modifyReq base hreq, hplace.1, hplace.2, ← place_of_req hreq rfl, DnsRings.setPlace,
      update_eq_self]
  have hflying : (f req).timer = true → ∃ ns t, base.rings.place id = some (some ns, t) := by
    intro hon
    rcases htimer hon with hon | hns
    · exact h.rings.timer id (by simp [EvdnsBase.rings, hreq, hon])
    · obtain ⟨ns, hns⟩ := Option.isSome_iff_exists.mp hns
      exact ⟨ns, req.transId, by rw [place_of_req hreq rfl, hns]⟩
  refine ⟨h.of_links ?_ hlinks h.goods rfl, .of_views ?_ rfl rfl rfl hlinks rfl rfl
    fun _ hup => hup⟩
  · rw [hrings]
    exact h.rings.setTimer hflying
  · rw [hrings]
    rfl

/-- Details of a nameserver change. -/
theorem Inv.touchNs (h : base.Inv ctx) (ns : Nat) {f : Nameserver → Nameserver}
    (hf : ∀ server, (f server).requestsInflight = server.requestsInflight ∧
      (f server).probeRequest = server.probeRequest ∧ (f server).state = server.state) :
    (base.modifyNs ns f).Inv ctx ∧ Frame ctx.loose 0 base (base.modifyNs ns f) := by
  have hrings := rings_modifyNs_eq base ns fun server => (hf server).1
  have hlinks := links_modifyNs_eq base ns fun server => (hf server).2.1
  have hgoods := goods_modifyNs_eq base ns fun server => (hf server).2.2
  exact ⟨h.congr hrings hlinks hgoods, .of_rings hrings hlinks rfl rfl fun _ hup => hgoods ▸ hup⟩

/-- A base whose ring of nameservers has been rotated. -/
theorem Inv.rotate (h : base.Inv ctx) {servers : List Nat} (hperm : servers.Perm base.servers) :
    { base with servers := servers }.Inv ctx ∧
      Frame ctx.loose 0 base { base with servers := servers } :=
  ⟨h.of_links (h.rings.rotate hperm) rfl (h.goods.rotate hperm) rfl,
    { Frame.refl ctx.loose base with servers := hperm }⟩

/-- The request is in flight. -/
def Flying (base : EvdnsBase) (loose : List Nat) (id : Nat) : Prop :=
  id ∉ loose ∧ ∃ ns t, base.rings.place id = some (some ns, t)

theorem Flying.keep {n : Nat} (h : base.Flying loose id) (hframe : Frame loose n base base') :
    base'.Flying loose id := by
  obtain ⟨hloose, ns, t, hplace⟩ := h
  obtain ⟨ns', hplace'⟩ := hframe.flying id ns t hplace
  exact ⟨hloose, ns', t, hplace'⟩

/-- The requests of the rings are in flight. -/
theorem Inv.flying_of_mem (h : base.Inv ctx) (hid : id ∈ base.reqHeads.flatten) :
    base.Flying ctx.loose id := by
  refine ⟨fun hmem => ?_, h.rings.place_of_mem_flatten hid⟩
  exact (List.nodup_append.mp h.rings.nodup).2.2 id (List.mem_append_right _ hid) id hmem rfl

/-- A request that is in no exception has a handle. -/
theorem Inv.owner (h : base.Inv ctx) (hreq : base.req id = some req)
    (hloose : id ∉ ctx.loose) : ∃ hd, req.handle = some hd := by
  cases hh : req.handle with
  | some hd => exact ⟨hd, rfl⟩
  | none =>
    have howner := owner_of_req hreq hh
    exact absurd (h.links.owned id _ howner) hloose

/-- A request that has a handle is valid. -/
theorem assertValidRequest_eq (h : base.links.Ok ctx) {hd : Nat} {c : DnsCallback × DnsType}
    (howner : base.links.owner id = some (some hd, c)) : base.assertValidRequest id = .ok () := by
  obtain ⟨req, hreq, hh, -⟩ := exists_req_of_owner howner
  obtain ⟨pending, hcur⟩ := h.linked id hd c howner
  obtain ⟨handle, hhandle, hcur, -⟩ := exists_handle_of_current hcur
  simp [assertValidRequest, getReq_eq hreq, hh, getHandle_eq hhandle, hcur, bind, Except.bind,
    pure, Except.pure]

theorem Inv.assertValid (h : base.Inv ctx) (hid : base.Flying ctx.loose id) :
    base.assertValidRequest id = .ok () := by
  obtain ⟨hloose, ns, t, hplace⟩ := hid
  obtain ⟨req, hreq, -⟩ := exists_req_of_place hplace
  obtain ⟨hd, hhd⟩ := h.owner hreq hloose
  exact assertValidRequest_eq h.links (by rw [owner_of_req hreq rfl, hhd])

/-- The first request that waits. -/
theorem Inv.first_waits {rest : List Nat} (h : base.Inv ctx)
    (hwaiting : base.reqWaitingHead = id :: rest) :
    id ∈ base.rings.waiting ∧ ∃ t req, base.rings.place id = some (none, t) ∧
      base.req id = some req ∧ req.ns = none := by
  have hmem : id ∈ base.rings.waiting := by
    show id ∈ base.reqWaitingHead
    rw [hwaiting]
    exact List.mem_cons_self
  obtain ⟨t, hplace⟩ := h.rings.place_of_mem_waiting hmem
  obtain ⟨req, hreq, hns, -⟩ := exists_req_of_place hplace
  exact ⟨hmem, t, req, hplace, hreq, hns⟩

end EvdnsBase

end Libevent
