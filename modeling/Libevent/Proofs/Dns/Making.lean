import Libevent.Proofs.Dns.Finishing

/-!
# `Libevent.Proofs.Dns.Making`: the functions that make and submit a request

`requestNew_spec`, `requestSubmit_spec`: `request_new` makes a request that is in no ring yet, and
picks a nameserver for it if it can be sent at once. `request_submit` puts it into a ring: that of
its transaction id if it has a nameserver, and the waiting ring otherwise.
-/

namespace Libevent

open Lib Function

namespace EvdnsBase

variable {base base' mid : EvdnsBase} {ctx ctx' : DnsCtx} {env : DnsEnv} {permits : DnsPermits}
  {loose : List Nat} {id hd : Nat} {handle : Option Nat} {c : DnsCallback × DnsType}
  {req : DnsRequest} {idle : List Nat}

/-- No request is being made, answered or sent. -/
structure Settled (ctx : DnsCtx) : Prop where
  loose : ctx.loose = []
  closing : ctx.closing = []
  fresh : ctx.fresh = none

/-! ### `request_new` -/

/-- `request_new` accepts the name. -/
def requestable (name : Bytes) : Bool := decide (name.length < 256) && dnsnameToLabelsOk name

/-- The request can be sent at once, if there is a nameserver. -/
abbrev Issuing (base : EvdnsBase) : Prop :=
  base.globalRequestsInflight < base.globalMaxRequestsInflight

/-- The links after a request has been made. -/
def newLinks (l : DnsLinks) (handle : Option Nat) (id : Nat) (c : DnsCallback × DnsType) :
    DnsLinks :=
  match handle with
  | none => l.bear id c
  | some hd => l.adopt id hd c

/-- The handle can be given the request: it has none, and it is that of a probe or of a search only
if the callback is for it. -/
structure Adoptable (base : EvdnsBase) (ctx : DnsCtx) (callback : DnsCallback) (hd : Nat) :
    Prop where
  current : base.links.current hd = some (none, false)
  probe : ∀ ns, ns ∉ ctx.hidden → base.links.probe ns = some hd → callback = .probe ns
  search : base.links.searching hd = true → callback = .user

/-- From `base` to `base'`, the request `id` has been made. -/
structure Made (env : DnsEnv) (permits : DnsPermits) (ctx ctx' : DnsCtx) (handle : Option Nat)
    (c : DnsCallback × DnsType) (id : Nat) (base base' : EvdnsBase) : Prop where
  links : base'.links = newLinks base.links handle id c
  fresh : base.req id = none
  place : ∀ x, x ≠ id → base'.rings.place x = base.rings.place x
  heads : base'.reqHeads = base.reqHeads
  waiting : base'.reqWaitingHead = base.reqWaitingHead
  inflight : base'.globalRequestsInflight = base.globalRequestsInflight
  unsent : ∃ req, base'.req id = some req ∧ req.sentTo = none
  /-- It has a nameserver when it can be sent at once. -/
  ready : ∃ ns t, base'.rings.place id = some (ns, t) ∧
    (∀ n, ns = some n → n ∈ base'.servers ∧ t ≠ 0xffff ∧ base.Unused t) ∧
    (ns.isSome → base.Issuing) ∧ (base.Issuing → base.servers ≠ [] → ns.isSome)
  path : Path env permits base ctx base' ctx'

/-- No other request is in flight with an id that was free. -/
theorem Made.unused (hmade : Made env permits ctx ctx' handle c id base mid) (hmid : mid.Inv ctx')
    (hid : id ∈ ctx'.loose) {t : Nat} (ht : base.Unused t) : mid.Unused t := by
  intro x hx ns hplace
  have hne : x ≠ id := by
    rintro rfl
    exact (hmid.flying_of_mem hx).1 hid
  exact ht x (hmade.heads ▸ hx) ns ((hmade.place x hne).symm.trans hplace)

/-- The request belongs to its handle. -/
theorem Made.adopted (hmade : Made env permits ctx ctx' (some hd) c id base mid) :
    mid.links.owner id = some (some hd, c) ∧ mid.links.current hd = some (some id, false) := by
  rw [hmade.links]
  exact ⟨update_self .., update_self ..⟩

/-- The request that `request_new` allocates. -/
theorem newReq_spec (h : base.Inv ctx) (hctx : Settled ctx)
    (hhandle : ∀ hd, req.handle = some hd → Adoptable base ctx req.userCallback hd)
    (htarget : ∀ ns, req.userCallback = .probe ns → ns < base.nextNs)
    (hidle : ∀ x ∈ ctx.idle, req.handle ≠ some x → x ∈ idle) (htimer : req.timer = false) :
    (base.newReq req).2 = base.nextReq ∧
    (base.newReq req).1.Inv { ctx with loose := [base.nextReq], idle := idle } ∧
    (base.newReq req).1.rings = base.rings.make (req.ns, req.transId) ∧
    (base.newReq req).1.links =
      newLinks base.links req.handle base.nextReq (req.userCallback, req.requestType) := by
  have hnone : base.links.owner base.nextReq = none := by
    have hfresh := h.rings.fresh base.nextReq (Nat.le_refl _)
    have hreq : base.req base.nextReq = none := Option.map_eq_none_iff.mp hfresh
    simp [links, hreq]
  have hid : (base.newReq req).2 = base.nextReq := by
    rw [newReq]
    cases req.handle <;> rfl
  have hgoods : (base.newReq req).1.goods = base.goods := by
    rw [newReq]
    cases req.handle <;> rfl
  have hrings : (base.newReq req).1.rings = base.rings.make (req.ns, req.transId) := by
    rw [newReq]
    cases req.handle <;> simp only [rings, modifyHandle, DnsRings.make, DnsRings.setPlace,
      map_update, any_update, Option.map_some, Option.any_some, htimer]
  have hmade := h.rings.make (req.ns, req.transId)
  rw [hctx.loose] at hmade
  -- in both cases the links get one more request
  have hinv : ∀ {l : DnsLinks} {x : Option Nat}, (base.newReq req).1.links = l →
      l.Ok { ctx with loose := [base.nextReq], idle := idle } →
      l.owner = update base.links.owner base.nextReq
        (some (x, req.userCallback, req.requestType)) → l.deferred = base.links.deferred →
      (base.newReq req).1.Inv { ctx with loose := [base.nextReq], idle := idle } := by
    intro l x hl hok howner hdeferred
    refine ⟨hrings ▸ hmade, hl ▸ hok, hgoods ▸ h.goods, fun ns hns => ?_⟩
    rw [hgoods]
    rcases DnsLinks.mentions_update howner hdeferred (hl ▸ hns) with hold | hnew
    · exact h.targets ns hold
    · exact htarget ns hnew
  cases hh : req.handle with
  | none =>
    have hlinks : (base.newReq req).1.links =
        base.links.bear base.nextReq (req.userCallback, req.requestType) := by
      simp only [newReq, hh, links, DnsLinks.bear, map_update, Option.map_some]
    have hbear := h.links.bear (req.userCallback, req.requestType) hnone
      fun x hmem => hidle x hmem (by rw [hh]; rintro ⟨⟩)
    rw [hctx.loose] at hbear
    exact ⟨hid, hinv hlinks hbear rfl rfl, hrings, hlinks⟩
  | some hd =>
    have hadopt := hhandle hd hh
    obtain ⟨old, hold, -, hpending⟩ := exists_handle_of_current hadopt.current
    have hlinks : (base.newReq req).1.links =
        base.links.adopt base.nextReq hd (req.userCallback, req.requestType) := by
      simp only [newReq, hh, links, modifyHandle, DnsLinks.adopt, map_update, any_update,
        Option.map_some, Option.any_some, hold, hpending, searching_self hold]
    refine ⟨hid, hinv hlinks ?_ rfl rfl, hrings, hlinks⟩
    refine (h.links.adopt (by simp [hnone]) hadopt.current
      (by rw [hctx.closing]; exact List.not_mem_nil)
      hadopt.probe hadopt.search (fun x hx hne => hidle x hx ?_)).toLoose ?_
    · rw [hh]
      exact fun heq => hne (Option.some.inj heq).symm
    · intro i _ _ hi
      exact absurd hi (by rw [hctx.loose]; exact List.not_mem_nil)

/-- The end of `request_new`, with the nameserver and the transaction id that it has found. -/
theorem requestNew_tail (hmid : mid.Inv ctx) (hctx : Settled ctx)
    (hkeeps : Keeps env permits 0 base ctx mid ctx) (hplace : mid.rings.place = base.rings.place)
    (hheads : mid.reqHeads = base.reqHeads) (hnext : mid.nextNs = base.nextNs)
    (htimer : req.timer = false) (hpacket : req.packetId = htons req.transId)
    (hsent : req.sentTo = none)
    (hhandle : ∀ hd, req.handle = some hd → Adoptable base ctx req.userCallback hd)
    (htarget : ∀ ns, req.userCallback = .probe ns → ns < base.nextNs)
    (hidle : ∀ x ∈ ctx.idle, req.handle ≠ some x → x ∈ idle) (hready : ∀ n, req.ns = some n → n ∈
      mid.servers ∧ req.transId ≠ 0xffff ∧ base.Unused req.transId)
    (hissue : req.ns.isSome → base.Issuing)
    (hissue' : base.Issuing → base.servers ≠ [] → req.ns.isSome) :
    (mid.newReq req).1.Inv { ctx with loose := [(mid.newReq req).2], idle := idle } ∧
      Made env permits ctx { ctx with loose := [(mid.newReq req).2], idle := idle } req.handle
        (req.userCallback, req.requestType) (mid.newReq req).2 base (mid.newReq req).1 := by
  have hhandle' : ∀ hd, req.handle = some hd → Adoptable mid ctx req.userCallback hd := by
    intro hd hh
    obtain ⟨hcur, hprobe, hsearch⟩ := hhandle hd hh
    rw [← hkeeps.links] at hcur hprobe hsearch
    exact ⟨hcur, hprobe, hsearch⟩
  obtain ⟨hid, hinv, hrings, hlinks⟩ :=
    newReq_spec hmid hctx hhandle' (hnext ▸ htarget) hidle htimer
  have hmake : Change env permits mid ctx (mid.newReq req).1
      { ctx with loose := [mid.nextReq], idle := idle } :=
    .make hmid hpacket hsent (by rw [hctx.loose]) rfl rfl
  rw [hid]
  have hservers : (mid.newReq req).1.servers = mid.servers := congrArg DnsRings.servers hrings
  refine ⟨hinv, ?_⟩
  exact {
    links := by rw [hlinks, hkeeps.links]
    fresh := by
      have hfresh := hmid.rings.fresh mid.nextReq (Nat.le_refl _)
      rw [hplace] at hfresh
      exact Option.map_eq_none_iff.mp hfresh
    place := by
      intro x hx
      rw [hrings, ← hplace]
      exact update_of_ne hx _ _
    heads := (congrArg DnsRings.heads hrings).trans hheads
    waiting := (congrArg DnsRings.waiting hrings).trans hkeeps.waiting
    inflight := (congrArg DnsRings.inflight hrings).trans (hkeeps.inflight.trans (Int.add_zero _))
    unsent := ⟨req, by rw [newReq_req, update_self], hsent⟩
    ready := by
      refine ⟨req.ns, req.transId, ?_, fun n hn => ?_, hissue, hissue'⟩
      · rw [hrings]
        exact update_self ..
      · rw [hservers]
        exact hready n hn
    path := hkeeps.path.change hmake }

variable (env) in
/-- `request_new` draws a transaction id when the request can be sent at once. -/
theorem draw_spec (h : base.Inv ctx) : Yields ctx.Tolerates
      (if base.Issuing then base.transactionIdPick env else pure (base, 0xffff)) fun p =>
      (∃ draws, p.1 = { base with draws := draws }) ∧
        (base.Issuing → base.Unused p.2 ∧ p.2 ≠ 0xffff) := by
  split
  · refine (transactionIdPick_spec env base).mono ?_
    rintro p ⟨hp, ht⟩
    exact ⟨⟨_, hp⟩, fun _ => unused_of_idUnused h.rings ht⟩
  · next hnot => exact ⟨⟨base.draws, rfl⟩, fun hissue => absurd hissue hnot⟩

variable (env permits) in
/-- How many ids have been drawn does not matter. -/
theorem draws_keeps (h : base.Inv ctx) (draws : Nat) : { base with draws := draws }.Inv ctx ∧
      Keeps env permits 0 base ctx { base with draws := draws } ctx := by
  have haside : Aside base { base with draws := draws } := ⟨rfl, rfl, rfl, rfl, rfl, rfl, rfl⟩
  exact ⟨h.congr rfl rfl rfl, .of_rings rfl rfl rfl rfl fun _ hup => hup,
    (Change.aside haside (.refl ctx)).path⟩

variable (env permits) in
/-- A request is made unless its name is refused; it is in no ring yet. -/
theorem requestNew_spec (h : base.Inv ctx) (hctx : Settled ctx) {type : DnsType} {name : Bytes}
    {callback : DnsCallback} (hhandle : ∀ hd, handle = some hd → Adoptable base ctx callback hd)
    (htarget : ∀ ns, callback = .probe ns → ns < base.nextNs)
    (hidle : ∀ x ∈ ctx.idle, handle ≠ some x → x ∈ idle) :
    Yields ctx.Tolerates (base.requestNew env handle type name callback) fun p =>
      p.2.isSome = requestable name ∧
      (p.2 = none → p.1.Inv ctx ∧ Keeps env permits 0 base ctx p.1 ctx) ∧
      ∀ id, p.2 = some id → p.1.Inv { ctx with loose := [id], idle := idle } ∧
        Made env permits ctx { ctx with loose := [id], idle := idle } handle (callback, type) id
          base p.1 := by
  refine Yields.ite_bind (draw_spec env h) ?_
  rintro ⟨base1, t⟩ ⟨⟨draws, rfl⟩, ht⟩
  obtain ⟨h1, hkeeps1⟩ := draws_keeps env permits h draws
  split
  · next hlong =>
    refine ⟨?_, fun _ => ⟨h1, hkeeps1⟩, nofun⟩
    have hlen : ¬ name.length < 256 := by omega
    simp [requestable, hlen]
  next hlen =>
  split
  · next hlabels =>
    refine ⟨?_, fun _ => ⟨h1, hkeeps1⟩, nofun⟩
    have hbad : dnsnameToLabelsOk name = false := by simpa using hlabels
    simp [requestable, hbad]
  next hlabels =>
  have hgood : requestable name = true := by
    have hlen' : name.length < 256 := by omega
    simpa [requestable, hlen'] using hlabels
  split
  · next hissue =>
    refine (nameserverPick_spec h1).bind ?_
    rintro ⟨base2, picked⟩ hpick
    obtain ⟨h2, hkeeps2⟩ := hpick.keeps env permits h1
    refine ⟨hgood.symm, nofun, ?_⟩
    rintro id ⟨rfl⟩
    obtain ⟨servers, rfl, hperm⟩ := hpick.rotated
    refine requestNew_tail h2 hctx (hkeeps1.trans hkeeps2 rfl) rfl rfl rfl rfl rfl rfl hhandle
      htarget hidle (fun n hn => ?_) (fun _ => hissue) fun _ hne => ?_
    · exact ⟨hpick.mem n hn, (ht hissue).2, (ht hissue).1⟩
    cases picked with
    | some ns => rfl
    | none => exact absurd (hpick.none rfl) hne
  · next hissue =>
    refine ⟨hgood.symm, nofun, ?_⟩
    rintro id ⟨rfl⟩
    exact requestNew_tail h1 hctx hkeeps1 rfl rfl rfl rfl rfl rfl hhandle htarget hidle nofun
      nofun
      fun hlt => absurd hlt hissue

/-! ### `request_submit` -/

/-- From `base` to `base'`, the request `id` has been put into a ring. -/
structure Submitted (env : DnsEnv) (permits : DnsPermits) (ctx : DnsCtx) (id : Nat)
    (base base' : EvdnsBase) : Prop where
  links : base'.links = base.links
  /-- It was put into flight, or it waits. -/
  entered : (base'.reqWaitingHead = base.reqWaitingHead ∧
      base'.globalRequestsInflight = base.globalRequestsInflight + 1 ∧
      ∃ ns t, base.rings.place id = some (some ns, t)) ∨
    (base'.reqWaitingHead = base.reqWaitingHead ++ [id] ∧
      base'.globalRequestsInflight = base.globalRequestsInflight ∧
      ∃ t, base.rings.place id = some (none, t))
  path : Path env permits base { ctx with loose := [id] } base' ctx

/-- A request that is in no ring is put into flight. -/
theorem launchReq_frame (h : base.Inv { ctx with loose := [id] }) (hctx : Settled ctx)
    (howner : base.links.owner id = some (some hd, c)) {ns t : Nat}
    (hplace : base.rings.place id = some (some ns, t)) (hns : ns ∈ base.servers) (ht : t ≠ 0xffff) :
    (base.launchReq id ns t).Inv ctx ∧ (base.launchReq id ns t).Flying ctx.loose id := by
  have hrings := rings_launchReq base id ns t
  have hlinks := links_launchReq base id ns t
  have hgoods := goods_launchReq base id ns t
  have hok : (base.launchReq id ns t).rings.Ok [] := by
    rw [hrings]
    exact h.rings.launch hplace hns ht
  have hlinksOk : base.links.Ok ctx := by
    have hout := h.links.unloose howner
    rw [← hctx.loose] at hout
    exact hout
  refine ⟨⟨hctx.loose ▸ hok, hlinks ▸ hlinksOk, hgoods ▸ h.goods, ?_⟩, ?_, ns, t, ?_⟩
  · exact h.targets
  · rw [hctx.loose]
    exact List.not_mem_nil
  · exact hplace

/-- The request waits at the end of the queue. -/
def enqueueReq (base : EvdnsBase) (id : Nat) : EvdnsBase :=
  { base with
    reqWaitingHead := base.reqWaitingHead ++ [id]
    globalRequestsWaiting := base.globalRequestsWaiting + 1 }

variable (env permits) in
/-- A new request comes to its ring, or waits. -/
theorem requestSubmit_spec (h : base.Inv { ctx with loose := [id] }) (hctx : Settled ctx)
    (hreq : base.req id = some req) (hhd : req.handle = some hd)
    (huser : req.ns = none → req.userCallback = .user) (hsent : req.sentTo = none) (hready : ∀ n,
      req.ns = some n → n ∈ base.servers ∧ req.transId ≠ 0xffff ∧ (base.Unused req.transId ∨
      permits.stale)) :
    Yields ctx.Tolerates (base.requestSubmit env id) fun base' =>
      base'.Inv ctx ∧ Submitted env permits ctx id base base' := by
  have hplace := place_of_req hreq rfl
  have howner := owner_of_req hreq hhd
  have hvalid := assertValidRequest_eq h.links howner
  rw [requestSubmit, hvalid, yields_ok_bind, getReq_eq hreq, yields_ok_bind]
  cases hns : req.ns with
  | some ns =>
    obtain ⟨hserver, ht, hunused⟩ := hready ns hns
    rw [hns] at hplace
    obtain ⟨h1, hid1⟩ := launchReq_frame h hctx howner hplace hserver ht
    have hchange : Change env permits base { ctx with loose := [id] }
        (base.launchReq id ns req.transId) { ctx with fresh := some id } :=
      .launch h (by rw [hctx.loose]) hreq ⟨hns, rfl⟩ hsent hunused rfl hctx.fresh rfl
    rw [reqHead, evdnsRequestInsert_head hvalid]
    refine h.useNameserver_bind hserver (by rfl) ?_
    have hspec := evdnsRequestTransmit_due env permits (h1.marks (some id)) hid1 (.inr rfl)
    rw [DnsCtx.settle hctx.fresh] at hspec
    refine Yields.mono hspec ?_
    rintro base2 ⟨h2, hkeeps2⟩
    refine ⟨h2, ?_⟩
    exact {
      links := hkeeps2.links.trans (links_launchReq base id ns req.transId)
      entered := .inl ⟨hkeeps2.waiting, hkeeps2.inflight.trans (Int.add_zero _), ns, req.transId,
        hplace⟩
      path := hchange.path.trans hkeeps2.path }
  | none =>
    rw [hns] at hplace
    rw [evdnsRequestInsert_waiting hvalid]
    have hok : (base.enqueueReq id).rings.Ok ctx.loose := by
      rw [hctx.loose]
      exact h.rings.enqueue hplace
    have hlinksOk : base.links.Ok ctx := by
      have hout := h.links.unloose howner
      rw [← hctx.loose] at hout
      exact hout
    have hchange : Change env permits base { ctx with loose := [id] } (base.enqueueReq id) ctx :=
      .enqueue ⟨rfl, rfl, rfl, rfl, rfl, rfl, rfl⟩ hreq (huser hns) (by rw [hctx.loose]) rfl rfl
    refine ⟨⟨hok, hlinksOk, h.goods, h.targets⟩, ?_⟩
    exact {
      links := rfl
      entered := .inr ⟨rfl, rfl, req.transId, hplace⟩
      path := hchange.path }

/-- From `base` to `base'`, the ring of nameservers has at most been rotated, and if there is `room`
and nothing could be pumped, nothing can be now. -/
structure Stepped (env : DnsEnv) (permits : DnsPermits) (room : Prop) (ctx ctx' : DnsCtx)
    (base base' : EvdnsBase) : Prop where
  pumped : room → base.Pumped → base'.Pumped
  path : Path env permits base ctx base' ctx'

/-- The invariant holds between two operations. -/
abbrev Rests (env : DnsEnv) (permits : DnsPermits) (room : Prop) (base base' : EvdnsBase) : Prop :=
  base'.Inv {} ∧ Stepped env permits room {} {} base base'

theorem Stepped.trans {room room' : Prop} {base'' : EvdnsBase} {ctx'' : DnsCtx}
    (h : Stepped env permits room ctx ctx' base base')
    (h' : Stepped env permits room' ctx' ctx'' base' base'') :
    Stepped env permits (room ∧ room') ctx ctx'' base base'' where
  pumped := fun hroom hpumped => h'.pumped hroom.2 (h.pumped hroom.1 hpumped)
  path := h.path.trans h'.path

theorem Stepped.room {room room' : Prop} (h : Stepped env permits room ctx ctx' base base')
    (hroom : room' → room) : Stepped env permits room' ctx ctx' base base' :=
  { h with pumped := fun hroom' => h.pumped (hroom hroom') }

theorem yields_room {E : DnsFault → Prop} {r : Except DnsFault EvdnsBase} {room room' : Prop}
    (h : Yields E r fun base' => base'.Inv ctx' ∧ Stepped env permits room ctx ctx' base base')
    (hroom : room' → room) :
    Yields E r fun base' => base'.Inv ctx' ∧ Stepped env permits room' ctx ctx' base base' :=
  h.mono fun _ hpost => ⟨hpost.1, hpost.2.room hroom⟩

theorem Keeps.stepped (h : Keeps env permits 0 base ctx base' ctx') :
    Stepped env permits True ctx ctx' base base' :=
  ⟨fun _ => h.pumped, h.path⟩

theorem Closed.stepped {err : DnsErr} (h : Closed env permits ctx id hd c err base base') :
    Stepped env permits True ctx ctx base base' :=
  ⟨fun _ _ => h.pumped, h.path⟩

/-- A request that has been made is submitted. -/
theorem Made.stepped {mid' : EvdnsBase}
    (hmade : Made env permits ctx { ctx' with loose := [id] } handle c id base mid)
    (hrings : mid'.rings = mid.rings)
    (hpath : Path env permits mid { ctx' with loose := [id] } mid' { ctx' with loose := [id] })
    (hsubmit : Submitted env permits ctx' id mid' base') :
    Stepped env permits True ctx ctx' base base' := by
  have hpath' : Path env permits base ctx base' ctx' :=
    hmade.path.trans (hpath.trans hsubmit.path)
  refine ⟨fun _ hpumped hne => ?_, hpath'⟩
  obtain ⟨ns, t, hplace, -, hissue, hissue'⟩ := hmade.ready
  rw [← hrings] at hplace
  have hne' : base.servers ≠ [] := fun hnil => hne (List.perm_nil.mp (hnil ▸ hpath'.servers))
  have hwaiting : mid'.reqWaitingHead = base.reqWaitingHead :=
    (congrArg DnsRings.waiting hrings).trans hmade.waiting
  have hinflight : mid'.globalRequestsInflight = base.globalRequestsInflight :=
    (congrArg DnsRings.inflight hrings).trans hmade.inflight
  rw [hpath'.max]
  rcases hsubmit.entered with ⟨hwaiting', hinflight', n, t', hplace'⟩ | ⟨-, hinflight', t', hplace'⟩
  · -- it was sent at once, so that the maximum had not been reached
    rw [hplace] at hplace'
    cases hplace'
    rcases hpumped hne' with hempty | hmax
    · exact .inl (hwaiting'.trans (hwaiting.trans hempty))
    · omega
  -- it waits because the maximum has been reached
  rw [hplace] at hplace'
  cases hplace'
  have hnot : ¬ base.Issuing := fun hissuing => by cases hissue' hissuing hne'
  refine .inr ?_
  omega

end EvdnsBase

end Libevent
