import Libevent.Proofs.Dns.Bookkeeping

/-!
# `Libevent.Proofs.Dns.Listening`: replies are listened for

With `disable_when_inactive`, the event of a nameserver's socket is added when a request is sent to
it while it is the nameserver's only one, and deleted when the last one ends. So the event should be
pending as long as the nameserver has been sent a request that it has not answered.

A request that is put into flight or sent again is sent right away, and then the event is added with
the first of them. But requests also come to a nameserver without being sent: `nameserver_failed`
moves those that a blocked socket has kept from going out, or the one whose sending has just failed,
and `request_reissue` moves one that has been refused. If two requests have come to a nameserver
like that, `requests_inflight` is not 1 when the first is sent, and the event is not added
(`evdnsTransmit_unheard`).

`Heard` is what holds where that does not happen: with one nameserver, or if packets can always be
sent and none is refused (`dnsRun_heard`).
-/

namespace Libevent

open Lib

/-- The packet says that the nameserver does not do what it was asked for. -/
def DnsAction.Blames : DnsAction → Prop
  | .packet _ _ flags reply =>
    EvdnsBase.replyError flags (EvdnsBase.replyGiven flags reply) = some .notimpl ∨
      EvdnsBase.replyError flags (EvdnsBase.replyGiven flags reply) = some .refused
  | _ => False

/-- Every packet is sent. -/
def DnsEnv.Sends (env : DnsEnv) : Prop := ∀ n, env.sendto n = .sent

namespace EvdnsBase

variable {base base' : EvdnsBase} {env : DnsEnv} {permits : DnsPermits} {ctx ctx' : DnsCtx}
  {ns id : Nat} {req : DnsRequest} {action : DnsAction}

/-- What holds for one request, which may be in flight. -/
structure ReqHeard (env : DnsEnv) (ctx : DnsCtx) (server : Nat → Nameserver) (flying : Prop)
    (id : Nat) (req : DnsRequest) : Prop where
  placed : ∀ ns, req.sentTo = some ns → req.ns = some ns
  fresh : ctx.fresh = some id → req.sentTo = none
  heard : flying → ∀ ns, req.sentTo = some ns → (server ns).event = true
  /-- Its nameserver listens or cannot be sent anything, unless it is about to be sent. -/
  idle : flying → ctx.fresh ≠ some id → ∀ ns, req.ns = some ns →
    (server ns).event = true ∨ (server ns).choked = true
  /-- As long as packets can be sent, all requests in flight have been. -/
  steady : flying → ctx.fresh ≠ some id → env.Sends → 0 < req.txCount

/-- A nameserver that has been sent a request listens for the reply. -/
structure Heard (env : DnsEnv) (base : EvdnsBase) (ctx : DnsCtx) : Prop where
  reqs : ∀ id req, base.req id = some req →
    ReqHeard env ctx base.nameserver (id ∈ base.reqHeads.flatten) id req
  unchoked : env.Sends → ∀ ns, (base.nameserver ns).choked = false
  active : base.disableWhenInactive = true

/-! ### Nameservers and requests -/

/-- No nameserver stops to listen, and the sockets are as they were. -/
def Listens (server server' : Nat → Nameserver) : Prop :=
  ∀ ns, ((server ns).event = true → (server' ns).event = true) ∧
    (server' ns).choked = (server ns).choked

theorem Listens.refl (server : Nat → Nameserver) : Listens server server :=
  fun _ => ⟨fun hon => hon, rfl⟩

section
variable (base)

theorem Listens.modifyNs (ns : Nat) {f : Nameserver → Nameserver} (hf : ((base.nameserver ns).event
      = true → (f (base.nameserver ns)).event = true) ∧ (f (base.nameserver ns)).choked =
      (base.nameserver ns).choked) : Listens base.nameserver (base.modifyNs ns f).nameserver := by
  intro x
  by_cases hx : x = ns
  · subst hx
    rw [modifyNs_self]
    exact hf
  · rw [modifyNs_other base hx]
    exact Listens.refl _ x

theorem Listens.writeWaiting (ns : Nat) (waiting : Bool) :
    Listens base.nameserver (base.nameserverWriteWaiting ns waiting).nameserver := by
  rw [nameserverWriteWaiting]
  split
  · exact Listens.refl _
  · exact Listens.modifyNs base ns
      (f := fun server => { server with writeWaiting := waiting, event := true }) ⟨fun _ => rfl,
        rfl⟩

theorem Listens.swapNs (id old ns : Nat) :
    Listens base.nameserver (base.swapNs id old ns).nameserver := by
  intro x
  have hold := Listens.modifyNs base old (f := Nameserver.less) ⟨fun hon => hon, rfl⟩
  have hnew := Listens.modifyNs (base.modifyNs old Nameserver.less) ns (f := Nameserver.more)
    ⟨fun hon => hon, rfl⟩
  exact ⟨fun hon => (hnew x).1 ((hold x).1 hon), (hnew x).2.trans (hold x).2⟩

theorem Listens.launchReq (id ns t : Nat) :
    Listens base.nameserver (base.launchReq id ns t).nameserver :=
  Listens.modifyNs base ns (f := Nameserver.more) ⟨fun hon => hon, rfl⟩

end

section
variable {server server' : Nat → Nameserver} {flying flying' : Prop} {id : Nat}
  {req req' : DnsRequest}

/-- The request is not sent or moved, and its nameserver does not stop to listen. -/
theorem ReqHeard.mono (h : ReqHeard env ctx server flying id req) (hflying : flying' → flying)
    (hns : req'.ns = req.ns) (htx : req.txCount ≤ req'.txCount)
    (hsent : req'.sentTo = req.sentTo ∨ req'.sentTo = none) (hserver : Listens server server')
    (hfresh : ctx'.fresh = some id ↔ ctx.fresh = some id) :
    ReqHeard env ctx' server' flying' id req' := by
  have hkept : ∀ {ns}, req'.sentTo = some ns → req.sentTo = some ns := by
    intro ns hto
    rcases hsent with hsame | hnone
    · exact hsame ▸ hto
    · cases hnone.symm.trans hto
  exact {
    placed := fun ns hto => hns.trans (h.placed ns (hkept hto))
    fresh := by
      intro hid
      rcases hsent with hsame | hnone
      · exact hsame.trans (h.fresh (hfresh.mp hid))
      · exact hnone
    heard := fun hfly ns hto => (hserver ns).1 (h.heard (hflying hfly) ns (hkept hto))
    idle := by
      intro hfly hne ns hon
      rw [(hserver ns).2]
      exact (h.idle (hflying hfly) (mt hfresh.mpr hne) ns (hns ▸ hon)).imp_left (hserver ns).1
    steady := fun hfly hne hsends =>
      Nat.lt_of_lt_of_le (h.steady (hflying hfly) (mt hfresh.mpr hne) hsends) htx }

/-- A request that has not been sent is not in flight, or it is about to be sent. -/
theorem ReqHeard.of_unsent (hsent : req.sentTo = none) (h : flying → ctx.fresh = some id) :
    ReqHeard env ctx server flying id req where
  placed := by
    intro ns hto
    cases hsent.symm.trans hto
  fresh := fun _ => hsent
  heard := by
    intro _ ns hto
    cases hsent.symm.trans hto
  idle := fun hfly hne => absurd (h hfly) hne
  steady := fun hfly hne => absurd (h hfly) hne

end

/-! ### The pieces -/

section
variable (h : Heard env base ctx) (hheads : ∀ x ∈ base'.reqHeads.flatten, x ∈ base.reqHeads.flatten)
include h hheads

/-- No request is sent or moved, and no nameserver stops to listen. -/
theorem Heard.mono (hreq : ∀ id req', base'.req id = some req' → ∃ req, base.req id = some req ∧
      req'.ns = req.ns ∧ req.txCount ≤ req'.txCount ∧ (req'.sentTo = req.sentTo ∨ req'.sentTo =
      none)) (hns : Listens base.nameserver base'.nameserver) (hfresh : ctx'.fresh = ctx.fresh)
    (hactive : base'.disableWhenInactive = base.disableWhenInactive) : Heard env base' ctx' where
  reqs := by
    intro id req' hreq'
    obtain ⟨req, hold, hplace, htx, hsent⟩ := hreq id req' hreq'
    exact (h.reqs id req hold).mono (hheads id) hplace htx hsent hns (by rw [hfresh])
  unchoked := fun hsends ns => (hns ns).2.trans (h.unchoked hsends ns)
  active := hactive.trans h.active

/-- The requests are the same. -/
theorem Heard.congr (hreq : base'.req = base.req) (hns : Listens base.nameserver base'.nameserver)
    (hfresh : ctx'.fresh = ctx.fresh)
    (hactive : base'.disableWhenInactive = base.disableWhenInactive) : Heard env base' ctx' :=
  h.mono hheads (fun _ req' hreq' => ⟨req', hreq ▸ hreq', rfl, Nat.le_refl _, .inl rfl⟩) hns
    hfresh hactive

end

theorem Heard.startSend (h : Heard env base ctx) (ns : Nat) : Heard env (base.startSend ns) ctx :=
  h.congr (fun _ hx => hx) rfl (Listens.modifyNs base ns (f := base.startEvent)
    ⟨fun hevent => by simp only [startEvent, hevent, Bool.true_or], rfl⟩) rfl rfl

/-- All that happens is about one request. -/
theorem Heard.focus (h : Heard env base ctx) (id : Nat) (hself : ∀ req, base'.req id = some req →
      ReqHeard env ctx' base'.nameserver (id ∈ base'.reqHeads.flatten) id req)
    (hreq : ∀ x req, x ≠ id → base'.req x = some req → base.req x = some req)
    (hheads : ∀ x ∈ base'.reqHeads.flatten, x ≠ id → x ∈ base.reqHeads.flatten)
    (hns : Listens base.nameserver base'.nameserver)
    (hfresh : ∀ x, x ≠ id → (ctx'.fresh = some x ↔ ctx.fresh = some x))
    (hactive : base'.disableWhenInactive = base.disableWhenInactive) : Heard env base' ctx' where
  reqs := by
    intro x req hx
    by_cases hid : x = id
    · subst hid
      exact hself req hx
    · exact (h.reqs x req (hreq x req hid hx)).mono (fun hfly => hheads x hfly hid) rfl
        (Nat.le_refl _)
        (.inl rfl) hns (hfresh x hid)
  unchoked := fun hsends ns => (hns ns).2.trans (h.unchoked hsends ns)
  active := hactive.trans h.active

theorem onServer_iff : DnsRings.onServer base.rings.place ns id = true ↔
    ∃ req, base.req id = some req ∧ req.ns = some ns := by
  rw [onServer_eq, Option.any_eq_true]
  simp only [decide_eq_true_eq]

theorem DueOnly.fresh_iff {x : Nat} (h : DueOnly ctx id) (hx : x ≠ id) :
    none = some x ↔ ctx.fresh = some x := by
  refine ⟨nofun, fun hfresh => ?_⟩
  rcases h with hnone | hsome
  · cases hnone.symm.trans hfresh
  · rw [hsome] at hfresh
    exact absurd (Option.some.inj hfresh).symm hx

/-- A request that was about to be sent is not any more, and nothing else is. -/
theorem fresh_iff_of_none {x : Nat} (hfresh : ctx.fresh = none) (hx : x ≠ id) :
    some id = some x ↔ ctx.fresh = some x := by
  rw [hfresh]
  exact ⟨fun heq => absurd (Option.some.inj heq).symm hx, nofun⟩

section
variable (h : Heard env base ctx)
include h

/-- The request about to be sent has been dealt with: its nameserver listens, or it is choked. -/
theorem Heard.settle (hdue : DueOnly ctx id)
    (hplace : ∀ req, base.req id = some req → req.ns = some ns)
    (hlistens : (base.nameserver ns).event = true ∨ (base.nameserver ns).choked = true)
    (htried : env.Sends → ∀ req, base.req id = some req → 0 < req.txCount) :
    Heard env base { ctx with fresh := none } := by
  refine h.focus id (fun req hreq => ?_) (fun _ _ _ hreq => hreq) (fun _ hx _ => hx)
    (Listens.refl _)
    (fun x hx => hdue.fresh_iff hx) rfl
  have hself := h.reqs id req hreq
  refine ⟨hself.placed, nofun, hself.heard, fun _ _ m hon => ?_,
    fun _ _ hsends => htried hsends req hreq⟩
  obtain rfl := Option.some.inj ((hplace req hreq).symm.trans hon)
  exact hlistens

/-- The nameserver that a request is sent to listens, unless it is choked. -/
theorem Heard.startSend_event (hflies : FliesTo base ctx id ns) (hdue : DueOnly ctx id)
    (hchoked : (base.nameserver ns).choked = false) :
    ((base.startSend ns).nameserver ns).event = true := by
  have hself : ((base.startSend ns).nameserver ns).event = ((base.nameserver ns).event ||
        ((base.nameserver ns).requestsInflight = 1 && base.disableWhenInactive)) := by
    show (Function.update base.nameserver ns _ ns).event = _
    rw [Function.update_self]
    rfl
  rw [hself, h.active]
  cases hevent : (base.nameserver ns).event with
  | true => rfl
  | false =>
    -- this request is the only one of the nameserver
    have honly : ∀ x ∈ base.reqHeads.flatten,
        (DnsRings.onServer base.rings.place ns x = true ↔ (x == id) = true) := by
      intro x hx
      rw [onServer_iff, beq_iff_eq]
      constructor
      · rintro ⟨req, hreq, hns⟩
        by_contra hne
        have hidle := (h.reqs x req hreq).idle hx
          (fun hfresh => nomatch (hdue.fresh_iff hne).mpr hfresh) ns hns
        rw [hevent, hchoked] at hidle
        simp at hidle
      · rintro rfl
        obtain ⟨t, hplace⟩ := hflies.place
        obtain ⟨req, hreq, hns, -⟩ := exists_req_of_place hplace
        exact ⟨req, hreq, hns⟩
    have hload : (base.nameserver ns).requestsInflight = 1 := by
      have hcount : (base.nameserver ns).requestsInflight =
          base.reqHeads.flatten.countP (DnsRings.onServer base.rings.place ns) :=
        hflies.inv.rings.load ns hflies.server
      have hnodup : base.reqHeads.flatten.Nodup :=
        (List.nodup_append.mp (List.nodup_append.mp hflies.inv.rings.nodup).1).2.1
      have hone : base.reqHeads.flatten.count id = 1 :=
        List.count_eq_one_of_mem hnodup hflies.flying
      rw [List.countP_congr honly] at hcount
      exact hcount.trans (congrArg Nat.cast hone)
    rw [hload]
    rfl

/-- The request about to be sent gets another nameserver. -/
theorem Heard.swapNs {old : Nat} (hfresh : ctx.fresh = some id) :
    Heard env (base.swapNs id old ns) ctx := by
  refine h.focus id (fun req' hreq' => ?_) (fun _ _ => modifyReq_other) (fun _ hx _ => hx)
    (Listens.swapNs base id old ns) (fun _ _ => Iff.rfl) rfl
  obtain ⟨req, hreq, rfl⟩ := modifyReq_old hreq'
  exact ReqHeard.of_unsent ((h.reqs id req hreq).fresh hfresh) fun _ => hfresh

/-- A request that is in no ring changes, and has not been sent. -/
theorem Heard.modifyAside {f : DnsRequest → DnsRequest} (hid : id ∉ base.reqHeads.flatten)
    (hf : ∀ req, base.req id = some req → (f req).sentTo = none) :
    Heard env (base.modifyReq id f) ctx := by
  refine h.focus id (fun req' hreq' => ?_) (fun _ _ => modifyReq_other) (fun _ hx _ => hx)
    (Listens.refl _) (fun _ _ => Iff.rfl) rfl
  obtain ⟨req, hreq, rfl⟩ := modifyReq_old hreq'
  exact ReqHeard.of_unsent (hf req hreq) fun hmem => absurd hmem hid

/-- A request that has not been sent is put into flight, and is about to be sent. -/
theorem Heard.launchReq (hpos : 0 < base.reqHeads.length) (hfresh : ctx.fresh = none) {t : Nat}
    (hsent : ∀ req, base.req id = some req → req.sentTo = none) (hfresh' : ctx'.fresh = some id) :
    Heard env (base.launchReq id ns t) ctx' := by
  refine h.focus id (fun req hreq => ReqHeard.of_unsent (hsent req hreq) fun _ => hfresh')
    (fun _ _ _ hreq => hreq) (fun x hx hne => ?_) (Listens.launchReq base id ns t)
    (fun x hx => hfresh' ▸ fresh_iff_of_none hfresh hx) rfl
  have hmem := (flatten_modify_append base.reqHeads (Nat.mod_lt t hpos) id).mem_iff.mp hx
  exact (List.mem_cons.mp hmem).resolve_left hne

/-- A request ends. The nameserver that stops to listen has none left. -/
theorem Heard.unlink (hunlinked : Unlinked id base base') (hfresh : ctx'.fresh = ctx.fresh) :
    Heard env base' ctx' where
  reqs := by
    intro x req hreq
    have hx := h.reqs x req (hunlinked.live hreq)
    have hevent : x ∈ base'.reqHeads.flatten → ∀ ns, req.ns = some ns →
        (base'.nameserver ns).event = (base.nameserver ns).event := by
      intro hfly ns hns
      rcases hunlinked.events ns with ⟨hevent, -⟩ | ⟨-, hnone⟩
      · exact hevent
      have hon := onServer_iff.mpr ⟨req, hreq, hns⟩
      rw [hnone x hfly] at hon
      cases hon
    exact {
      placed := hx.placed
      fresh := hfresh ▸ hx.fresh
      heard := by
        intro hfly ns hto
        rw [hevent hfly ns (hx.placed ns hto)]
        exact hx.heard (hunlinked.flying x hfly) ns hto
      idle := by
        intro hfly hne ns hns
        rw [hevent hfly ns hns, hunlinked.choked]
        exact hx.idle (hunlinked.flying x hfly) (hfresh ▸ hne) ns hns
      steady := fun hfly hne => hx.steady (hunlinked.flying x hfly) (hfresh ▸ hne) }
  unchoked := fun hsends ns => (hunlinked.choked ns).trans (h.unchoked hsends ns)
  active := hunlinked.disableWhenInactive.trans h.active

/-- A request is made. It is in no ring. -/
theorem Heard.newReq (hinv : base.Inv ctx) (hsent : req.sentTo = none)
    (hfresh : ctx'.fresh = ctx.fresh) : Heard env (base.newReq req).1 ctx' := by
  have hrest : (base.newReq req).1.reqHeads = base.reqHeads ∧
      (base.newReq req).1.nameserver = base.nameserver ∧
      (base.newReq req).1.disableWhenInactive = base.disableWhenInactive := by
    rw [EvdnsBase.newReq]
    split <;> exact ⟨rfl, rfl, rfl⟩
  obtain ⟨hheads, hns, hactive⟩ := hrest
  refine h.focus base.nextReq (fun r hr => ?_) (fun x r hx hr => ?_) (fun _ hx _ => hheads ▸ hx)
    (hns ▸ Listens.refl _) (fun _ _ => by rw [hfresh]) hactive
  · rcases newReq_cases hr with ⟨-, rfl⟩ | ⟨hne, -⟩
    · refine ReqHeard.of_unsent hsent fun hmem => ?_
      obtain ⟨-, ns, t, hplace⟩ := hinv.flying_of_mem (hheads ▸ hmem)
      rw [hinv.rings.fresh base.nextReq (Nat.le_refl _)] at hplace
      cases hplace
    · exact absurd rfl hne
  · exact ((newReq_cases hr).resolve_left fun heq => hx heq.1).2

/-- The socket is found to block, or can be written to again. -/
theorem Heard.setChoked (ns : Nat) {choked : Bool}
    (hlistens : (base.nameserver ns).event = true ∨ choked = true)
    (hsends : env.Sends → choked = false) :
    Heard env (base.modifyNs ns fun server => { server with choked := choked }) ctx := by
  refine ⟨fun x req hreq => ?_, fun hall m => ?_, h.active⟩
  · have hx := h.reqs x req hreq
    refine ⟨hx.placed, hx.fresh, fun hfly m hto => ?_, fun hfly hne m hon => ?_, hx.steady⟩
    · exact (modifyNs_field Nameserver.event base (by intro; rfl) ns m).trans (hx.heard hfly m hto)
    by_cases hm : m = ns
    · rw [hm, modifyNs_self]
      exact hlistens
    · rw [modifyNs_other base hm]
      exact hx.idle hfly hne m hon
  · by_cases hm : m = ns
    · rw [hm, modifyNs_self]
      exact hsends hall
    · rw [modifyNs_other base hm]
      exact h.unchoked hall m

/-- A request in flight whose time is up is about to be sent again. -/
theorem Heard.due (hreq : base.req id = some req) (hsent : req.sentTo = none)
    (hfresh : ctx.fresh = none) : Heard env base { ctx with fresh := some id } := by
  refine h.focus id (fun r hr => ?_) (fun _ _ _ hx => hx) (fun _ hx _ => hx) (Listens.refl _)
    (fun x hx => fresh_iff_of_none hfresh hx) rfl
  cases hreq.symm.trans hr
  exact ReqHeard.of_unsent hsent fun _ => rfl

/-- The first request that waits is put into flight. -/
theorem Heard.moveReq (hinv : base.Inv ctx) (hfresh : ctx.fresh = none) {t : Nat} {rest : List Nat}
    (hwaiting : base.reqWaitingHead = id :: rest) :
    Heard env (base.moveReq id ns t) { ctx with fresh := some id } := by
  obtain ⟨hmem, t0, -, hplace, -⟩ := hinv.first_waits hwaiting
  refine h.focus id (fun r hr => ?_) (fun _ _ => modifyReq_other) (fun x hx hne => ?_)
    (Listens.launchReq _ id ns t) (fun x hx => fresh_iff_of_none hfresh hx) rfl
  · obtain ⟨req, hreq, rfl⟩ := modifyReq_old hr
    -- without a nameserver it has not been sent
    refine ReqHeard.of_unsent (Option.eq_none_iff_forall_ne_some.mpr fun m hto => ?_) fun _ => rfl
    rw [place_of_req hreq rfl, (h.reqs id req hreq).placed m hto] at hplace
    cases hplace
  · have hmem :=
      (flatten_modify_append base.reqHeads (Nat.mod_lt t hinv.rings.heads_pos) id).mem_iff.mp
      hx
    exact (List.mem_cons.mp hmem).resolve_left hne

/-- The packet is on its way. -/
theorem Heard.noteSent (hdue : DueOnly ctx id)
    (hplace : ∀ req, base.req id = some req → req.ns = some ns)
    (hevent : (base.nameserver ns).event = true) :
    Heard env (base.noteSent id ns) { ctx with fresh := none } := by
  refine h.focus id (fun r hr => ?_) (fun _ _ hx hr => modifyReq_other hx (modifyReq_other hx hr))
    (fun _ hx _ => hx) (Listens.refl _) (fun x hx => hdue.fresh_iff hx) rfl
  obtain ⟨mid, hmid, rfl⟩ := modifyReq_old hr
  obtain ⟨req, hreq, rfl⟩ := modifyReq_old hmid
  have hon := hplace req hreq
  refine ⟨fun m hto => hon.trans hto, nofun, fun _ m hto => ?_, fun _ _ m hm => .inl ?_,
    fun _ _ _ => Nat.succ_pos _⟩
  · cases hto
    exact hevent
  · cases hon.symm.trans hm
    exact hevent

end

/-! ### Changes -/

theorem FliesTo.ns_eq (h : FliesTo base ctx id ns)
    (hreq : base.req id = some req) : req.ns = some ns := by
  obtain ⟨t, hplace⟩ := h.place
  rw [place_of_req hreq rfl] at hplace
  exact congrArg Prod.fst (Option.some.inj hplace)

theorem two_le_length {servers : List Nat} {old : Nat} (hold : old ∈ servers) (hns : ns ∈ servers)
    (hne : old ≠ ns) : ¬ servers.length ≤ 1 := by
  match servers with
  | [] => cases hold
  | [a] =>
    rw [List.mem_singleton] at hold hns
    exact absurd (hold.trans hns.symm) hne
  | _ :: _ :: rest => exact Nat.not_le_of_lt (Nat.succ_lt_succ (Nat.succ_pos rest.length))

/-- A change keeps the nameservers listening while packets are sent, or if there is one nameserver.
-/
theorem Change.heard (hchange : Change env permits base ctx base' ctx')
    (hfew : env.Sends ∨ base.servers.length ≤ 1)
    (hreissue : permits.reissue → base.servers.length ≤ 1)
    (hunsent : Unsent base ctx) (h : Heard env base ctx) : Heard env base' ctx' := by
  cases hchange with
  | rotate => exact h.congr (fun _ hx => hx) rfl (Listens.refl _) rfl rfl
  | aside haside hctx =>
    exact h.congr (fun _ hx => haside.reqHeads ▸ hx) haside.req
      (by rw [haside.nameserver]; exact Listens.refl _) hctx.fresh
      haside.disableWhenInactive
  | @reqDetails id f hf =>
    refine h.mono (fun _ hx => hx) (fun x req' hreq' => ?_) (Listens.refl _) rfl rfl
    rcases modifyReq_cases hreq' with ⟨rfl, req, hreq, rfl⟩ | ⟨-, hreq⟩
    · exact ⟨req, hreq, (hf req).1, (hf req).2.2.2.2.1, (hf req).2.2.2.2.2⟩
    · exact ⟨req', hreq, rfl, Nat.le_refl _, .inl rfl⟩
  | @nsDetails ns f hf =>
    obtain ⟨-, -, -, hevent, hchoked, -⟩ := hf (base.nameserver ns)
    exact h.congr (fun _ hx => hx) rfl
      (Listens.modifyNs base ns ⟨fun hon => hevent.trans hon, hchoked⟩) rfl rfl
  | down ns =>
    exact h.congr (fun _ hx => hx) rfl (Listens.modifyNs base ns (f := fun server =>
      { server with state := false, failedTimes := 1, timer := true }) ⟨fun hon => hon, rfl⟩)
      rfl rfl
  | reassign hflies hreq htx hne hns =>
    rcases hfew with hsends | hle
    · -- what has not been sent is about to be
      refine h.swapNs (by_contra fun hne => ?_)
      have hpos := (h.reqs _ _ hreq).steady hflies.flying hne hsends
      rw [htx] at hpos
      exact Nat.lt_irrefl 0 hpos
    · exact absurd hle (two_le_length hflies.server hns hne)
  | @sent id ns hflies hdue hchoked =>
    exact (h.startSend ns).noteSent hdue (fun req hreq => hflies.ns_eq hreq)
      (h.startSend_event hflies hdue hchoked)
  | @choke id ns hflies hdue hsend =>
    have hblocks : ¬ env.Sends := by
      intro hsends
      rw [hsends] at hsend
      cases hsend
    have hchoked' := (h.startSend ns).setChoked ns (.inr rfl) fun hsends => absurd hsends hblocks
    have hself : (((base.startSend ns).modifyNs ns fun server =>
        { server with choked := true }).nameserver ns).choked = true := by
      rw [modifyNs_self]
    refine (hchoked'.settle hdue (fun req hreq => hflies.ns_eq hreq) (.inr hself)
      fun hsends => absurd hsends hblocks).congr ?_ ?_ ?_ ?_ ?_
    · exact fun x hx => heads_noteChoked (base.startSend ns) ns ▸ hx
    · exact req_noteChoked (base.startSend ns) ns
    · exact Listens.writeWaiting _ ns true
    · rfl
    · rw [noteChoked, nameserverWriteWaiting]
      split <;> rfl
  | @fail id ns hflies hdue hchoked hsend =>
    refine (h.startSend ns).settle hdue (fun req hreq => hflies.ns_eq hreq)
      (.inl (h.startSend_event hflies hdue hchoked)) fun hsends => ?_
    rw [hsends] at hsend
    cases hsend
  | @skip id ns hflies hdue hchoked =>
    refine h.settle hdue (fun req hreq => hflies.ns_eq hreq) (.inr hchoked) fun hsends => ?_
    rw [h.unchoked hsends ns] at hchoked
    cases hchoked
  | move hinv hfresh hwaiting => exact h.moveReq hinv hfresh hwaiting
  | unlink hunlinked hctx => exact h.unlink hunlinked hctx.fresh
  | hide => exact h.congr (fun _ hx => hx) rfl (Listens.refl _) rfl rfl
  | unhide hctx => exact h.congr (fun _ hx => hx) rfl (Listens.refl _) (by rw [hctx]) rfl
  | @hidden ns f hns hf =>
    obtain ⟨-, hevent, hchoked, -⟩ := hf (base.nameserver ns)
    exact h.congr (fun _ hx => hx) rfl
      (Listens.modifyNs base ns ⟨fun hon => hevent.trans hon, hchoked⟩) rfl rfl
  | raise =>
    exact h.congr (fun _ hx => hx) rfl (Listens.modifyNs base _ (f := fun server =>
      { server with state := true, failedTimes := 0, timedout := 0 }) ⟨fun hon => hon, rfl⟩)
      rfl rfl
  | make hinv hpacket hsent hloose hhidden hfresh => exact h.newReq hinv hsent hfresh
  | @assign id f hinv hid hpacket hf =>
    refine h.modifyAside (fun hmem => (hinv.flying_of_mem hmem).1 hid) fun req hreq => ?_
    exact (hf req).2.2.1.trans (hunsent id hid req hreq)
  | @launch _ id ns t req hinv hloose hreq hplace hnew ht hhidden hfresh hfresh' =>
    refine h.launchReq hinv.rings.heads_pos hfresh (fun r hr => ?_) hfresh'
    cases hreq.symm.trans hr
    exact hnew
  | enqueue haside hreq huser hloose hhidden hfresh =>
    exact h.congr (fun _ hx => haside.reqHeads ▸ hx) haside.req
      (by rw [haside.nameserver]; exact Listens.refl _) hfresh
      haside.disableWhenInactive
  | due hreq hsent hfresh => exact h.due hreq hsent hfresh
  | retry hflies hfresh => exact h.swapNs hfresh
  | reissue hpermit hflies hne hns =>
    exact absurd (hreissue hpermit) (two_le_length hflies.server hns hne)
  | unchoke hevent => exact h.setChoked _ (.inl hevent) fun _ => rfl
  | writeWaiting ns waiting =>
    exact h.congr (fun _ hx => heads_nameserverWriteWaiting base ns waiting ▸ hx)
      (req_nameserverWriteWaiting base ns waiting) (Listens.writeWaiting base ns waiting)
      rfl (by rw [nameserverWriteWaiting]; split <;> rfl)

/-! ### Runs -/

/-- A nameserver that is added has no requests. -/
theorem Heard.nameserverAdd (h : Heard env base {}) (hinv : base.Inv {}) :
    Heard env base.evdnsNameserverAdd {} := by
  have hknown : ∀ {x}, x ∈ base.reqHeads.flatten → ∀ {req}, base.req x = some req →
      req.ns ≠ some base.nextNs := by
    intro x hx req hreq hns
    obtain ⟨hloose, ns, t, hplace⟩ := hinv.flying_of_mem hx
    obtain ⟨-, -, -, hserver, -⟩ := hinv.rings.mem_head hplace hloose
    rw [place_of_req hreq rfl, hns] at hplace
    cases hplace
    exact Nat.lt_irrefl _ (hinv.goods.known _ hserver)
  refine ⟨fun x req hreq => ?_, fun hsends m => ?_, h.active⟩
  · have hx := h.reqs x req hreq
    refine ⟨hx.placed, hx.fresh, fun hfly m hto => ?_, fun hfly hne m hon => ?_, hx.steady⟩
    · rw [nameserverAdd_other base fun heq => hknown hfly hreq (heq ▸ hx.placed m hto)]
      exact hx.heard hfly m hto
    · rw [nameserverAdd_other base fun heq => hknown hfly hreq (heq ▸ hon)]
      exact hx.idle hfly hne m hon
  · by_cases hm : m = base.nextNs
    · rw [hm, nameserverAdd_self]
    · rw [nameserverAdd_other base hm]
      exact h.unchoked hsends m

/-- The step frees no nameserver. There is one nameserver at most, or packets can always be sent and
the step is no packet that blames its nameserver. -/
def Unmoved (env : DnsEnv) (base : EvdnsBase) (action : DnsAction) : Prop :=
  action ≠ .suspend ∧ (base.servers.length ≤ 1 ∨ env.Sends ∧ ¬ action.Blames)

theorem Unmoved.allows (h : Unmoved env base action) :
    base.Allows { reissue := base.servers.length ≤ 1 } action := by
  cases action with
  | packet ns transId flags reply =>
    exact fun id _ => ⟨fun _ _ _ _ => trivial, fun _ _ _ _ => .inl trivial,
      fun hblames => h.2.resolve_right fun hsends => hsends.2 hblames⟩
  | callback => exact fun _ _ _ _ _ _ _ => trivial
  | _ => exact trivial

theorem Heard.step (hintact : base.Intact) (h : Heard env base {})
    (haction : Unmoved env base action) :
    Yields (· = .spins) (dnsStep env base action) fun base' =>
      base'.Intact ∧ Heard env base' {} := by
  refine hintact.preserves (P := fun s ctx =>
      Heard env s ctx ∧ Unsent s ctx ∧ s.servers.length = base.servers.length)
    haction.1 haction.allows ?_ (fun _ hs => hs.1) ?_ ?_ ⟨h, fun _ hid => (nomatch hid), rfl⟩
  · rintro s ctx s' ctx' hchange ⟨hs, hunsent, hlength⟩
    refine ⟨hchange.heard ?_ (fun hle => hlength ▸ hle) hunsent hs, hchange.unsent hunsent,
      hchange.steady.servers.length_eq.trans hlength⟩
    rw [hlength]
    exact haction.2.symm.imp_left And.left
  · exact fun hs => hs.1.nameserverAdd hintact.inv
  · intro heads max hperm hs
    exact hs.1.congr (fun _ hx => hperm.mem_iff.mp hx) rfl (fun _ => ⟨fun hon => hon, rfl⟩)
      rfl rfl

theorem heard_new (env : DnsEnv) (options : DnsOptions)
    (hoptions : options.disableWhenInactive = true) :
    Heard env (evdnsBaseNew options) {} := by
  have hreq : (evdnsBaseNew options).req = fun _ => none :=
    iterate_nameserverAdd (P := (·.req = fun _ => none)) (fun _ h => h) options.nameservers _
      (by rfl)
  have hchoked : ∀ ns, ((evdnsBaseNew options).nameserver ns).choked = false := by
    refine iterate_nameserverAdd (P := fun base => ∀ ns, (base.nameserver ns).choked = false)
      (fun base h ns => ?_) options.nameservers _ fun _ => by rfl
    by_cases hns : ns = base.nextNs
    · rw [hns, nameserverAdd_self]
    · rw [nameserverAdd_other base hns]
      exact h ns
  have hnone : ∀ {id req}, (evdnsBaseNew options).req id ≠ some req := by
    intro id req hid
    rw [hreq] at hid
    cases hid
  exact ⟨fun _ _ hid => absurd hid hnone, fun _ => hchoked, hoptions⟩

end EvdnsBase

/-- With `disable_when_inactive`, in every run whose steps move no request that has not been sent, a
nameserver that has been sent a request in flight which it has not answered, and whose time is not
up, has its event pending. -/
theorem dnsRun_heard (env : DnsEnv) {options : EvdnsBase.DnsOptions}
    (hoptions : options.disableWhenInactive = true) {actions : List DnsAction}
    (hactions :
      Meets (dnsStep env) (EvdnsBase.Unmoved env) (EvdnsBase.evdnsBaseNew options) actions) :
    Yields (· = .spins) (run (dnsStep env) (EvdnsBase.evdnsBaseNew options) actions) fun base =>
      ∀ id ∈ base.reqHeads.flatten, ∀ req, base.req id = some req → ∀ ns, req.sentTo = some ns →
        (base.nameserver ns).event = true := by
  refine (Yields.run (I := fun base => base.Intact ∧ base.Heard env {})
    (fun base action h haction => ?_)
    ⟨EvdnsBase.intact_new options, EvdnsBase.heard_new env options hoptions⟩ hactions).mono ?_
  · exact h.2.step h.1 haction
  · exact fun base h id hid req hreq => (h.2.reqs id req hreq).heard hid

/-- Two nameservers that are added to a base with `disable_when_inactive`. A request is sent to each
of them, and the first is answered. -/
theorem dnsRun_heard_two_servers :
    let env := steadyEnv
    let actions : List DnsAction := [.nameserverAdd, .nameserverAdd, .resolve .a [120] true,
      .resolve .a [121] true, .packet 0 1 0x8180 (some ⟨true⟩)]
    ((run (dnsStep env) (EvdnsBase.evdnsBaseNew { disableWhenInactive := true })
        actions).toOption.map fun base => (base.reqHeads.flatten, (base.req 1).map (·.sentTo),
          (base.nameserver 0).event, (base.nameserver 1).event)) =
        some ([1], some (some 1), false, true) ∧
      Yields (· = .spins) (run (dnsStep env)
        (EvdnsBase.evdnsBaseNew { disableWhenInactive := true }) actions) fun base =>
        ∀ id ∈ base.reqHeads.flatten, ∀ req, base.req id = some req → ∀ ns, req.sentTo = some ns →
          (base.nameserver ns).event = true := by
  refine ⟨rfl, dnsRun_heard _ rfl ?_⟩
  have hsends : steadyEnv.Sends := fun _ => rfl
  iterate 4 refine Meets.cons ⟨nofun, .inr ⟨hsends, not_false⟩⟩ rfl ?_
  exact Meets.cons ⟨nofun, .inr ⟨hsends, by rintro (h | h) <;> cases h⟩⟩ rfl trivial

/-- Two requests wait for the socket of the first nameserver, and the second has answered its own.
The first nameserver fails, and they are moved to the second. They are sent, and it does not listen.
-/
theorem evdnsTransmit_unheard :
    let env : DnsEnv :=
      { random := fun n => [UInt16.ofNat (n + 1)]
        sendto := fun n => if n = 0 then .retriable else .sent }
    let actions : List DnsAction := [.nameserverAdd, .nameserverAdd, .resolve .a [120] true,
      .resolve .a [121] true, .resolve .a [122] true, .packet 1 2 0x8180 (some ⟨true⟩),
        .readError 0,
      .writable 0]
    ((run (dnsStep env) (EvdnsBase.evdnsBaseNew { disableWhenInactive := true })
        actions).toOption.map fun base => (base.reqHeads.flatten, (base.req 0).map (·.sentTo),
          (base.nameserver 1).event)) =
      some ([0, 2], some (some 1), false) := rfl

end Libevent
