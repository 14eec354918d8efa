import Libevent.Proofs.Dns.Sending

/-!
# `Libevent.Proofs.Dns.Finishing`: the functions that end a request

`requestFinished_spec`: `request_finished` takes a request out of its ring, lets its handle go,
frees it and then pumps. `Finished` says what is left after it, so that the functions that call it
need not look inside: `evdns_cancel_request` (`evdnsCancelRequest_spec`), `nameserver_up`
(`nameserverUp_spec`) and the handlers of replies and timeouts.
-/

namespace Libevent

open Lib Function

namespace EvdnsBase

variable {base base' mid : EvdnsBase} {ctx ctx' : DnsCtx} (env : DnsEnv) (permits : DnsPermits)
  {id hd ns id' hd' : Nat} {free : Bool} {c : DnsCallback × DnsType} {idle : List Nat}
  {req : DnsRequest} {err : DnsErr} {handle : EvdnsRequest}

/-- The request `id` was in flight, or it was waiting, and it is counted no more. -/
def CountedOut (id : Nat) (base mid : EvdnsBase) : Prop :=
  (mid.reqWaitingHead = base.reqWaitingHead ∧
      mid.globalRequestsInflight = base.globalRequestsInflight - 1) ∨
    (mid.reqWaitingHead = base.reqWaitingHead.erase id ∧ id ∈ base.reqWaitingHead ∧
      mid.globalRequestsInflight = base.globalRequestsInflight)

/-- From `base` to `mid`, the request `id` has left its ring. -/
structure Removed (loose : List Nat) (id : Nat) (base mid : EvdnsBase) : Prop where
  rings : mid.rings.Ok (id :: loose)
  place : mid.rings.place = base.rings.place
  links : mid.links = base.links
  handle : mid.handle = base.handle
  goods : mid.goods = base.goods
  max : mid.globalMaxRequestsInflight = base.globalMaxRequestsInflight
  disableWhenInactive : mid.disableWhenInactive = base.disableWhenInactive
  req : ∀ x, x ≠ id → mid.req x = base.req x
  timer : mid.rings.timer id = false
  flying : ∀ x ∈ mid.reqHeads.flatten, x ∈ base.reqHeads.flatten
  choked : ∀ ns, (mid.nameserver ns).choked = (base.nameserver ns).choked
  events : ∀ ns, ((mid.nameserver ns).event = (base.nameserver ns).event ∧
      (mid.nameserver ns).timer = (base.nameserver ns).timer) ∨
    (base.disableWhenInactive = true ∧
      ∀ x ∈ mid.reqHeads.flatten, DnsRings.onServer mid.rings.place ns x = false)
  left : CountedOut id base mid

/-- From `base` to `base'`, the handle `hd` has been let go by its request `id`. -/
def LetGo (id hd : Nat) (base base' : EvdnsBase) : Prop :=
  ∃ pending search, base.links.current hd = some (some id, pending) ∧
    base'.links = base.links.release id hd pending search

/-- From `base` to `base'`, the request `id` of the handle `hd` has ended. -/
structure Ended (id hd : Nat) (base base' : EvdnsBase) : Prop where
  links : LetGo id hd base base'
  handle : ∀ x, x ≠ hd → base'.handle x = base.handle x
  goods : base'.goods = base.goods
  place : ∀ x, x ≠ id → base'.rings.place x = base.rings.place x
  gone : base'.rings.place id = none
  left : CountedOut id base base'
  unlinked : Unlinked id base base'

/-- The request has ended, and others have been sent. -/
def Finished (ctx' : DnsCtx) (id hd : Nat) (base base' : EvdnsBase) : Prop :=
  (∃ mid n, Ended id hd base mid ∧ Keeps env permits n mid ctx' base' ctx') ∧ base'.Pumped

/-! ### `request_finished` -/

/-- The base with another handle at `hd`. -/
def putHandle (base : EvdnsBase) (hd : Nat) (handle : EvdnsRequest) : EvdnsBase :=
  { base with handle := update base.handle hd (some handle) }

/-- `request_finished` lets the handle go. It keeps a handle whose callback is scheduled. -/
theorem releaseHandle_eq (hh : base.handle hd = some handle) (hcur : handle.currentReq = some id)
    (hfree : free = true → handle.pendingCb = true) :
    ∃ handle', base.releaseHandle id hd free = .ok (base.putHandle hd handle') ∧
      handle'.currentReq = none ∧ handle'.pendingCb = handle.pendingCb := by
  rw [releaseHandle, getHandle_eq hh]
  show ∃ handle', (if handle.currentReq ≠ some id then _ else _) = _ ∧ _
  rw [if_neg (not_not_intro hcur)]
  cases free with
  | true =>
    refine ⟨{ handle with searchState := none, searchOrigname := [], currentReq := none }, ?_, rfl,
      rfl⟩
    simp only [hfree rfl, searchRequestFinished, modifyHandle, update_self, hh,
      Option.map_some, update_idem]
    rfl
  | false =>
    refine ⟨{ handle with currentReq := none }, ?_, rfl, rfl⟩
    simp only [modifyHandle, hh]
    rfl

/-- The request that has left its ring is freed, after its handle has been let go. -/
theorem Removed.ended (h : base.Inv ctx) (howner : base.links.owner id = some (some hd, c))
    (hmid : Removed ctx.loose id base mid) {handle' : EvdnsRequest}
    (hh : base.handle hd = some handle) (hcur : handle.currentReq = some id)
    (hnone : handle'.currentReq = none) (hpending : handle'.pendingCb = handle.pendingCb)
    (hsub : ∀ x ∈ ctx.idle, x ∈ idle) (hidle : handle.pendingCb = false → hd ∈ idle)
    (hbase : base' = (mid.putHandle hd handle').freeReq id) :
    base'.Inv { ctx with closing := ctx.closing.erase id, idle := idle } ∧
    Ended id hd base base' := by
  have hlinks : base'.links =
      base.links.release id hd handle.pendingCb handle'.searchState.isSome := by
    rw [hbase, ← hmid.links]
    simp only [EvdnsBase.links, freeReq, putHandle, DnsLinks.release, map_update, any_update,
      Option.map_some, Option.any_some, Option.map_none, hnone, hpending]
  have hrings : base'.rings = mid.rings.free id := by
    rw [hbase]
    simp only [EvdnsBase.rings, freeReq, putHandle, DnsRings.free, DnsRings.setPlace, map_update,
      any_update, Option.map_none, Option.any_none]
  have hcurrent : base.links.current hd = some (some id, handle.pendingCb) := by
    rw [current_of_handle hh, hcur]
  subst hbase
  have hgoods : ((mid.putHandle hd handle').freeReq id).goods = base.goods := hmid.goods
  have hplace : ∀ x, x ≠ id →
      ((mid.putHandle hd handle').freeReq id).rings.place x = mid.rings.place x := by
    intro x hx
    rw [hrings]
    exact update_of_ne hx _ _
  refine ⟨⟨?_, ?_, hgoods ▸ h.goods, fun ns hns => ?_⟩, ?_⟩
  · rw [hrings]
    exact hmid.rings.free
  · rw [hlinks]
    exact h.links.release howner hcurrent (fun i hi => List.mem_erase_of_ne hi) hsub hidle
  · rw [hgoods]
    exact h.targets ns (DnsLinks.mentions_release (hlinks ▸ hns))
  exact {
    links := ⟨handle.pendingCb, handle'.searchState.isSome, hcurrent, hlinks⟩
    handle := fun x hx => (update_of_ne hx _ _).trans (by rw [hmid.handle])
    goods := hgoods
    place := fun x hx => (hplace x hx).trans (by rw [hmid.place])
    gone := by
      rw [hrings]
      exact update_self ..
    left := hmid.left
    unlinked := {
      req := by
        funext x
        show update mid.req id none x = _
        by_cases hx : x = id
        · rw [hx, update_self, update_self]
        · rw [update_of_ne hx, update_of_ne hx, hmid.req x hx]
      flying := hmid.flying
      servers := congrArg DnsServers.ring hgoods
      disableWhenInactive := hmid.disableWhenInactive
      released := congrArg DnsServers.released hgoods
      max := hmid.max
      state := congrFun (congrArg DnsServers.up hgoods)
      choked := hmid.choked
      probe := congrFun (congrArg DnsLinks.probe hmid.links)
      events := by
        intro ns
        refine (hmid.events ns).imp_right fun hoff => ⟨hoff.1, fun x hx => ?_⟩
        rw [DnsRings.onServer, hplace x fun heq => hmid.rings.not_mem_rings.2.1 (heq ▸ hx)]
        exact hoff.2 x hx } }

/-- The end of `request_finished`: the request has left its ring. -/
theorem requestFinished_tail (h : base.Inv ctx) (hfresh : ctx.fresh = none)
    (howner : base.links.owner id = some (some hd, c)) (hfree : free = true → id ∈ ctx.closing)
    (hsub : ∀ x ∈ ctx.idle, x ∈ idle) (hidle : free = false → hd ∈ idle)
    (hmid : Removed ctx.loose id base mid) :
    Yields ctx.Tolerates (do
        let base ← mid.releaseHandle id hd free
        let base ← base.releaseReq id
        base.evdnsRequestsPumpWaitingQueue env) fun base' =>
      base'.Inv { ctx with closing := ctx.closing.erase id, idle := idle } ∧
        Finished env permits { ctx with closing := ctx.closing.erase id, idle := idle } id hd base
          base' := by
  obtain ⟨pending, hcur⟩ := h.links.linked id hd c howner
  obtain ⟨handle, hh, hcurrent, hpending⟩ := exists_handle_of_current hcur
  -- when the handle is let go for good, its callback is scheduled
  have hclosing : free = true → handle.pendingCb = true := by
    intro hf
    have hp := (h.links.pending hd id).mpr ⟨hfree hf, c, howner⟩
    cases hcur.symm.trans hp
    exact hpending
  obtain ⟨handle', heq, hnone, hkept⟩ := releaseHandle_eq (hmid.handle ▸ hh) hcurrent hclosing
  rw [heq, yields_ok_bind]
  have hidle' : handle.pendingCb = false → hd ∈ idle := by
    intro hp
    refine hidle (Bool.eq_false_iff.mpr fun hf => ?_)
    rw [hclosing hf] at hp
    cases hp
  -- the timer is not pending any more
  obtain ⟨req, hreq⟩ : ∃ req, mid.req id = some req := by
    obtain ⟨req, hreq, -⟩ := exists_req_of_owner (hmid.links ▸ howner)
    exact ⟨req, hreq⟩
  have htimer : req.timer = false := by
    have hoff := hmid.timer
    simpa [rings, hreq] using hoff
  have hrelease : (mid.putHandle hd handle').releaseReq id =
      .ok ((mid.putHandle hd handle').freeReq id) := by
    have hget : (mid.putHandle hd handle').getReq id = .ok req := getReq_eq hreq
    simp [releaseReq, hget, htimer, bind, Except.bind, pure, Except.pure]
  rw [hrelease]
  obtain ⟨h1, hended⟩ := hmid.ended h howner hh hcurrent hnone hkept hsub hidle' rfl
  refine (evdnsRequestsPumpWaitingQueue_spec env permits h1 hfresh).mono ?_
  rintro base2 ⟨h2, ⟨n, hkeeps⟩, hpumped⟩
  exact ⟨h2, ⟨_, n, hended, hkeeps⟩, hpumped⟩

/-- A request that waits leaves its ring. -/
theorem Inv.unwaited (h : base.Inv ctx) {t : Nat} (hplace : base.rings.place id = some (none, t))
    (hloose : id ∉ ctx.loose) :
    Removed ctx.loose id base { base with
      reqWaitingHead := base.reqWaitingHead.erase id
      globalRequestsWaiting := base.globalRequestsWaiting - 1 } := by
  have hmem := h.rings.mem_waiting hplace hloose
  exact {
    rings := h.rings.unwait hmem
    place := rfl
    links := rfl
    handle := rfl
    goods := rfl
    max := rfl
    disableWhenInactive := rfl
    req := fun _ _ => rfl
    timer := by
      refine Bool.eq_false_iff.mpr fun hon => ?_
      obtain ⟨ns, t', hflying⟩ := h.rings.timer id hon
      cases hplace.symm.trans hflying
    flying := fun _ hx => hx
    choked := fun _ => rfl
    events := fun _ => .inl ⟨rfl, rfl⟩
    left := .inr ⟨rfl, hmem, rfl⟩ }

/-- The request `id` is counted out of the head `k` and of its nameserver. -/
def groundReq (base : EvdnsBase) (id k ns : Nat) : EvdnsBase :=
  { (base.modifyReq id fun req => { req with timer := false }).modifyNs ns fun server =>
      { server with requestsInflight := server.requestsInflight - 1 } with
    reqHeads := base.reqHeads.modify k (·.erase id)
    globalRequestsInflight := base.globalRequestsInflight - 1 }

/-- A request in flight leaves its ring. -/
theorem Inv.grounded (h : base.Inv ctx) {t : Nat} (hplace : base.rings.place id = some (some ns, t))
    (hloose : id ∉ ctx.loose) :
    Removed ctx.loose id base (base.groundReq id (t % base.reqHeads.length) ns) := by
  let mid := base.groundReq id (t % base.reqHeads.length) ns
  let off := base.modifyReq id fun req => { req with timer := false }
  obtain ⟨ids, hids, hmem, -⟩ := h.rings.mem_head hplace hloose
  obtain ⟨req, hreq, hns, ht⟩ := exists_req_of_place hplace
  have hview := rings_modifyReq base hreq fun req => { req with timer := false }
  have hplace' : mid.rings.place = base.rings.place := by
    refine (congrArg DnsRings.place hview).trans ?_
    simp only [DnsRings.setTimer, DnsRings.setPlace]
    rw [← place_of_req hreq rfl, update_eq_self]
  have hrings : mid.rings =
      (base.rings.ground id (t % base.reqHeads.length) ns).setTimer id false := by
    have hload := congrArg DnsRings.load (rings_modifyNs off ns Nameserver.less)
    have htimer := congrArg DnsRings.timer hview
    exact DnsRings.ext rfl rfl rfl rfl rfl hplace' hload rfl htimer
  have hlinks : mid.links = base.links :=
    (links_modifyNs_eq off ns (f := Nameserver.less) fun _ => rfl).trans
      (links_modifyReq_eq base id fun _ => ⟨rfl, rfl, rfl⟩)
  exact {
    rings := by
      rw [show (base.groundReq _ _ _).rings = _ from hrings]
      exact (h.rings.ground hplace hids hmem).setTimer (by rintro ⟨⟩)
    place := hplace'
    links := hlinks
    handle := rfl
    goods := goods_modifyNs_eq off ns (f := Nameserver.less) fun _ => rfl
    max := rfl
    disableWhenInactive := rfl
    req := fun x hx => update_of_ne hx _ _
    timer := by
      rw [show (base.groundReq _ _ _).rings = _ from hrings]
      exact update_self ..
    flying := by
      intro x hx
      have hperm := flatten_modify_erase (a := id) hids hmem
      exact hperm.mem_iff.mpr (List.mem_cons_of_mem id hx)
    choked := modifyNs_field Nameserver.choked off (f := Nameserver.less) (fun _ => rfl) ns
    events := fun n =>
      .inl ⟨modifyNs_field Nameserver.event off (f := Nameserver.less) (fun _ => rfl) ns n,
      modifyNs_field Nameserver.timer off (f := Nameserver.less) (fun _ => rfl) ns n⟩
    left := .inl ⟨rfl, rfl⟩ }

/-- The events of a nameserver are deleted when it has no requests left. -/
theorem Removed.deactivated {loose : List Nat} (hmid : Removed loose id base mid)
    (hns : ns ∈ base.servers) (hload : (mid.nameserver ns).requestsInflight = 0)
    (hflag : base.disableWhenInactive = true) :
    Removed loose id base (mid.modifyNs ns fun server =>
      { server with event := false, timer := false }) := by
  let off : Nameserver → Nameserver := fun server => { server with event := false, timer := false }
  have hrings : (mid.modifyNs ns off).rings = mid.rings := rings_modifyNs_eq mid ns fun _ => rfl
  have hlinks : (mid.modifyNs ns off).links = mid.links := links_modifyNs_eq mid ns fun _ => rfl
  have hgoods : (mid.modifyNs ns off).goods = mid.goods := goods_modifyNs_eq mid ns fun _ => rfl
  have hservers : mid.rings.servers = base.servers := congrArg DnsServers.ring hmid.goods
  exact {
    rings := hrings ▸ hmid.rings
    place := by rw [hrings, hmid.place]
    links := hlinks.trans hmid.links
    handle := hmid.handle
    goods := hgoods.trans hmid.goods
    max := hmid.max
    disableWhenInactive := hmid.disableWhenInactive
    req := hmid.req
    timer := hrings ▸ hmid.timer
    flying := hmid.flying
    choked := fun n =>
      (modifyNs_field Nameserver.choked mid (by intro; rfl) ns n).trans (hmid.choked n)
    events := by
      intro n
      by_cases hn : n = ns
      · subst hn
        refine .inr ⟨hflag, fun x hx => ?_⟩
        rw [hrings]
        -- its load is the number of its requests in flight
        have hcount := hmid.rings.load n (hservers ▸ hns)
        have hzero : mid.rings.heads.flatten.countP (DnsRings.onServer mid.rings.place n) = 0 := by
          have hl : mid.rings.load n = (mid.nameserver n).requestsInflight := rfl
          omega
        exact Bool.eq_false_iff.mpr (List.countP_eq_zero.mp hzero x hx)
      · have hsame : (mid.modifyNs ns fun server =>
            { server with event := false, timer := false }).nameserver n = mid.nameserver n :=
          update_of_ne hn _ _
        rw [hsame]
        exact hmid.events n
    left := hmid.left }

/-- The ring that a request is in. -/
def ringOf (base : EvdnsBase) (req : DnsRequest) : Ring :=
  if req.ns.isSome then base.reqHead req.transId else .waiting

/-- The bookkeeping for a request in flight. -/
theorem Inv.uncount_spec (h : base.Inv ctx) (hserver : ns ∈ base.servers)
    (hreleased : base'.released = base.released) (hns : req.ns = some ns) (k : Nat) :
    Yields ctx.Tolerates (base'.uncount id req (.head k)) fun mid =>
      mid = { (base'.modifyReq id fun req => { req with timer := false }).modifyNs ns fun server =>
          { server with requestsInflight := server.requestsInflight - 1 } with
        globalRequestsInflight := base'.globalRequestsInflight - 1 } := by
  rw [uncount, getNs, hns]
  exact h.useNameserver_bind hserver hreleased rfl

/-- The part of `request_finished` that takes a request in flight out of its ring. -/
theorem ground_spec (h : base.Inv ctx) (hreq : base.req id = some req) (hns : req.ns = some ns)
    (hloose : id ∉ ctx.loose) :
    Yields ctx.Tolerates (do
        let base ← ({ base with
          reqHeads := base.reqHeads.modify (req.transId % base.reqHeads.length) (·.erase id) } :
            EvdnsBase).uncount id req (.head (req.transId % base.reqHeads.length))
        base.deactivate req) fun mid => Removed ctx.loose id base mid := by
  have hplace := place_of_req hreq hns
  have hserver := (h.fliesTo hloose hplace).server
  have hmid := h.grounded hplace hloose
  refine Yields.bind (h.uncount_spec hserver (by rfl) hns _) ?_
  rintro mid rfl
  rw [deactivate, hns]
  refine h.useNameserver_bind hserver (by rfl) ?_
  split
  · next hidle => exact hmid.deactivated hserver hidle.1 hidle.2
  · exact hmid

theorem requestFinished_spec (h : base.Inv ctx) (hfresh : ctx.fresh = none)
    (hreq : base.req id = some req) (hhd : req.handle = some hd) (hloose : id ∉ ctx.loose)
    (hfree : free = true → id ∈ ctx.closing) (hsub : ∀ x ∈ ctx.idle, x ∈ idle)
    (hidle : free = false → hd ∈ idle) {ring : Ring} (hring : ring = base.ringOf req) :
    Yields ctx.Tolerates (base.requestFinished env id ring free) fun base' =>
      base'.Inv { ctx with closing := ctx.closing.erase id, idle := idle } ∧
        Finished env permits { ctx with closing := ctx.closing.erase id, idle := idle } id hd base
          base' := by
  have hplace := place_of_req hreq rfl
  have howner := owner_of_req hreq hhd
  have hvalid := assertValidRequest_eq h.links howner
  have htail : ∀ {mid : EvdnsBase}, Removed ctx.loose id base mid → _ := fun hmid =>
    requestFinished_tail env permits h hfresh howner hfree hsub hidle hmid
  rw [requestFinished, getReq_eq hreq, yields_ok_bind, hvalid, yields_ok_bind, hhd]
  cases hns : req.ns with
  | none =>
    obtain rfl : ring = .waiting := by rw [hring, ringOf, hns]; rfl
    rw [evdnsRequestRemove_waiting hvalid]
    rw [hns] at hplace
    simp only [deactivate, hns]
    exact htail (h.unwaited hplace hloose)
  | some ns =>
    obtain rfl : ring = .head (req.transId % base.reqHeads.length) := by
      rw [hring, ringOf, hns]
      rfl
    rw [evdnsRequestRemove_head hvalid, yields_ok_bind]
    have hground := (ground_spec h hreq hns hloose).bind fun mid hmid => htail hmid
    simpa only [bind_assoc] using hground

/-! ### What is left of a base -/

/-- The number of requests. -/
def total (base : EvdnsBase) : Int := base.globalRequestsInflight + base.reqWaitingHead.length

variable {env permits} {loose : List Nat} {id hd : Nat}

/-- Bases whose rings are the same have as many requests. -/
theorem total_of_rings (hrings : base'.rings = base.rings) : base'.total = base.total := by
  show base'.rings.inflight + base'.rings.waiting.length =
    base.rings.inflight + base.rings.waiting.length
  rw [hrings]

theorem Frame.total {n : Nat} (h : Frame loose n base base') : base'.total = base.total := by
  have hcount := h.count
  rw [EvdnsBase.total, EvdnsBase.total, h.inflight, h.waiting, List.length_drop]
  omega

/-- As long as no request is sent, there is nothing new to pump. -/
theorem Frame.pumped (h : Frame loose 0 base base') (hpumped : base.Pumped) : base'.Pumped := by
  intro hne
  have hne' : base.servers ≠ [] := by
    intro hnil
    have hperm := h.servers
    rw [hnil] at hperm
    exact hne (List.perm_nil.mp hperm)
  have hinflight := h.inflight
  rcases hpumped hne' with hempty | hmax
  · left
    rw [h.waiting, hempty, List.drop_nil]
  right
  rw [h.max]
  omega

theorem Ended.total (h : Ended id hd base base') : base'.total = base.total - 1 := by
  rcases h.left with ⟨hwaiting, hinflight⟩ | ⟨hwaiting, hmem, hinflight⟩
  · rw [EvdnsBase.total, EvdnsBase.total, hwaiting]
    omega
  have hpos := List.length_pos_of_mem hmem
  rw [EvdnsBase.total, EvdnsBase.total, hwaiting, List.length_erase_of_mem hmem]
  omega

/-- What one request and its handle look like is the same in both bases, except that the request may
have got another nameserver. -/
structure Spares (id hd : Nat) (base base' : EvdnsBase) : Prop where
  owner : base'.links.owner id = base.links.owner id
  handle : base'.handle hd = base.handle hd
  flying : ∀ ns t, base.rings.place id = some (some ns, t) →
    ∃ ns', base'.rings.place id = some (some ns', t)

theorem Spares.refl (id hd : Nat) (base : EvdnsBase) : Spares id hd base base :=
  ⟨rfl, rfl, fun ns _ h => ⟨ns, h⟩⟩

theorem Spares.trans {base'' : EvdnsBase} (h : Spares id hd base base')
    (h' : Spares id hd base' base'') : Spares id hd base base'' where
  owner := h'.owner.trans h.owner
  handle := h'.handle.trans h.handle
  flying := by
    intro ns t hplace
    obtain ⟨ns', hplace'⟩ := h.flying ns t hplace
    exact h'.flying ns' t hplace'

theorem Frame.spares {n : Nat} (h : Frame loose n base base') (id hd : Nat) :
    Spares id hd base base' :=
  ⟨by rw [h.links], by rw [h.handle], h.flying id⟩

/-- The end of a request spares the others. -/
theorem Ended.spares (h : Ended id hd base base') (hid : id' ≠ id) (hhd : hd' ≠ hd) :
    Spares id' hd' base base' := by
  obtain ⟨pending, search, -, hlinks⟩ := h.links
  refine ⟨?_, h.handle hd' hhd, fun ns t hplace => ⟨ns, (h.place id' hid).trans hplace⟩⟩
  rw [hlinks]
  exact update_of_ne hid _ _

section
variable (h : Finished env permits ctx' id hd base base')
include h

theorem Finished.spares (hid : id' ≠ id) (hhd : hd' ≠ hd) : Spares id' hd' base base' := by
  obtain ⟨⟨mid, n, hended, hkeeps⟩, -⟩ := h
  exact (hended.spares hid hhd).trans (hkeeps.spares id' hd')

theorem Finished.total : base'.total = base.total - 1 := by
  obtain ⟨⟨mid, n, hended, hkeeps⟩, -⟩ := h
  rw [hkeeps.total, hended.total]

theorem Finished.down (hup : base'.goods.up ns = true) : base.goods.up ns = true := by
  obtain ⟨⟨mid, n, hended, hkeeps⟩, -⟩ := h
  rw [← hended.goods]
  exact hkeeps.down ns hup

theorem Finished.links : LetGo id hd base base' := by
  obtain ⟨⟨mid, n, hended, hkeeps⟩, -⟩ := h
  rw [LetGo, hkeeps.links]
  exact hended.links

theorem Finished.aside {x : Nat} (hx : x ∈ ctx'.loose) (hne : x ≠ id) :
    base'.rings.place x = base.rings.place x := by
  obtain ⟨⟨mid, n, hended, hkeeps⟩, -⟩ := h
  exact (hkeeps.aside x hx).trans (hended.place x hne)

theorem Finished.path (hctx : SameMarks ctx ctx') : Path env permits base ctx base' ctx' := by
  obtain ⟨⟨mid, n, hended, hkeeps⟩, -⟩ := h
  exact (Change.unlink hended.unlinked hctx).path.trans hkeeps.path

end

/-! ### Callbacks are scheduled -/

/-- From `base` to `base'`, the callback of a request has been scheduled. -/
structure Scheduled (id hd : Nat) (c : DnsCallback × DnsType) (err : DnsErr)
    (base base' : EvdnsBase) :
    Prop where
  rings : base'.rings = base.rings
  links : base'.links = base.links.schedule id hd c err
  goods : base'.goods = base.goods
  handle : ∀ x, x ≠ hd → base'.handle x = base.handle x
  aside : Aside base base'

theorem replyScheduleCallback_eq (hreq : base.req id = some req) (hhd : req.handle = some hd)
    (hcur : base.links.current hd = some (some id, false)) (err : DnsErr) :
    ∃ base', base.replyScheduleCallback id err = .ok base' ∧
      Scheduled id hd (req.userCallback, req.requestType) err base base' := by
  obtain ⟨handle, hh, hcurrent, -⟩ := exists_handle_of_current hcur
  rw [replyScheduleCallback, getReq_eq hreq]
  refine ⟨_, rfl, ?_⟩
  simp only [hhd]
  exact {
    rings := rfl
    links := by
      simp only [links, modifyHandle, DnsLinks.schedule, map_update, any_update, hh,
        Option.map_some, Option.any_some, hcurrent, searching_self hh]
    goods := rfl
    handle := fun x hx => update_of_ne hx _ _
    aside := ⟨rfl, rfl, rfl, rfl, rfl, rfl, rfl⟩ }

theorem Scheduled.inv (hs : Scheduled id hd c err base base') (h : base.Inv ctx)
    (howner : base.links.owner id = some (some hd, c))
    (hcur : base.links.current hd = some (some id, false))
    (hprobe : err = .cancel → ∀ ns, base.links.probe ns = some hd → ns ∈ ctx.hidden) :
    base'.Inv { ctx with closing := id :: ctx.closing } := by
  refine ⟨hs.rings ▸ h.rings, hs.links ▸ h.links.schedule howner hcur hprobe, hs.goods ▸ h.goods,
    fun ns hns => ?_⟩
  rw [hs.goods]
  exact h.targets ns (DnsLinks.mentions_schedule howner (hs.links ▸ hns))

theorem Scheduled.spares (h : Scheduled id hd c err base base') (hhd : hd' ≠ hd) :
    Spares id' hd' base base' := by
  refine ⟨?_, h.handle hd' hhd, fun ns t hplace => ⟨ns, by rw [h.rings]; exact hplace⟩⟩
  rw [h.links]
  rfl

theorem Scheduled.total
    (h : Scheduled id hd c err base base') : base'.total = base.total := total_of_rings h.rings

/-- From `base` to `base'`, a request has been answered and has ended. -/
def Closed (env : DnsEnv) (permits : DnsPermits) (ctx : DnsCtx) (id hd : Nat)
    (c : DnsCallback × DnsType) (err : DnsErr) (base base' : EvdnsBase) : Prop :=
  ∃ mid, Scheduled id hd c err base mid ∧ Finished env permits ctx id hd mid base'

section Closed

variable {c : DnsCallback × DnsType} {err : DnsErr}

section
variable (h : Closed env permits ctx id hd c err base base')
include h

theorem Closed.spares (hid : id' ≠ id) (hhd : hd' ≠ hd) : Spares id' hd' base base' := by
  obtain ⟨mid, hs, hf⟩ := h
  exact (hs.spares hhd).trans (hf.spares hid hhd)

theorem Closed.total : base'.total = base.total - 1 := by
  obtain ⟨mid, hs, hf⟩ := h
  rw [hf.total, hs.total]

theorem Closed.down (hup : base'.goods.up ns = true) : base.goods.up ns = true := by
  obtain ⟨mid, hs, hf⟩ := h
  rw [← hs.goods]
  exact hf.down hup

theorem Closed.pumped : base'.Pumped := by
  obtain ⟨mid, -, hf⟩ := h
  exact hf.2

theorem Closed.path : Path env permits base ctx base' ctx := by
  obtain ⟨mid, hs, hf⟩ := h
  exact (Change.aside hs.aside (.refl ctx)).path.trans (hf.path (.refl ctx))

end

end Closed

section
variable (h : base.Inv ctx) (hreq : base.req id = some req) (hhd : req.handle = some hd)
  (hclosing : id ∉ ctx.closing)
include h hreq hhd hclosing

/-- The handle of a request whose callback is not scheduled. -/
theorem Inv.current : base.links.current hd = some (some id, false) := by
  have howner := owner_of_req hreq hhd
  obtain ⟨pending, hcur⟩ := h.links.linked id hd _ howner
  cases pending with
  | false => exact hcur
  | true => exact absurd ((h.links.pending hd id).mp hcur).1 hclosing

/-- A callback is scheduled for a request. -/
theorem Inv.schedule
    (hprobe : err = .cancel → ∀ ns, base.links.probe ns = some hd → ns ∈ ctx.hidden) :
    ∃ mid, base.replyScheduleCallback id err = .ok mid ∧
      Scheduled id hd (req.userCallback, req.requestType) err base mid ∧
      mid.Inv { ctx with closing := id :: ctx.closing } := by
  have hcur := h.current hreq hhd hclosing
  obtain ⟨mid, heq, hs⟩ := replyScheduleCallback_eq hreq hhd hcur err
  have howner := owner_of_req hreq hhd
  exact ⟨mid, heq, hs, hs.inv h howner hcur hprobe⟩

end

variable (env permits) in
/-- A request whose callback has been scheduled ends. -/
theorem Scheduled.finish_spec (hs : Scheduled id hd c err base mid)
    (hmid : mid.Inv { ctx with closing := id :: ctx.closing }) (hfresh : ctx.fresh = none)
    (hreq : base.req id = some req) (hhd : req.handle = some hd) (hloose : id ∉ ctx.loose)
    {ring : Ring} (hring : ring = mid.ringOf req) :
    Yields ctx.Tolerates (mid.requestFinished env id ring true) fun base' =>
      base'.Inv ctx ∧ Closed env permits ctx id hd c err base base' := by
  have hreq' : mid.req id = some req := by rw [hs.aside.req, hreq]
  refine Yields.mono (requestFinished_spec env permits hmid hfresh hreq' hhd hloose
    (fun _ : true = true => List.mem_cons_self) (fun _ hx => hx) nofun hring) ?_
  intro base' hbase'
  rw [List.erase_cons_head] at hbase'
  exact ⟨hbase'.1, mid, hs, hbase'.2⟩

/-! ### Cancellation -/

/-- `evdns_cancel_request` would end the request of the handle. -/
def cancels (base : EvdnsBase) (h : Nat) : Bool :=
  (base.handle h).any fun handle => handle.currentReq.isSome && !handle.pendingCb

/-- From `base` to `base'`, the request of the handle has been canceled, if there was one. -/
structure Canceled (env : DnsEnv) (permits : DnsPermits) (ctx : DnsCtx) (hd : Nat)
    (base base' : EvdnsBase) : Prop where
  spares : ∀ id hd' c, base.links.owner id = some (some hd', c) → hd' ≠ hd →
    Spares id hd' base base'
  down : ∀ ns, base'.goods.up ns = true → base.goods.up ns = true
  total : base'.total = base.total - (if base.cancels hd then 1 else 0)
  pumped : base.Pumped → base'.Pumped
  path : Path env permits base ctx base' ctx

theorem Canceled.of_not_cancels (hcancels : base.cancels hd = false) :
    Canceled env permits ctx hd base base where
  spares := fun id hd' _ _ _ => .refl id hd' base
  down := fun _ hup => hup
  total := by simp [hcancels]
  pumped := fun h => h
  path := .refl _ _

theorem Canceled.of_closed (h : base.Inv ctx) (hcancels : base.cancels hd = true)
    (hcur : base.links.current hd = some (some id, false))
    (hclosed : Closed env permits ctx id hd c err base base') :
    Canceled env permits ctx hd base base' where
  spares := by
    intro id' hd' c howner hne
    refine hclosed.spares ?_ hne
    rintro rfl
    obtain ⟨c', howner'⟩ := h.links.back hd id' false hcur
    rw [howner] at howner'
    cases howner'
    exact hne rfl
  down := fun _ hup => hclosed.down hup
  total := by rw [hclosed.total, if_pos hcancels]
  pumped := fun _ => hclosed.pumped
  path := hclosed.path

variable (env permits) in
/-- The request of a live handle is canceled. -/
theorem evdnsCancelRequest_spec (h : base.Inv ctx) (hfresh : ctx.fresh = none)
    (hlive : base.links.current hd ≠ none)
    (hfree : ∀ id p, base.links.current hd = some (some id, p) → id ∉ ctx.loose)
    (hprobe : ∀ id p, base.links.current hd = some (some id, p) →
      ∀ ns, base.links.probe ns = some hd → ns ∈ ctx.hidden) :
    Yields ctx.Tolerates (base.evdnsCancelRequest env hd) fun base' =>
      base'.Inv ctx ∧ Canceled env permits ctx hd base base' := by
  obtain ⟨⟨cur, pending⟩, hcur⟩ := Option.ne_none_iff_exists'.mp hlive
  obtain ⟨handle, hh, hcurrent, hpending⟩ := exists_handle_of_current hcur
  rw [evdnsCancelRequest, getHandle_eq hh, yields_ok_bind, hcurrent]
  have hcancels : base.cancels hd = (cur.isSome && !pending) := by
    simp [cancels, hh, hcurrent, hpending]
  cases cur with
  | none => exact ⟨h, .of_not_cancels hcancels⟩
  | some id =>
    dsimp only
    rw [hpending]
    cases pending with
    | true => exact ⟨h, .of_not_cancels hcancels⟩
    | false =>
      obtain ⟨c, howner⟩ := h.links.back hd id false hcur
      obtain ⟨req, hreq, hhd, -⟩ := exists_req_of_owner howner
      have hclosing : id ∉ ctx.closing := by
        intro hmem
        have hp := (h.links.pending hd id).mpr ⟨hmem, c, howner⟩
        cases hcur.symm.trans hp
      obtain ⟨mid, heq, hs, hmid⟩ := h.schedule hreq hhd hclosing fun _ : DnsErr.cancel = .cancel =>
        hprobe id false hcur
      have hreq' : mid.req id = some req := by rw [hs.aside.req, hreq]
      rw [if_neg Bool.false_ne_true, assertValidRequest_eq h.links howner, yields_ok_bind, heq,
        yields_ok_bind, getReq_eq hreq', yields_ok_bind]
      -- whether the request has a nameserver says which ring it is in
      rw [← apply_ite (mid.requestFinished env id · true)]
      refine (hs.finish_spec env permits hmid hfresh hreq hhd (hfree id false hcur) rfl).mono ?_
      rintro base' ⟨h', hclosed⟩
      exact ⟨h', .of_closed h hcancels hcur hclosed⟩

/-! ### A nameserver comes up -/

/-- The nameserver is up again. -/
theorem Inv.raise (h : base.Inv ctx) (hns : ns ∈ base.servers) (hdown : base.goods.up ns = false) :
    (base.markUp ns).Inv ctx ∧ (base.markUp ns).rings = base.rings ∧
      (base.markUp ns).links = base.links := by
  let up : Nameserver → Nameserver := fun server =>
    { server with state := true, failedTimes := 0, timedout := 0 }
  have hrings : (base.markUp ns).rings = base.rings :=
    rings_modifyNs_eq base ns (f := up) fun _ => rfl
  have hlinks : (base.markUp ns).links = base.links :=
    links_modifyNs_eq base ns (f := up) fun _ => rfl
  have hgoods : (base.markUp ns).goods = base.goods.setUp ns true := by
    have hmodify := goods_modifyNs base ns up
    rw [DnsServers.setUp, hdown]
    simp only [EvdnsBase.goods, DnsServers.mk.injEq, markUp] at hmodify ⊢
    refine ⟨hmodify.1, hmodify.2.1, ?_, hmodify.2.2.2.1, hmodify.2.2.2.2⟩
    simp
  exact ⟨h.of_links (hrings ▸ h.rings) hlinks (hgoods ▸ h.goods.setUp hns true) rfl, hrings, hlinks⟩

/-- `nameserver_up` would end the probe of the nameserver. -/
def upCancels (base : EvdnsBase) (ns : Nat) : Bool :=
  !(base.nameserver ns).state && (base.nameserver ns).probeRequest.any base.cancels

theorem spares_of_views (hrings : base'.rings = base.rings)
    (howner : base'.links.owner = base.links.owner) (hhandle : base'.handle = base.handle)
    (id hd : Nat) : Spares id hd base base' :=
  ⟨by rw [howner], by rw [hhandle], fun ns t hplace => ⟨ns, hrings ▸ hplace⟩⟩

theorem pumped_of_rings (hrings : base'.rings = base.rings)
    (hmax : base'.globalMaxRequestsInflight = base.globalMaxRequestsInflight)
    (hpumped : base.Pumped) : base'.Pumped := by
  have hview : base'.rings.servers ≠ [] → base'.rings.waiting = [] ∨
      base'.globalMaxRequestsInflight ≤ base'.rings.inflight := by
    rw [hrings, hmax]
    exact hpumped
  exact hview

/-- More nameservers are excepted. -/
theorem Inv.hide (h : base.Inv ctx) (ns : Nat) : base.Inv (ctx.hide ns) :=
  ⟨h.rings, h.links.toHidden fun _ hmem => List.mem_cons_of_mem ns hmem, h.goods, h.targets⟩

section
variable (base ns)

theorem rings_clearProbe : (base.clearProbe ns).rings = base.rings :=
  rings_modifyNs_eq base ns fun _ => rfl

theorem links_clearProbe :
    (base.clearProbe ns).links = base.links.setProbe ns none := links_modifyNs base ns _

theorem goods_clearProbe : (base.clearProbe ns).goods = base.goods :=
  goods_modifyNs_eq base ns fun _ => rfl

end

/-- The nameserver forgets its probe. -/
theorem Inv.forget (h : base.Inv (ctx.hide ns)) : (base.clearProbe ns).Inv ctx := by
  refine ⟨?_, ?_, ?_, fun n hn => ?_⟩
  · rw [rings_clearProbe]
    exact h.rings
  · rw [links_clearProbe]
    exact h.links.forget
  · rw [goods_clearProbe]
    exact h.goods
  · have hn' : (base.links.setProbe ns none).Mentions n := links_clearProbe base ns ▸ hn
    exact h.targets n hn'

theorem clearTimer_frame (h : base.Inv ctx) (ns : Nat) :
    (base.clearTimer ns).Inv ctx ∧ Frame ctx.loose 0 base (base.clearTimer ns) :=
  h.touchNs ns fun _ => ⟨rfl, rfl, rfl⟩

variable (env permits) in
/-- The timer of a nameserver that is an exception is deleted. -/
theorem clearTimer_change (base : EvdnsBase) (ctx : DnsCtx) (ns : Nat) :
    Change env permits base (ctx.hide ns) (base.clearTimer ns) (ctx.hide ns) :=
  .hidden (f := fun server => { server with timer := false }) List.mem_cons_self
    fun _ => ⟨rfl, rfl, rfl, rfl⟩

variable (env permits) in
/-- A nameserver becomes an exception and forgets its probe. -/
theorem clearProbe_path (base : EvdnsBase) (ctx : DnsCtx) (ns : Nat) :
    Path env permits base ctx (base.clearProbe ns) (ctx.hide ns) :=
  (Change.hide ns).path.change (.hidden (f := fun server => { server with probeRequest := none })
    List.mem_cons_self fun _ => ⟨rfl, rfl, rfl, rfl⟩)

/-- Of two nameservers, at most one has a given handle as its probe while the handle has a current
request. -/
theorem Inv.probe_unique (h : base.Inv ctx) {ns' : Nat} (hns : ns ∉ ctx.hidden)
    (hns' : ns' ∉ ctx.hidden) (hprobe : base.links.probe ns = some hd)
    (hprobe' : base.links.probe ns' = some hd) {p : Bool}
    (hcur : base.links.current hd = some (some id, p)) : ns = ns' := by
  obtain ⟨_, _, howner⟩ := (h.links.probe ns hns hd hprobe).2.1 id p hcur
  obtain ⟨_, _, howner'⟩ := (h.links.probe ns' hns' hd hprobe').2.1 id p hcur
  rw [howner] at howner'
  cases howner'
  rfl

/-- From `base` to `base'`, the probe of the nameserver has been canceled. The nameserver is an
exception along the path. -/
structure ProbeCanceled (env : DnsEnv) (permits : DnsPermits) (ctx : DnsCtx) (ns : Nat)
    (base base' : EvdnsBase) : Prop where
  spares : ∀ id hd c, base.links.owner id = some (some hd, c) → base.links.probe ns ≠ some hd →
    Spares id hd base base'
  down : ∀ n, base'.goods.up n = true → base.goods.up n = true
  total : base'.total =
    base.total - (if (base.nameserver ns).probeRequest.any base.cancels then 1 else 0)
  pumped : base.Pumped → base'.Pumped
  path : Path env permits base (ctx.hide ns) base' (ctx.hide ns)

variable (env permits) in
/-- The probe of a nameserver is canceled. -/
theorem cancelProbe_spec (h : base.Inv ctx) (hfresh : ctx.fresh = none) (hloose : ctx.loose = [])
    (hhidden : ns ∉ ctx.hidden) :
    Yields ctx.Tolerates (base.cancelProbe env ns) fun base' =>
      base'.Inv ctx ∧ ProbeCanceled env permits ctx ns base base' := by
  rw [cancelProbe]
  cases hprobe : (base.nameserver ns).probeRequest with
  | none =>
    refine ⟨h, ?_⟩
    exact {
      spares := fun id hd _ _ _ => .refl id hd base
      down := fun _ hup => hup
      total := by simp [hprobe]
      pumped := fun hpumped => hpumped
      path := .refl _ _ }
  | some hd =>
    have hprobe' : base.links.probe ns = some hd := hprobe
    have hlive := (h.links.probe ns hhidden hd hprobe').1
    have hspec := evdnsCancelRequest_spec env permits (h.hide ns) hfresh hlive
      (fun _ _ _ => by rw [hloose]; exact List.not_mem_nil) fun id p hcur n hn => by
        by_cases hmem : n ∈ ctx.hidden
        · exact List.mem_cons_of_mem ns hmem
        · exact h.probe_unique hhidden hmem hprobe' hn hcur ▸ List.mem_cons_self
    refine Yields.bind (P := fun base1 : EvdnsBase =>
      base1.Inv (ctx.hide ns) ∧
      Canceled env permits (ctx.hide ns) hd base base1) hspec ?_
    rintro base1 ⟨h1, hcanceled⟩
    have hrings := rings_clearProbe base1 ns
    have hgoods := goods_clearProbe base1 ns
    refine ⟨h1.forget, ?_⟩
    exact {
      spares := by
        intro id hd' c howner hne
        have hne' : hd' ≠ hd := fun heq => hne (heq ▸ hprobe)
        refine (hcanceled.spares id hd' c howner hne').trans (spares_of_views hrings ?_ rfl id hd')
        rfl
      down := fun n hup => hcanceled.down n (by rw [← hgoods]; exact hup)
      total := by
        rw [total_of_rings hrings, hcanceled.total, hprobe]
        rfl
      pumped := fun hpumped => pumped_of_rings hrings rfl (hcanceled.pumped hpumped)
      path := hcanceled.path.change (.hidden List.mem_cons_self fun _ => ⟨rfl, rfl, rfl, rfl⟩) }

/-- From `base` to `base'`, the nameserver has come up. -/
structure Raised (env : DnsEnv) (permits : DnsPermits) (ctx : DnsCtx) (ns : Nat)
    (base base' : EvdnsBase) : Prop where
  spares : ∀ id hd c, base.links.owner id = some (some hd, c) → base.links.probe ns ≠ some hd →
    Spares id hd base base'
  total : base'.total = base.total - (if base.upCancels ns then 1 else 0)
  pumped : base.Pumped → base'.Pumped
  /-- The nameserver may have been an exception along the path before. -/
  path : Path env permits base (ctx.hide ns) base' ctx

variable (env permits) in
/-- A nameserver comes up, and all requests but its probe are spared. -/
theorem nameserverUp_spec (h : base.Inv ctx) (hfresh : ctx.fresh = none) (hloose : ctx.loose = [])
    (hhidden : ns ∉ ctx.hidden) (hns : ns ∈ base.servers)
    (hraise : base.goods.up ns = false → permits.raise ns) :
    Yields ctx.Tolerates (base.nameserverUp env ns) fun base' =>
      base'.Inv ctx ∧ Raised env permits ctx ns base base' := by
  refine h.getNameserver_bind hns ?_
  split
  · next hup =>
    refine ⟨h, fun id hd _ _ _ => .refl id hd base, ?_, id, (Change.unhide rfl (.inl hup)).path⟩
    simp [upCancels, hup]
  next hstate =>
  have hdown : base.goods.up ns = false := Bool.eq_false_iff.mpr hstate
  obtain ⟨h1, hframe1⟩ := clearTimer_frame h ns
  have hpath1 := (clearTimer_change env permits base ctx ns).path
  have hprobe1 : ((base.clearTimer ns).nameserver ns).probeRequest =
      (base.nameserver ns).probeRequest :=
    congrFun (congrArg DnsLinks.probe hframe1.links) ns
  have hcancels1 : (base.clearTimer ns).cancels = base.cancels := rfl
  generalize base.clearTimer ns = base1 at *
  refine (cancelProbe_spec env permits h1 hfresh hloose hhidden).bind ?_
  rintro base2 ⟨h2, hcanceled⟩
  have hservers2 := hcanceled.path.servers.trans hframe1.servers
  have hdown2 : base2.goods.up ns = false := by
    refine Bool.eq_false_iff.mpr fun htrue => ?_
    have hup := hframe1.down ns (hcanceled.down ns htrue)
    cases hdown.symm.trans hup
  obtain ⟨h3, hrings3, hlinks3⟩ := h2.raise (hservers2.mem_iff.mpr hns) hdown2
  have hpath3 : Path env permits base2 (ctx.hide ns) (base2.markUp ns)
      ctx := (Change.raise (hraise hdown)).path.change
        (.unhide rfl (.inl (by simp [markUp, modifyNs])))
  refine ⟨h3, ?_⟩
  exact {
    spares := by
      intro id hd c howner hne
      have howner1 : base1.links.owner id = some (some hd, c) := hframe1.links ▸ howner
      have hne1 : base1.links.probe ns ≠ some hd := hframe1.links ▸ hne
      refine ((hframe1.spares id hd).trans (hcanceled.spares id hd c howner1 hne1)).trans ?_
      exact spares_of_views hrings3 (by rw [hlinks3]) rfl id hd
    total := by
      have hupCancels :
          base.upCancels ns = (base.nameserver ns).probeRequest.any base.cancels := by
        have hstate' : (base.nameserver ns).state = false := hdown
        simp [upCancels, hstate']
      rw [total_of_rings hrings3, hcanceled.total, hframe1.total, hupCancels, hprobe1, hcancels1]
    pumped := fun hpumped =>
      pumped_of_rings hrings3 rfl (hcanceled.pumped (hframe1.pumped hpumped))
    path := (hpath1.trans hcanceled.path).trans hpath3 }

end EvdnsBase

end Libevent
