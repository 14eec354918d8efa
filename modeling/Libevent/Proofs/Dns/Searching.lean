import Libevent.Proofs.Dns.Asking

/-!
# `Libevent.Proofs.Dns.Searching`: the next name of a search

`searchTryNext_spec`: `search_try_next` makes a request for the next name before it finishes the old
one. So it is decided while the old request still counts whether the new one can be sent at once,
and the new one is put into a ring only after the waiting queue has been pumped. Two facts depend on
what the base is like at the call: that no request is left waiting which could be sent, and that the
id of the new request is still free when it is sent.
-/

namespace Libevent

open Lib Function

namespace EvdnsBase

variable {base base' mid : EvdnsBase} {ctx ctx' : DnsCtx} {env : DnsEnv} {permits : DnsPermits}
  {id new hd : Nat} {req : DnsRequest} {newreq : DnsRequest}

/-! ### The old request ends -/

/-- An id that was free stays free while a request ends, if none is waiting. -/
theorem Finished.unused (hfin : Finished env permits ctx' id hd base base') (h : base.Inv ctx)
    (h' : base'.Inv ctx') (hloose : ∀ x ∈ ctx.loose, x ∈ ctx'.loose)
    (hwaiting : base.reqWaitingHead = []) {t : Nat} (ht : base.Unused t) : base'.Unused t := by
  obtain ⟨⟨mid, n, hended, hkeeps⟩, -⟩ := hfin
  have hempty : mid.reqWaitingHead = [] := by
    rcases hended.left with ⟨hsame, -⟩ | ⟨-, hmem, -⟩
    · exact hsame.trans hwaiting
    · rw [hwaiting] at hmem
      cases hmem
  intro x hx ns hplace
  obtain ⟨hloose', ns', t', hplace'⟩ := h'.flying_of_mem hx
  rw [hplace] at hplace'
  cases hplace'
  rcases hkeeps.origin x ns' t hplace with ⟨old, hmid⟩ | hmem
  · have hne : x ≠ id := by
      rintro rfl
      cases hended.gone.symm.trans hmid
    have hbase : base.rings.place x = some (some old, t) := (hended.place x hne).symm.trans hmid
    exact ht x (h.fliesTo (fun hx => hloose' (hloose x hx)) hbase).flying _ hbase
  · rw [hempty, List.take_nil] at hmem
    cases hmem

theorem Unused.of_rings {t : Nat} (h : base.Unused t) (hrings : base'.rings = base.rings) :
    base'.Unused t := by
  intro x hx ns hplace
  have hheads : base'.reqHeads = base.reqHeads := congrArg DnsRings.heads hrings
  rw [hheads] at hx
  rw [hrings] at hplace
  exact h x hx ns hplace

/-- If none was waiting, none is when a request has ended. -/
theorem Finished.waiting_nil (hfin : Finished env permits ctx' id hd base base')
    (hwaiting : base.reqWaitingHead = []) : base'.reqWaitingHead = [] := by
  obtain ⟨⟨mid, n, hended, hkeeps⟩, -⟩ := hfin
  rw [hkeeps.waiting]
  rcases hended.left with ⟨hsame, -⟩ | ⟨-, hmem, -⟩
  · rw [hsame, hwaiting, List.drop_nil]
  · rw [hwaiting] at hmem
    cases hmem

/-- The handle of the old request gets the new one. -/
theorem linkHandle_frame (h : base.Inv { loose := [new], idle := [hd] })
    (hreq : base.req new = some req) (hnone : req.handle = none) (huser : req.userCallback = .user)
    (hcur : base.links.current hd = some (none, false))
    (hprobe : ∀ ns, base.links.probe ns ≠ some hd) :
    (base.linkHandle hd new).Inv { loose := [new] } ∧
    (base.linkHandle hd new).rings = base.rings := by
  have howner := owner_of_req hreq hnone
  obtain ⟨handle, hhandle, -, hpending⟩ := exists_handle_of_current hcur
  have hrings : (base.linkHandle hd new).rings = base.rings := by
    have hplace := rings_modifyReq_place
      (base.modifyHandle hd fun handle => { handle with currentReq := some new }) hreq
      (f := fun req => { req with handle := some hd }) rfl
    rw [linkHandle, hplace, ← place_of_req hreq rfl]
    exact congrArg (fun place => { base.rings with place := place }) (update_eq_self ..)
  have hlinks : (base.linkHandle hd new).links =
      base.links.adopt new hd (req.userCallback, req.requestType) := by
    simp only [linkHandle, links, modifyHandle, modifyReq, DnsLinks.adopt, map_update, any_update,
      hreq, hhandle, Option.map_some, Option.any_some, hpending, searching_self hhandle]
  refine ⟨⟨?_, ?_, h.goods, ?_⟩, hrings⟩
  · rw [hrings]
    exact h.rings
  · rw [hlinks]
    refine h.links.adopt (fun x c => ?_) hcur List.not_mem_nil
      (fun ns _ hns => absurd hns (hprobe ns)) (fun _ => huser) fun x hx hne => ?_
    · rw [howner]
      rintro ⟨⟩
    · exact absurd (List.mem_singleton.mp hx) hne
  · rw [hlinks]
    intro ns hns
    have hupdate : (base.links.adopt new hd (req.userCallback, req.requestType)).owner =
      update base.links.owner new (some (some hd, req.userCallback, req.requestType)) := rfl
    rcases DnsLinks.mentions_update hupdate rfl hns with hold | hnew
    · exact h.targets ns hold
    · cases huser.symm.trans hnew

theorem linkHandle_path (base : EvdnsBase) (hd new : Nat) :
    Path env permits base { loose := [new], idle := [hd] } (base.linkHandle hd new)
      { loose := [new] } := by
  have hdetails : ReqDetails fun req => { req with handle := some hd } :=
    fun _ => ⟨rfl, rfl, rfl, rfl, Nat.le_refl _, .inl rfl⟩
  have haside : Change env permits base { loose := [new], idle := [hd] }
      (base.modifyHandle hd fun handle => { handle with currentReq := some new })
      { loose := [new] } := .aside (.modifyHandle _ _ _) ⟨rfl, rfl, rfl⟩
  exact haside.path.change (.reqDetails new hdetails)

/-- What is known of the old request `id` and of the new one when the old one is about to end. -/
structure Succession (base : EvdnsBase) (id new hd : Nat) (req newreq : DnsRequest) : Prop where
  inv : base.Inv { loose := [new] }
  old : base.req id = some req
  handle : req.handle = some hd
  flying : req.ns.isSome
  ne : id ≠ new
  next : base.req new = some newreq
  orphan : newreq.handle = none
  user : newreq.userCallback = .user
  sentTo : newreq.sentTo = none
  ready : ∀ n, newreq.ns = some n → n ∈ base.servers ∧ newreq.transId ≠ 0xffff ∧
    base.Unused newreq.transId
  current : base.links.current hd = some (some id, false)
  probe : ∀ ns, base.links.probe ns ≠ some hd

variable (env permits) in
/-- The old request ends. The new one is still in no ring, and its id is still free unless requests
have been sent. -/
theorem Succession.finish_spec (h : Succession base id new hd req newreq) :
    Yields Spins (base.requestFinished env id (base.reqHead req.transId) false)
      fun base' => base'.Inv { loose := [new], idle := [hd] } ∧
        Finished env permits { loose := [new], idle := [hd] } id hd base base' ∧
        (∃ req', base'.req new = some req' ∧ req'.ns = newreq.ns ∧ req'.transId = newreq.transId ∧
          req'.handle = none ∧ req'.userCallback = .user ∧ req'.sentTo = none) ∧
        base'.links.current hd = some (none, false) ∧ (∀ ns, base'.links.probe ns ≠ some hd) ∧
        (base.reqWaitingHead = [] → ∀ t, base.Unused t → base'.Unused t) := by
  have hring : base.reqHead req.transId = base.ringOf req := by
    rw [ringOf, if_pos h.flying]
  have hloose : id ∉ [new] := fun hmem => h.ne (List.mem_singleton.mp hmem)
  refine (requestFinished_spec env permits h.inv rfl h.old h.handle hloose
    (fun hfree : false = true => by cases hfree) (fun x hx => absurd hx List.not_mem_nil)
    (fun _ => List.mem_singleton_self hd) hring).mono ?_
  rintro base' ⟨h', hfin⟩
  have h1 : base'.Inv { loose := [new], idle := [hd] } := h'
  have hfin1 : Finished env permits { loose := [new], idle := [hd] } id hd base base' := hfin
  have hplace : base'.rings.place new = base.rings.place new :=
    hfin1.aside (List.mem_singleton_self new) h.ne.symm
  obtain ⟨pending, search, hcur, hlinks⟩ := hfin1.links
  cases h.current.symm.trans hcur
  have howner : base'.links.owner new = base.links.owner new := by
    rw [hlinks]
    exact update_of_ne h.ne.symm _ _
  have hunsent : Unsent base { loose := [new] } := by
    intro x hx r hr
    rw [List.mem_singleton.mp hx, h.next] at hr
    exact Option.some.inj hr ▸ h.sentTo
  have hpath : Path env permits base { loose := [new] } base' { loose := [new], idle := [hd] } :=
    hfin1.path ⟨rfl, rfl, rfl⟩
  refine ⟨h1, hfin1, ?_, ?_, fun ns => ?_, fun hwaiting t ht => ?_⟩
  · rw [place_of_req h.next rfl] at hplace
    obtain ⟨req', hreq', hns, ht⟩ := exists_req_of_place hplace
    obtain ⟨hhandle, huser, -⟩ := same_owner h.next hreq' howner
    exact ⟨req', hreq', hns, ht, hhandle.trans h.orphan, huser.trans h.user,
      hpath.unsent hunsent new (List.mem_singleton_self new) req' hreq'⟩
  · rw [hlinks]
    exact update_self ..
  · rw [hlinks]
    exact h.probe ns
  · exact hfin1.unused h.inv h1 (fun x hx => hx) hwaiting ht

variable (env permits) in
/-- The old request ends, and the new one is submitted in its place. Nothing is left that could be
pumped if the new one is sent while none is waiting, or waits while there are more than enough. -/
theorem Succession.submit_spec (h : Succession base id new hd req newreq)
    (hstale : permits.stale ∨ (newreq.ns.isSome → base.reqWaitingHead = [])) :
    Yields Spins (do
        let base ← base.requestFinished env id (base.reqHead req.transId) false
        let base ← (base.linkHandle hd new).requestSubmit env new
        pure (base, true)) fun p =>
      p.2 = true ∧ p.1.Inv {} ∧ ((newreq.ns.isSome → base.reqWaitingHead = []) →
          (newreq.ns = none → base.servers ≠ [] → base.globalMaxRequestsInflight < base.total) →
          p.1.Pumped) ∧
        Path env permits base { loose := [new] } p.1 {} := by
  refine (h.finish_spec env permits).bind ?_
  rintro base1 ⟨h1, hfin, ⟨req1, hreq1, hns1, ht1, hnone1, huser1, hsent1⟩, hcur1, hprobe1,
    hunused1⟩
  obtain ⟨h2, hrings2⟩ := linkHandle_frame h1 hreq1 hnone1 huser1 hcur1 hprobe1
  have h2' : (base1.linkHandle hd new).Inv { ({} : DnsCtx) with loose := [new] } := h2
  have hpath1 : Path env permits base { loose := [new] } base1 { loose := [new], idle := [hd] } :=
    hfin.path ⟨rfl, rfl, rfl⟩
  have hpath2 := hpath1.trans (linkHandle_path base1 hd new)
  have hreq2 : (base1.linkHandle hd new).req new = some { req1 with handle := some hd } := by
    exact modifyReq_self hreq1 _
  have hmax2 : (base1.linkHandle hd new).globalMaxRequestsInflight =
      base1.globalMaxRequestsInflight := rfl
  have htotal2 : (base1.linkHandle hd new).total = base.total - 1 :=
    (total_of_rings hrings2).trans hfin.total
  generalize base1.linkHandle hd new = base2 at *
  have hready : ∀ n, req1.ns = some n → n ∈ base2.servers ∧ req1.transId ≠ 0xffff ∧
      (base2.Unused req1.transId ∨ permits.stale) := by
    intro n hn
    rw [hns1] at hn
    rw [ht1]
    obtain ⟨hserver, ht, hunused⟩ := h.ready n hn
    refine ⟨hpath2.servers.mem_iff.mpr hserver, ht, ?_⟩
    rcases hstale with hstale | hempty
    · exact .inr hstale
    · have hwaiting := hempty (Option.isSome_iff_exists.mpr ⟨n, hn⟩)
      exact .inl ((hunused1 hwaiting _ hunused).of_rings hrings2)
  refine (requestSubmit_spec env permits h2' ⟨rfl, rfl, rfl⟩ hreq2 rfl (fun _ => huser1) hsent1
    hready).bind ?_
  rintro base3 ⟨h3, hsubmit⟩
  refine ⟨rfl, h3, fun hempty henough hne => ?_, hpath2.trans hsubmit.path⟩
  have hne2 : base2.servers ≠ [] := fun hnil => hne (List.perm_nil.mp (hnil ▸ hsubmit.path.servers))
  have hne0 : base.servers ≠ [] := fun hnil => hne2 (List.perm_nil.mp (hnil ▸ hpath2.servers))
  have hplace2 : base2.rings.place new = some (newreq.ns, newreq.transId) := by
    rw [place_of_req hreq2 rfl, ← hns1, ← ht1]
  have hpumped2 : base2.Pumped := pumped_of_rings hrings2 hmax2 hfin.2
  rcases hsubmit.entered with ⟨hwaiting, -, n, t, hplace⟩ | ⟨-, hinflight, t, hplace⟩
  · -- it is sent, and none is waiting
    rw [hplace2] at hplace
    obtain ⟨hns, -⟩ : newreq.ns = some n ∧ newreq.transId = t := by simpa using hplace
    have hwaiting2 : base2.reqWaitingHead = [] := by
      have hsame : base2.reqWaitingHead = base1.reqWaitingHead := congrArg DnsRings.waiting hrings2
      rw [hsame]
      exact hfin.waiting_nil (hempty (by rw [hns]; rfl))
    exact .inl (hwaiting.trans hwaiting2)
  -- it waits, and there are enough in flight
  rw [hplace2] at hplace
  obtain ⟨hns, -⟩ : newreq.ns = none ∧ newreq.transId = t := by simpa using hplace
  have hlt := henough hns hne0
  refine .inr ?_
  rw [hsubmit.path.max, hinflight]
  rcases hpumped2 hne2 with hnil | hle
  · rw [EvdnsBase.total, hnil, List.length_nil] at htotal2
    rw [hpath2.max]
    omega
  · exact hle

/-! ### `search_try_next` -/

/-- `search_try_next` would submit another request for the handle. -/
def continues (base : EvdnsBase) (h : Nat) : Bool :=
  (base.handle h).any fun handle => handle.searchState.any fun state =>
    match searchNextName state.val (handle.searchIndex + 1) handle.searchOrigname with
    | .ok (some (name, _)) => requestable name
    | _ => false

/-- There is a next name, or there is none, but the search does not run past its domains. -/
theorem searchNextName_ok (state : { state : SearchState // state.domains ≠ [] }) (index : Int)
    (name : Bytes) : ∃ next, searchNextName state.val index name = .ok next := by
  rw [searchNextName]
  split
  · split
    · exact ⟨_, rfl⟩
    · exact ⟨_, rfl⟩
  next hindex =>
  have hpos : 0 < state.val.domains.length := List.length_pos_iff.mpr state.property
  obtain ⟨name', hname⟩ := searchMakeNew_ok
    (show index.toNat < state.val.domains.length by omega) name
  rw [hname]
  exact ⟨_, rfl⟩

/-- The search may end with the request, and then the handle is not that of a search any more. -/
theorem searchRequestFinished_ite (base : EvdnsBase) (hd : Nat) (last : Bool) :
    ∃ f : EvdnsRequest → EvdnsRequest,
      (if last then base.searchRequestFinished hd else base) = base.modifyHandle hd f ∧
      HandleDetails f := by
  cases last with
  | true =>
    exact ⟨fun handle => { handle with searchState := none, searchOrigname := [] }, rfl,
      fun _ => ⟨rfl, rfl⟩⟩
  | false => exact ⟨fun handle => handle, (modifyHandle_id base hd).symm, fun _ => ⟨rfl, rfl⟩⟩

section Made

variable {type : DnsType} {req : DnsRequest}
  (hmade : Made env permits {} { loose := [new] } none (.user, type) new base mid)
  (hmid : mid.Inv { loose := [new] }) (hreq : base.req id = some req) (hhd : req.handle = some hd)
  (hflying : req.ns.isSome) (huser : req.userCallback = .user)
  (hcur : base.links.current hd = some (some id, false))
  (hprobe : ∀ ns, base.links.probe ns ≠ some hd)
include hmade hmid hreq hhd hflying huser hcur hprobe

/-- The request that `search_try_next` has made is to follow the old one. The handle may have been
changed. -/
theorem Made.succession {f : EvdnsRequest → EvdnsRequest} (hf : HandleDetails f) :
    ∃ req' newreq, Succession (mid.modifyHandle hd f) id new hd req' newreq ∧
      req'.transId = req.transId ∧ (newreq.ns.isSome → base.Issuing) ∧
      (base.Issuing → base.servers ≠ [] → newreq.ns.isSome) := by
  have hne : id ≠ new := by
    rintro rfl
    cases hmade.fresh.symm.trans hreq
  have howner : mid.links.owner id = base.links.owner id := by
    rw [hmade.links]
    exact update_of_ne hne _ _
  have hcurrent : mid.links.current hd = some (some id, false) := by
    rw [hmade.links]
    exact hcur
  have hnew : mid.links.owner new = some (none, .user, type) := by
    rw [hmade.links]
    exact update_self ..
  have hcallback : ∀ i p h' c, mid.links.current hd = some (some i, p) →
      mid.links.owner i = some (h', c) → c.1 = .user := by
    intro i p h' c hi hc
    cases hcurrent.symm.trans hi
    rw [howner, owner_of_req hreq rfl] at hc
    cases hc
    exact huser
  obtain ⟨h1, howner1, hcurrent1⟩ := hmid.touchHandle hf hcallback
  -- the old request is where it was
  have hplace := hmade.place id hne
  rw [place_of_req hreq rfl] at hplace
  obtain ⟨req', hreq', hns', ht'⟩ := exists_req_of_place hplace
  obtain ⟨hhd', -⟩ := same_owner hreq hreq' howner
  -- the new one has what it needs
  obtain ⟨newreq, hnewreq, hsent⟩ := hmade.unsent
  obtain ⟨ns, t, hready, hservers, hissue, hissue'⟩ := hmade.ready
  rw [place_of_req hnewreq rfl] at hready
  obtain ⟨rfl, rfl⟩ : newreq.ns = ns ∧ newreq.transId = t := by simpa using hready
  rw [owner_of_req hnewreq rfl] at hnew
  obtain ⟨horphan, hcb, -⟩ : newreq.handle = none ∧ newreq.userCallback = .user ∧
      newreq.requestType = type := by
    simpa using hnew
  refine ⟨req', newreq, ?_, ht', hissue, hissue'⟩
  exact {
    inv := h1
    old := hreq'
    handle := hhd'.trans hhd
    flying := hns' ▸ hflying
    ne := hne
    next := hnewreq
    orphan := horphan
    user := hcb
    sentTo := hsent
    ready := by
      intro n hn
      obtain ⟨hserver, ht, hunused⟩ := hservers n hn
      exact ⟨hserver, ht, hmade.unused hmid (List.mem_singleton_self new) hunused⟩
    current := by
      rw [hcurrent1]
      exact hcurrent
    probe := by
      intro n hn
      have hsame : mid.links.probe n = some hd := hn
      rw [hmade.links] at hsame
      exact hprobe n hsame }

/-- The part of `search_try_next` that follows on `request_new`. -/
theorem Made.try_spec (hstale : permits.stale ∨ base.Pumped) (last : Bool) : Yields Spins (do
        let base := if last then mid.searchRequestFinished hd else mid
        let base ← base.requestFinished env id (base.reqHead req.transId) false
        let base ← (base.linkHandle hd new).requestSubmit env new
        pure (base, true)) fun p =>
      p.2 = true ∧ p.1.Inv {} ∧
        Stepped env permits (base.total ≠ base.globalMaxRequestsInflight) {} {} base p.1 := by
  obtain ⟨f, heq, hf⟩ := searchRequestFinished_ite mid hd last
  rw [heq]
  obtain ⟨req', newreq, hsucc, ht', hissue, hissue'⟩ :=
    hmade.succession hmid hreq hhd hflying huser hcur hprobe hf
  have hchange : Change env permits mid { loose := [new] } (mid.modifyHandle hd f)
      { loose := [new] } := .aside (.modifyHandle _ _ _) (.refl _)
  have htotal : (mid.modifyHandle hd f).total = base.total := by
    show mid.globalRequestsInflight + (mid.reqWaitingHead.length : Int) = base.total
    rw [hmade.inflight, hmade.waiting]
    rfl
  -- with nothing to pump, the new request is sent at once only if none is waiting
  have hempty : base.Pumped → newreq.ns.isSome → (mid.modifyHandle hd f).reqWaitingHead = [] := by
    intro hpumped hsome
    obtain ⟨n, hn⟩ := Option.isSome_iff_exists.mp hsome
    have hne : base.servers ≠ [] :=
      List.ne_nil_of_mem (hmade.path.servers.mem_iff.mp (hsucc.ready n hn).1)
    have hlt := hissue hsome
    have hwaiting : base.reqWaitingHead = [] := (hpumped hne).resolve_right (by omega)
    exact hmade.waiting.trans hwaiting
  rw [← ht']
  refine (hsucc.submit_spec env permits (hstale.imp_right hempty)).mono ?_
  rintro p ⟨htrue, h', hpumped, hpath⟩
  refine ⟨htrue, h', fun hroom hbase => hpumped (hempty hbase) fun hnone hne => ?_,
    hmade.path.trans (hchange.path.trans hpath)⟩
  -- otherwise the maximum has been reached, and there is room only if it has been passed
  have hne' : base.servers ≠ [] := fun hnil => hne (List.perm_nil.mp (hnil ▸ hmade.path.servers))
  have hnot : ¬ base.Issuing := by
    intro hissuing
    have hsome := hissue' hissuing hne'
    rw [hnone] at hsome
    cases hsome
  have hmax : (mid.modifyHandle hd f).globalMaxRequestsInflight = base.globalMaxRequestsInflight :=
    hmade.path.max
  have hle : base.globalRequestsInflight ≤ base.total := by
    rw [EvdnsBase.total]
    omega
  omega

end Made

/-- From `base` to `base'`, `search_try_next` has tried. -/
structure Tried (env : DnsEnv) (permits : DnsPermits) (id transId hd : Nat) (base : EvdnsBase)
    (p : EvdnsBase × Bool) : Prop where
  inv : p.1.Inv {}
  stepped : Stepped env permits
    (base.continues hd = true → base.total ≠ base.globalMaxRequestsInflight) {} {} base p.1
  /-- If no request has been submitted, the old one is left as it was. -/
  owner : p.2 = false → p.1.links.owner id = base.links.owner id
  flying : p.2 = false → ∃ ns, p.1.rings.place id = some (some ns, transId)

variable (env permits) in
/-- `search_try_next` asks for the next name of the search, or ends it. -/
theorem searchTryNext_spec (h : base.Inv {}) (hreq : base.req id = some req)
    (hhd : req.handle = some hd) (hflying : req.ns.isSome) {handle : EvdnsRequest}
    (hhandle : base.handle hd = some handle) (hsearch : handle.searchState.isSome)
    (hstale : base.continues hd = true → permits.stale ∨ base.Pumped) :
    Yields Spins (base.searchTryNext env hd) (Tried env permits id req.transId hd base) := by
  obtain ⟨state, hstate⟩ := Option.isSome_iff_exists.mp hsearch
  obtain ⟨ns, hns⟩ := Option.isSome_iff_exists.mp hflying
  have hcur := h.current hreq hhd List.not_mem_nil
  have hcurrent : handle.currentReq = some id := by
    rw [current_of_handle hhandle] at hcur
    simpa using congrArg (Option.map Prod.fst) hcur
  have hsearching : base.links.searching hd = true := by simp [links, hhandle, hsearch]
  have howned := owner_of_req hreq rfl
  have hcallback : ∀ i p h' c, base.links.current hd = some (some i, p) →
      base.links.owner i = some (h', c) → c.1 = .user := fun i p h' c =>
    h.links.search hd i p h' c hsearching
  have huser : req.userCallback = .user := hcallback id false _ _ hcur howned
  have hprobe : ∀ ns, base.links.probe ns ≠ some hd := by
    intro ns hns
    obtain ⟨-, hprobing, -⟩ := h.links.probe ns List.not_mem_nil hd hns
    obtain ⟨h', type, howner⟩ := hprobing id false hcur
    rw [howned, huser] at howner
    cases howner
  obtain ⟨next, hnext⟩ := searchNextName_ok state (handle.searchIndex + 1) handle.searchOrigname
  rw [searchTryNext, getHandle_eq hhandle, yields_ok_bind]
  simp only [hcurrent, hstate]
  rw [getReq_eq hreq, hnext]
  -- the index is counted up whether there is a next name or not
  obtain ⟨h1, howner1, hcurrent1⟩ :
      (base.searchAdvance hd).Inv {} ∧ (base.searchAdvance hd).links.owner = base.links.owner ∧
        (base.searchAdvance hd).links.current = base.links.current :=
    h.touchHandle (fun _ => ⟨rfl, rfl⟩) hcallback
  have hpath1 : Path env permits base {} (base.searchAdvance hd) {} :=
    (Change.aside (.modifyHandle _ _ _) (.refl _)).path
  have hrings1 : (base.searchAdvance hd).rings = base.rings := rfl
  have hprobe1 : (base.searchAdvance hd).links.probe = base.links.probe := rfl
  have hreq1 : (base.searchAdvance hd).req id = some req := hreq
  have hmax1 : (base.searchAdvance hd).globalMaxRequestsInflight = base.globalMaxRequestsInflight :=
    rfl
  generalize base.searchAdvance hd = base1 at *
  have hpumped1 : base.Pumped → base1.Pumped := pumped_of_rings hrings1 hmax1
  have hstepped1 : Stepped env permits True {} {} base base1 :=
    ⟨fun _ => hpumped1, hpath1⟩
  have hplace1 := place_of_req hreq1 hns
  cases next with
  | none =>
    exact ⟨h1, hstepped1.room fun _ => trivial, fun _ => congrFun howner1 id,
      fun _ => ⟨ns, hplace1⟩⟩
  | some next =>
    obtain ⟨name, last⟩ := next
    have hcontinues : base.continues hd = requestable name := by
      simp only [continues, hhandle, hstate, Option.any_some, hnext]
    refine (requestNew_spec env permits h1 ⟨rfl, rfl, rfl⟩
      (fun x (hx : (none : Option Nat) = some x) => by cases hx) ?_ fun x hx _ => hx).bind ?_
    · intro n hn
      cases huser.symm.trans hn
    rintro ⟨base2, made⟩ ⟨hsome, hnone, hmade⟩
    cases made with
    | none =>
      obtain ⟨h2, hkeeps2⟩ := hnone rfl
      obtain ⟨ns2, hplace2⟩ := hkeeps2.flying id ns req.transId hplace1
      refine ⟨h2, (hstepped1.trans hkeeps2.stepped).room fun _ => ⟨trivial, trivial⟩,
        fun _ => ?_, fun _ => ⟨ns2, hplace2⟩⟩
      rw [hkeeps2.links]
      exact congrFun howner1 id
    | some new =>
      obtain ⟨hmid, hmade⟩ := hmade new rfl
      rw [huser] at hmade
      have hgoes : base.continues hd = true := hcontinues.trans hsome.symm
      refine (hmade.try_spec hmid hreq1 hhd hflying huser (hcurrent1 ▸ hcur) (hprobe1 ▸ hprobe)
        ((hstale hgoes).imp_right hpumped1) last).mono ?_
      rintro p ⟨htrue, h', hstepped'⟩
      have htotal1 : base1.total = base.total := total_of_rings hrings1
      refine ⟨h', (hstepped1.trans hstepped').room fun hroom => ⟨trivial, ?_⟩, ?_, ?_⟩
      · rw [htotal1, hmax1]
        exact hroom hgoes
      · rw [htrue]
        rintro ⟨⟩
      · rw [htrue]
        rintro ⟨⟩

end EvdnsBase

end Libevent
