import Libevent.Proofs.Dns.Making

/-!
# `Libevent.Proofs.Dns.Asking`: requests of the user, and probes

`evdnsBaseResolve_spec`, `nameserverSendProbe_spec`: a request of the user gets a handle first. The
name that is asked for is the user's, or that of the first domain of the search list, and the handle
is freed again if no request can be made for it. A probe is made in the same way, but it gets the
nameserver that it is for, whatever has been picked.
-/

namespace Libevent

open Lib Function

namespace EvdnsBase

variable {base base' mid : EvdnsBase} {ctx ctx' : DnsCtx} {env : DnsEnv} {permits : DnsPermits}
  {id hd : Nat} {f : EvdnsRequest → EvdnsRequest} {req : DnsRequest} {ns : Nat}

/-! ### Handles -/

theorem links_newHandle (base : EvdnsBase) : base.newHandle.1.links = base.links.newHandle := by
  simp only [newHandle, links, DnsLinks.newHandle, map_update, any_update, Option.map_some,
    Option.any_some, Option.isSome_none]

/-- A handle is allocated. -/
theorem Inv.newHandle (h : base.Inv ctx) :
    base.newHandle.1.Inv { ctx with idle := base.nextHandle :: ctx.idle } := by
  refine ⟨h.rings, ?_, h.goods, ?_⟩
  · rw [links_newHandle]
    exact h.links.newHandle
  · exact h.targets

/-- The new handle has no request, and no nameserver has it as its probe. -/
theorem Inv.newHandle_unknown (h : base.Inv ctx) (ns : Nat) (hns : ns ∉ ctx.hidden) :
    base.links.newHandle.probe ns ≠ some base.nextHandle := by
  intro hprobe
  exact (h.links.probe ns hns _ hprobe).1 (h.links.fresh _ (Nat.le_refl _))

theorem newHandle_current (base : EvdnsBase) :
    base.links.newHandle.current base.nextHandle = some (none, false) := update_self ..

/-- A handle is freed. -/
theorem Inv.freeHandle (h : base.Inv ctx) {p : Bool} (hcur : base.links.current hd = some (none, p))
    (hdeferred : hd ∉ base.deferred.filterMap (·.handle))
    (hprobe : ∀ ns, ns ∉ ctx.hidden → base.links.probe ns ≠ some hd) {idle : List Nat}
    (hidle : ∀ x ∈ ctx.idle, x ≠ hd → x ∈ idle) :
    (base.freeHandle hd).Inv { ctx with idle := idle } := by
  have hlinks : (base.freeHandle hd).links = base.links.freeHandle hd := by
    simp only [EvdnsBase.freeHandle, EvdnsBase.links, DnsLinks.freeHandle, map_update, any_update,
      Option.map_none, Option.any_none]
  refine ⟨h.rings, ?_, h.goods, ?_⟩
  · rw [hlinks]
    exact h.links.freeHandle hcur hdeferred hprobe hidle
  · exact h.targets

/-- A change of a handle that leaves its request and its callback. -/
def HandleDetails (f : EvdnsRequest → EvdnsRequest) : Prop :=
  ∀ handle, (f handle).currentReq = handle.currentReq ∧ (f handle).pendingCb = handle.pendingCb

theorem Inv.touchHandle (h : base.Inv ctx) (hf : HandleDetails f) (huser : ∀ id p h' c,
      base.links.current hd = some (some id, p) → base.links.owner id = some (h', c) →
      c.1 = .user) :
    (base.modifyHandle hd f).Inv ctx ∧ (base.modifyHandle hd f).links.owner = base.links.owner ∧
      (base.modifyHandle hd f).links.current = base.links.current := by
  have hsame : (fun handle : EvdnsRequest => (handle.currentReq, handle.pendingCb)) ∘ f =
      fun handle => (handle.currentReq, handle.pendingCb) := by
    funext handle
    simp only [Function.comp, (hf handle).1, (hf handle).2]
  have hlinks : (base.modifyHandle hd f).links =
      base.links.setSearch hd (((base.handle hd).map f).any (·.searchState.isSome)) := by
    simp only [EvdnsBase.links, modifyHandle, DnsLinks.setSearch, map_update, any_update,
      Option.map_map, hsame]
    rw [update_eq_self hd]
  refine ⟨⟨h.rings, ?_, h.goods, ?_⟩, ?_, ?_⟩
  · rw [hlinks]
    exact h.links.setSearch fun _ => huser
  · exact h.targets
  · rfl
  · rw [hlinks]
    rfl

/-! ### A request of the user -/

/-- From `base` to `base'`, a request has been made for the handle `hd` and submitted, unless the
name was refused. -/
structure Asked (env : DnsEnv) (permits : DnsPermits) (hd : Nat) (base base' : EvdnsBase) :
    Prop where
  outcome : (base'.Inv {} ∧ ∃ id, base'.links.current hd = some (some id, false)) ∨
    (base'.Inv { idle := [hd] } ∧ base'.links = base.links)
  stepped : Stepped env permits True {} {} base base'

variable (env permits) in
/-- A request that has been made for the handle is submitted. -/
theorem Made.submit_spec {type : DnsType} (hmade : Made env permits { idle := [hd] } { loose := [id]
      } (some hd) (.user, type) id base mid) (hmid : mid.Inv { loose := [id] })
    (hf : HandleDetails f) :
    Yields Spins ((mid.modifyHandle hd f).requestSubmit env id) (Asked env permits hd base) := by
  obtain ⟨howner, hcur⟩ := hmade.adopted
  have huser : ∀ i p h' c, mid.links.current hd = some (some i, p) →
      mid.links.owner i = some (h', c) → c.1 = .user := by
    intro i p h' c hi hc
    cases hcur.symm.trans hi
    cases howner.symm.trans hc
    rfl
  obtain ⟨h1, howner1, hcur1⟩ := hmid.touchHandle hf huser
  obtain ⟨req, hreq, hsent⟩ := hmade.unsent
  obtain ⟨ns, t, hplace, hready, -⟩ := hmade.ready
  have hplaced := place_of_req hreq rfl
  have howned := owner_of_req hreq rfl
  rw [hplace] at hplaced
  rw [howner] at howned
  obtain ⟨rfl, rfl⟩ : ns = req.ns ∧ t = req.transId := by simpa using hplaced
  obtain ⟨hhd, hc, -⟩ :
      some hd = req.handle ∧ .user = req.userCallback ∧ type = req.requestType := by
    simpa using howned
  have hpath : Path env permits mid { loose := [id] } (mid.modifyHandle hd f) { loose := [id] } :=
    (Change.aside (.modifyHandle mid hd f) (.refl _)).path
  have h1' : (mid.modifyHandle hd f).Inv { ({} : DnsCtx) with loose := [id] } := h1
  refine (requestSubmit_spec env permits h1' ⟨rfl, rfl, rfl⟩ hreq hhd.symm (fun _ => hc.symm) hsent
    fun n hn => ?_).mono ?_
  · obtain ⟨hserver, ht, hfree⟩ := hready n hn
    exact ⟨hserver, ht, .inl (hmade.unused hmid (List.mem_singleton_self id) hfree)⟩
  rintro base' ⟨h', hsubmit⟩
  have hstepped := hmade.stepped (by rfl) hpath hsubmit
  have hstart : Change env permits base {} base { idle := [hd] } :=
    .aside (.refl base) ⟨rfl, rfl, rfl⟩
  refine ⟨.inl ⟨h', id, ?_⟩, { hstepped with path := hstart.path.trans hstepped.path }⟩
  rw [hsubmit.links, hcur1]
  exact hcur

/-- A change of a handle that changes nothing. -/
theorem modifyHandle_id (base : EvdnsBase) (hd : Nat) :
    base.modifyHandle hd (fun handle => handle) = base := by
  rw [modifyHandle, Option.map_id', update_eq_self]

/-- A name that is refused leaves the handle alone. -/
theorem Asked.refused (h : mid.Inv { idle := [hd] })
    (hkeeps : Keeps env permits 0 base { idle := [hd] } mid { idle := [hd] }) :
    Asked env permits hd base mid := by
  have hstart : Change env permits base {} base { idle := [hd] } :=
    .aside (.refl base) ⟨rfl, rfl, rfl⟩
  have hend : Change env permits mid { idle := [hd] } mid {} := .aside (.refl mid) ⟨rfl, rfl, rfl⟩
  exact ⟨.inr ⟨h, hkeeps.links⟩, fun _ => hkeeps.pumped,
    hstart.path.trans (hkeeps.path.change hend)⟩

section NewHandle

variable (env permits) (h : base.Inv { idle := [hd] })
  (hcur : base.links.current hd = some (none, false))
  (hprobe : ∀ ns, base.links.probe ns ≠ some hd) (type : DnsType) (name : Bytes)
  {state : SearchState}
include h hcur hprobe

/-- `request_new` for the handle of the user, followed by `request_submit` if it has made a
request. -/
theorem requestNew_submit_spec (hf : HandleDetails f) : Yields Spins (do
        let (base, req) ← base.requestNew env (some hd) type name .user
        match req with
        | none => pure base
        | some id =>
          (base.modifyHandle hd f).requestSubmit env id) (Asked env permits hd base) := by
  have hadopt : ∀ x, some hd = some x → Adoptable base { idle := [hd] } .user x := by
    rintro x ⟨rfl⟩
    exact ⟨hcur, fun ns _ hns => absurd hns (hprobe ns), fun _ => rfl⟩
  have hidle : ∀ x ∈ [hd], some hd ≠ some x → x ∈ ([] : List Nat) := by
    intro x hx hne
    exact absurd (congrArg some (List.mem_singleton.mp hx).symm) hne
  refine (requestNew_spec env permits h ⟨rfl, rfl, rfl⟩ hadopt nofun hidle).bind ?_
  rintro ⟨mid, made⟩ ⟨-, hnone, hsome⟩
  cases made with
  | none =>
    obtain ⟨hmid, hkeeps⟩ := hnone rfl
    exact Asked.refused hmid hkeeps
  | some id =>
    obtain ⟨hmid, hmade⟩ := hsome id rfl
    exact hmade.submit_spec env permits hmid hf

theorem requestIssue_spec : Yields Spins (base.requestIssue env hd type name .user)
      (Asked env permits hd base) := by
  have hspec := requestNew_submit_spec env permits h hcur hprobe type name
    (f := fun handle => handle) fun _ => ⟨rfl, rfl⟩
  simp only [modifyHandle_id] at hspec
  exact hspec

omit h hcur hprobe in
/-- The name of a search can be made while there are domains left. -/
theorem searchMakeNew_ok {n : Nat} (hn : n < state.domains.length)
    (name : Bytes) : ∃ name', searchMakeNew state n name = .ok name' := by
  rw [searchMakeNew]
  split
  · exact ⟨none, rfl⟩
  split
  · next hdrop =>
    have hlen := congrArg List.length hdrop
    rw [List.length_drop, List.length_nil] at hlen
    omega
  · exact ⟨_, rfl⟩

omit h hcur hprobe in
theorem searchFirstName_ok (hdomains : state.domains ≠ []) (name : Bytes) :
    ∃ name', searchFirstName state name = .ok name' := by
  rw [searchFirstName]
  split
  · exact ⟨_, rfl⟩
  · exact searchMakeNew_ok (List.length_pos_iff.mpr hdomains) name

theorem searchRequestNew_spec : Yields Spins (base.searchRequestNew env hd type name .user)
      (Asked env permits hd base) := by
  rw [searchRequestNew]
  split
  · exact requestIssue_spec env permits h hcur hprobe type name
  next state _ =>
  split
  · exact requestIssue_spec env permits h hcur hprobe type name
  next hdomains =>
  obtain ⟨name', hname⟩ := searchFirstName_ok hdomains name
  rw [hname]
  cases name' with
  | none => exact Asked.refused h (.refl base _)
  | some name' =>
    exact requestNew_submit_spec env permits h hcur hprobe type name' fun _ => ⟨rfl, rfl⟩

theorem resolveWith_spec (noSearch : Bool) :
    Yields Spins (base.resolveWith env hd type name noSearch) (Asked env permits hd base) := by
  rw [resolveWith]
  split
  · exact requestIssue_spec env permits h hcur hprobe type name
  · exact searchRequestNew_spec env permits h hcur hprobe type name

end NewHandle

variable (env permits)

/-- A lookup leaves the base at rest. -/
theorem evdnsBaseResolve_spec (h : base.Inv {}) (type : DnsType) (name : Bytes)
    (noSearch : Bool) :
    Yields Spins (base.evdnsBaseResolve env type name noSearch) (Rests env permits True base) := by
  have hlinks := links_newHandle base
  have h1 := h.newHandle
  have hcur1 : base.newHandle.1.links.current base.nextHandle = some (none, false) := by
    rw [hlinks]
    exact newHandle_current base
  have hprobe1 : ∀ ns, base.newHandle.1.links.probe ns ≠ some base.nextHandle := by
    intro ns
    exact h.newHandle_unknown ns List.not_mem_nil
  have hpath1 : Path env permits base {} base.newHandle.1 {} :=
    (Change.aside (.newHandle base) (.refl _)).path
  refine (resolveWith_spec env permits h1 hcur1 hprobe1 type name noSearch).bind ?_
  rintro base2 ⟨hout, hstepped⟩
  rcases hout with ⟨h2, id, hcur2⟩ | ⟨h2, hsame⟩
  · obtain ⟨handle, hhandle, hreq, -⟩ := exists_handle_of_current hcur2
    have hne : handle.currentReq ≠ none := by
      rw [hreq]
      exact Option.some_ne_none id
    rw [getHandle_eq hhandle, yields_ok_bind, if_neg hne]
    exact ⟨h2, hstepped.pumped, hpath1.trans hstepped.path⟩
  have hcur2 := hcur1
  rw [← hsame] at hcur2
  obtain ⟨handle, hhandle, hreq, -⟩ := exists_handle_of_current hcur2
  rw [getHandle_eq hhandle, yields_ok_bind, if_pos hreq]
  have hfreed : (base2.freeHandle base.nextHandle).Inv {} := by
    refine h2.freeHandle hcur2 (h2.links.not_scheduled hcur2) (fun ns _ => ?_) fun x hx hne => ?_
    · rw [hsame]
      exact hprobe1 ns
    · exact absurd (List.mem_singleton.mp hx) hne
  have hpath2 : Path env permits base2 {} (base2.freeHandle base.nextHandle) {} :=
    (Change.aside (.freeHandle base2 base.nextHandle) (.refl _)).path
  exact ⟨hfreed, hstepped.pumped, hpath1.trans (hstepped.path.trans hpath2)⟩

/-! ### Probes -/

/-- A request that is in no ring gets a nameserver and an id. -/
def assignReq (base : EvdnsBase) (id ns t : Nat) : EvdnsBase :=
  base.modifyReq id (assigned ns t)

theorem assignReq_frame (h : base.Inv { ctx with loose := [id] }) (hreq : base.req id = some req)
    (ns t : Nat) :
    (base.assignReq id ns t).Inv { ctx with loose := [id] } ∧
      (base.assignReq id ns t).links = base.links ∧
      (base.assignReq id ns t).req id = some (assigned ns t req) ∧
      ∀ x, x ≠ id → (base.assignReq id ns t).rings.place x = base.rings.place x := by
  have hlinks : (base.assignReq id ns t).links = base.links :=
    links_modifyReq_eq base id fun _ => ⟨rfl, rfl, rfl⟩
  have hrings : (base.assignReq id ns t).rings = base.rings.setPlace id (some (some ns, t)) :=
    rings_modifyReq_place base hreq rfl
  refine ⟨h.of_links ?_ hlinks h.goods rfl, hlinks, ?_, fun x hx => ?_⟩
  · rw [hrings]
    exact h.rings.setLoose
  · rw [assignReq, modifyReq, hreq]
    exact update_self ..
  · rw [hrings]
    exact update_of_ne hx _ _

/-- A probe gets its nameserver and its id, and is submitted. It does not wait. -/
theorem submitProbe_spec {t : Nat} (h : mid.Inv { hidden := [ns], loose := [id] })
    (hreq : mid.req id = some req) (hhd : req.handle = some hd) (hsent : req.sentTo = none)
    (hns : ns ∈ mid.servers) (hunused : mid.Unused t) (ht : t ≠ 0xffff)
    (hprobe : mid.links.probe ns = some hd) (hcur : mid.links.current hd = some (some id, false))
    (howner : mid.links.owner id = some (some hd, .probe ns, .a)) :
    Yields Spins ((mid.assignReq id ns t).requestSubmit env id) fun base' =>
      base'.Inv {} ∧ base'.reqWaitingHead = mid.reqWaitingHead ∧
        base'.globalRequestsInflight = mid.globalRequestsInflight + 1 ∧
        Path env permits mid { hidden := [ns], loose := [id] } base' {} := by
  have h0 : mid.Inv { ({ hidden := [ns] } : DnsCtx) with loose := [id] } := h
  obtain ⟨h1, hlinks1, hreq1, hplace1⟩ := assignReq_frame h0 hreq ns t
  have hpath1 : Change env permits mid { hidden := [ns], loose := [id] } (mid.assignReq id ns t)
      { hidden := [ns], loose := [id] } :=
    .assign h (List.mem_singleton_self id) (fun _ => .inl rfl) fun _ => ⟨rfl, rfl, rfl, nofun⟩
  have hunused1 : (mid.assignReq id ns t).Unused t := by
    intro x hx n hxplace
    have hne : x ≠ id := by
      rintro rfl
      exact (h.flying_of_mem hx).1 (List.mem_singleton_self x)
    exact hunused x hx n ((hplace1 x hne).symm.trans hxplace)
  refine (requestSubmit_spec env permits h1 ⟨rfl, rfl, rfl⟩ hreq1 hhd nofun hsent ?_).mono ?_
  · rintro n ⟨rfl⟩
    exact ⟨hns, ht, .inl hunused1⟩
  rintro base' ⟨h', hsubmit⟩
  have hlinks := hsubmit.links.trans hlinks1
  have hprobe' : base'.links.probe ns = some hd := by
    rw [hlinks]
    exact hprobe
  have hlinks' : base'.links.Ok {} := by
    rw [← hlinks] at hcur howner
    exact @DnsLinks.Ok.probing base'.links {} hd id ns [] .a h'.links hprobe' hcur howner
  have hunhide := @Change.unhide env permits base' _ {} ns rfl
      (.inr (.inr (Option.isSome_iff_exists.mpr ⟨hd, hprobe'⟩)))
  have hplaced := place_of_req hreq1 rfl
  rcases hsubmit.entered with ⟨hwaiting, hinflight, -⟩ | ⟨-, -, t', hplace'⟩
  · exact ⟨⟨h'.rings, hlinks', h'.goods, h'.targets⟩, hwaiting, hinflight,
      hpath1.path.trans (hsubmit.path.change hunhide)⟩
  · rw [hplaced] at hplace'
    cases hplace'

/-- The end of `nameserver_send_probe`, for a request that has been made. -/
theorem Made.probe_spec (hns : ns ∈ base.servers) (hmade : Made env permits { hidden := [ns], idle
      := [hd] } { hidden := [ns], loose := [id] } (some hd) (.probe ns, .a) id base mid)
    (hmid : mid.Inv { hidden := [ns], loose := [id] }) :
    Yields Spins (do
        let base := mid.modifyNs ns fun server => { server with probeRequest := some hd }
        let (base, transId) ← base.transactionIdPick env
        let base := base.requestTransIdSet id transId
        let base := base.modifyReq id fun req => { req with ns := some ns }
        base.requestSubmit env id) fun base' =>
      base'.Inv {} ∧ Stepped env permits True { hidden := [ns] } {} base base' := by
  obtain ⟨req, hreq, hsent⟩ := hmade.unsent
  have hserver : ns ∈ mid.servers := hmade.path.servers.mem_iff.mpr hns
  obtain ⟨howner, hcur⟩ := hmade.adopted
  have hhd : req.handle = some hd := by
    have howned := owner_of_req hreq rfl
    rw [howner] at howned
    simpa using congrArg (Option.map Prod.fst) howned.symm
  refine (transactionIdPick_spec env _).bind ?_
  rintro ⟨base2, t⟩ ⟨hbase2, ht⟩
  dsimp only at hbase2 ht ⊢
  have hassign :
      (base2.requestTransIdSet id t).modifyReq id (fun req => { req with ns := some ns }) =
      base2.assignReq id ns t := by
    simp only [requestTransIdSet, modifyReq, update_idem, update_self, Option.map_map]
    rfl
  rw [hassign]
  have hprobe : ProbeDetails fun server => { server with probeRequest := some hd } :=
    fun _ => ⟨rfl, rfl, rfl, rfl⟩
  have hrings : base2.rings = mid.rings := by
    have hrings1 := rings_modifyNs_eq mid ns fun server => (hprobe server).2.2.2
    rw [hbase2]
    exact hrings1
  have hlinks : base2.links = mid.links.setProbe ns (some hd) := by
    have hlinks1 := links_modifyNs mid ns fun server => { server with probeRequest := some hd }
    rw [hbase2]
    exact hlinks1
  have hgoods : base2.goods = mid.goods := by
    have hgoods1 := goods_modifyNs_eq mid ns fun server => (hprobe server).1
    rw [hbase2]
    exact hgoods1
  have h2 : base2.Inv { hidden := [ns], loose := [id] } := by
    refine ⟨hrings ▸ hmid.rings, ?_, hgoods ▸ hmid.goods, ?_⟩
    · rw [hlinks]
      exact hmid.links.setProbe (List.mem_singleton_self ns) _
    · rw [hlinks, hgoods]
      exact hmid.targets
  have hunused : base2.Unused t ∧ t ≠ 0xffff := by
    refine unused_of_idUnused h2.rings ?_
    rw [hbase2]
    exact ht
  have hpath : Path env permits mid { hidden := [ns], loose := [id] } base2
      { hidden := [ns], loose := [id] } := by
    rw [hbase2]
    exact (Change.hidden (List.mem_singleton_self ns) hprobe).path.change
      (.aside ⟨rfl, rfl, rfl, rfl, rfl, rfl, rfl⟩ (.refl _))
  have hreq2 : base2.req id = some req := by
    rw [hbase2]
    exact hreq
  have hself : base2.links.probe ns = some hd := by
    rw [hlinks]
    exact DnsLinks.setProbe_self ..
  have hstart : Change env permits base { hidden := [ns] } base { hidden := [ns], idle := [hd] } :=
    .aside (.refl base) ⟨rfl, rfl, rfl⟩
  refine (submitProbe_spec env permits h2 hreq2 hhd hsent ?_ hunused.1 hunused.2 hself ?_ ?_).mono
    ?_
  · rw [hbase2]
    exact hserver
  · rw [hlinks]
    exact hcur
  · rw [hlinks]
    exact howner
  rintro base' ⟨h', hwaiting', hinflight', hpath'⟩
  have hpath3 := hstart.path.trans (hmade.path.trans (hpath.trans hpath'))
  refine ⟨h', fun _ hpumped _ => ?_, hpath3⟩
  -- the probe goes past the maximum if need be, and nothing else moves
  have hwaiting : base'.reqWaitingHead = base.reqWaitingHead :=
    hwaiting'.trans ((congrArg DnsRings.waiting hrings).trans hmade.waiting)
  have hinflight : base2.globalRequestsInflight = base.globalRequestsInflight :=
    (congrArg DnsRings.inflight hrings).trans hmade.inflight
  rw [hwaiting, hpath3.max]
  rcases hpumped (List.ne_nil_of_mem hns) with hempty | hle
  · exact .inl hempty
  · exact .inr (by omega)

/-- The timer of a nameserver that is down has gone off. -/
theorem nameserverSendProbe_spec (h : base.Inv {}) (hns : ns ∈ base.servers) :
    Yields Spins ((base.clearTimer ns).nameserverSendProbe env ns)
      (Rests env permits True base) := by
  obtain ⟨h1, hframe1⟩ := clearTimer_frame h ns
  have hns1 : ns ∈ (base.clearTimer ns).servers := hns
  have hlinks := links_newHandle (base.clearTimer ns)
  have hhide : Change env permits base {} base { hidden := [ns] } := .hide ns
  have hclear := clearTimer_change env permits base {} ns
  have hnew : Change env permits (base.clearTimer ns) { hidden := [ns] }
      (base.clearTimer ns).newHandle.1 { hidden := [ns] } :=
    .aside (.newHandle _) (.refl _)
  refine h1.getNameserver_bind hns1 ?_
  have h2 := (h1.hide ns).newHandle
  have hadopt : ∀ x, some (base.clearTimer ns).nextHandle = some x →
      Adoptable (base.clearTimer ns).newHandle.1
        { hidden := [ns], idle := [(base.clearTimer ns).nextHandle] } (.probe ns) x := by
    rintro x ⟨rfl⟩
    refine ⟨?_, fun n _ hn => ?_, fun hsearch => ?_⟩
    · rw [hlinks]
      exact newHandle_current _
    · exact absurd hn (h1.newHandle_unknown n List.not_mem_nil)
    · rw [hlinks] at hsearch
      cases (update_self ..).symm.trans hsearch
  have hidle : ∀ x ∈ [(base.clearTimer ns).nextHandle],
      some (base.clearTimer ns).nextHandle ≠ some x → x ∈ ([] : List Nat) := by
    intro x hx hne
    exact absurd (congrArg some (List.mem_singleton.mp hx).symm) hne
  refine (requestNew_spec env permits h2 ⟨rfl, rfl, rfl⟩ hadopt ?_ hidle).bind ?_
  · rintro n ⟨rfl⟩
    exact h.goods.known ns hns
  rintro ⟨mid, made⟩ ⟨hsome, -, hmade⟩
  cases made with
  | none =>
    cases hsome
  | some id =>
    obtain ⟨hmid, hmade⟩ := hmade id rfl
    have hns2 : ns ∈ (base.clearTimer ns).newHandle.1.servers := hns
    refine (hmade.probe_spec env permits hns2 hmid).mono ?_
    rintro base' ⟨h', hstepped⟩
    refine ⟨h', fun hroom hpumped => ?_, ?_⟩
    · exact hstepped.pumped hroom (hframe1.pumped hpumped)
    · exact hhide.path.trans (hclear.path.trans (hnew.path.trans hstepped.path))

end EvdnsBase

end Libevent
