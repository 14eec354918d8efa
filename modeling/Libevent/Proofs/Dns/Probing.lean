import Libevent.Proofs.Dns.Bookkeeping

/-!
# `Libevent.Proofs.Dns.Probing`: a nameserver that is down is going to be probed

`nameserver_failed` and `nameserver_probe_failed` start the timer of a nameserver that is down, and
the timer's callback sends a probe. So in every state such a nameserver should have its timer
pending, or a probe that has not been answered (`dnsRun_probed`).

With `disable_when_inactive` this fails (`requestFinished_timer_deleted`): `request_finished`
deletes the timer of a nameserver along with the event of its socket when the nameserver's last
request ends. When two requests time out, the first marks the nameserver as down and starts the
timer, and the end of the second deletes it. `nameserver_failed` does nothing for a nameserver that
is down already, and it is never probed.
-/

namespace Libevent

open Lib

namespace EvdnsBase

variable {base base' : EvdnsBase} {env : DnsEnv} {permits : DnsPermits} {ctx ctx' : DnsCtx}

/-- The nameserver is up, its timer is pending, or it has a probe. -/
def Nameserver.Tended (server : Nameserver) : Prop :=
  server.state = true ∨ server.timer = true ∨ server.probeRequest.isSome

/-- The nameservers that are down are going to be probed, and a probe does not wait: it is in flight
or about to be. -/
structure Attended (base : EvdnsBase) (ctx : DnsCtx) : Prop where
  active : base.disableWhenInactive = false
  tended : ∀ ns ∈ base.servers, ns ∉ ctx.hidden → Nameserver.Tended (base.nameserver ns)
  aloft : ∀ id req ns, base.req id = some req → req.userCallback = .probe ns →
    id ∈ ctx.loose ∨ req.ns.isSome

/-! ### The pieces -/

section
variable (h : Attended base ctx) {req : DnsRequest}
include h

theorem Attended.congr (hactive : base'.disableWhenInactive = base.disableWhenInactive)
    (hservers : ∀ ns ∈ base'.servers, ns ∈ base.servers) (hns : base'.nameserver = base.nameserver)
    (hreq : base'.req = base.req) (hctx : SameMarks ctx ctx') : Attended base' ctx' where
  active := hactive.trans h.active
  tended := by
    intro ns hmem hhidden
    rw [hns]
    exact h.tended ns (hservers ns hmem) (hctx.hidden ▸ hhidden)
  aloft := by
    intro id req ns hid hcallback
    rw [hreq] at hid
    rw [hctx.loose]
    exact h.aloft id req ns hid hcallback

/-- A change of one nameserver, after which it is tended if it was. -/
theorem Attended.modifyNs (ns : Nat) {f : Nameserver → Nameserver} (hf : ns ∉ ctx.hidden →
      Nameserver.Tended (base.nameserver ns) → Nameserver.Tended (f (base.nameserver ns))) :
    Attended (base.modifyNs ns f) ctx where
  active := h.active
  tended := by
    intro x hx hhidden
    by_cases hxn : x = ns
    · subst hxn
      rw [modifyNs_self]
      exact hf hhidden (h.tended x hx hhidden)
    · rw [modifyNs_other base hxn]
      exact h.tended x hx hhidden
  aloft := h.aloft

/-- A change of one request that leaves its callback and does not take its nameserver. -/
theorem Attended.modifyReq (id : Nat) {f : DnsRequest → DnsRequest}
    (hf : ∀ req, (f req).userCallback = req.userCallback ∧ (req.ns.isSome → (f req).ns.isSome)) :
    Attended (base.modifyReq id f) ctx where
  active := h.active
  tended := h.tended
  aloft := by
    intro x req ns hreq hcallback
    rcases modifyReq_cases hreq with ⟨rfl, old, hold, rfl⟩ | ⟨-, hold⟩
    · rw [(hf old).1] at hcallback
      exact (h.aloft x old ns hold hcallback).imp_right (hf old).2
    · exact h.aloft x req ns hold hcallback

theorem Attended.swapNs (id old ns : Nat) : Attended (base.swapNs id old ns) ctx := by
  have hold := h.modifyNs old (f := Nameserver.less) fun _ htended => htended
  have hnew := hold.modifyNs ns (f := Nameserver.more) fun _ htended => htended
  exact hnew.modifyReq _ fun _ => ⟨rfl, fun _ => rfl⟩

theorem Attended.startSend (ns : Nat) : Attended (base.startSend ns) ctx := by
  have hevent := h.modifyNs ns (f := base.startEvent) fun _ htended => htended
  exact hevent.congr rfl (fun _ hns => hns) rfl rfl (.refl _)

theorem Attended.nameserverWriteWaiting (ns : Nat) (waiting : Bool) :
    Attended (base.nameserverWriteWaiting ns waiting) ctx := by
  rw [EvdnsBase.nameserverWriteWaiting]
  split
  · exact h
  · exact h.modifyNs ns fun _ htended => htended

theorem Attended.launchReq (id ns t : Nat) : Attended (base.launchReq id ns t) ctx := by
  have hload := h.modifyNs ns (f := Nameserver.more) fun _ htended => htended
  exact hload.congr rfl (fun _ hns => hns) rfl rfl (.refl _)

/-- A request that is made is in no ring. -/
theorem Attended.newReq (hloose : ctx'.loose = base.nextReq :: ctx.loose)
    (hhidden : ctx'.hidden = ctx.hidden) : Attended (base.newReq req).1 ctx' where
  active := by
    rw [EvdnsBase.newReq]
    split <;> exact h.active
  tended := by
    intro ns hns hnot
    rw [hhidden] at hnot
    rw [EvdnsBase.newReq] at hns ⊢
    split at hns <;> exact h.tended ns hns hnot
  aloft := by
    intro x r ns hx hcallback
    rw [hloose]
    rcases newReq_cases hx with ⟨rfl, -⟩ | ⟨-, hold⟩
    · exact .inl List.mem_cons_self
    · exact (h.aloft x r ns hold hcallback).imp_left (List.mem_cons_of_mem _)

/-- Which request is about to be sent does not matter. -/
theorem Attended.marks (hloose : ctx'.loose = ctx.loose) (hhidden : ctx'.hidden = ctx.hidden) :
    Attended base ctx' where
  active := h.active
  tended := fun ns hns hnot => h.tended ns hns (hhidden ▸ hnot)
  aloft := hloose ▸ h.aloft

/-- A request that is in no ring enters one. A probe has its nameserver then. -/
theorem Attended.enter {id : Nat} (hreq : base.req id = some req)
    (hid : ∀ ns, req.userCallback = .probe ns → req.ns.isSome)
    (hloose : ctx.loose = id :: ctx'.loose) (hhidden : ctx'.hidden = ctx.hidden) :
    Attended base ctx' where
  active := h.active
  tended := fun ns hns hnot => h.tended ns hns (hhidden ▸ hnot)
  aloft := by
    intro x r ns hx hcallback
    by_cases hxid : x = id
    · subst hxid
      cases hreq.symm.trans hx
      exact .inr (hid ns hcallback)
    · refine (h.aloft x r ns hx hcallback).imp_left fun hmem => ?_
      rw [hloose] at hmem
      exact List.mem_of_ne_of_mem hxid hmem

/-- A request ends. The timers are left alone. -/
theorem Attended.unlink {id : Nat} (hunlinked : Unlinked id base base')
    (hctx : SameMarks ctx ctx') :
    Attended base' ctx' where
  active := hunlinked.disableWhenInactive.trans h.active
  tended := by
    intro ns hns hhidden
    have hsame : (base'.nameserver ns).timer = (base.nameserver ns).timer := by
      rcases hunlinked.events ns with hsame | ⟨hinactive, -⟩
      · exact hsame.2
      · cases h.active.symm.trans hinactive
    rw [hunlinked.servers] at hns
    have htended := h.tended ns hns (hctx.hidden ▸ hhidden)
    rw [Nameserver.Tended, hunlinked.state, hsame, hunlinked.probe]
    exact htended
  aloft := by
    intro x req ns hreq hcallback
    rw [hctx.loose]
    exact h.aloft x req ns (hunlinked.live hreq) hcallback

end

/-! ### Changes -/

/-- After each change, the nameservers that are down are still going to be probed. -/
theorem Change.attended (hchange : Change env permits base ctx base' ctx') (h : Attended base ctx) :
    Attended base' ctx' := by
  cases hchange with
  | rotate hperm => exact h.congr rfl (fun _ => hperm.mem_iff.mp) rfl rfl (.refl _)
  | aside haside hctx =>
    exact h.congr haside.disableWhenInactive (fun _ hns => haside.servers ▸ hns)
      haside.nameserver haside.req hctx
  | reqDetails id hf =>
    exact h.modifyReq _ fun req => ⟨(hf req).2.2.2.1, fun hns => (hf req).1 ▸ hns⟩
  | nsDetails ns hf =>
    refine h.modifyNs ns fun _ htended => ?_
    obtain ⟨hstate, htimer, hprobe, -⟩ := hf (base.nameserver ns)
    rw [Nameserver.Tended, hstate, htimer, hprobe]
    exact htended
  | down ns =>
    -- its timer is started
    have hdown := h.modifyNs ns (f := fun server =>
      { server with state := false, failedTimes := 1, timer := true }) fun _ _ => .inr (.inl rfl)
    exact hdown.congr rfl (fun _ hns => hns) rfl rfl (.refl _)
  | reassign | retry => exact h.swapNs _ _ _
  | @sent id ns =>
    have htried := (h.startSend ns).modifyReq id (f := fun req =>
      { req with timer := true, txCount := req.txCount + 1, transmitMe := false })
      fun _ => ⟨rfl, fun hns => hns⟩
    have hsent : Attended ((base.startSend ns).noteSent id ns) ctx :=
      htried.modifyReq id fun _ => ⟨rfl, fun hns => hns⟩
    exact hsent.marks rfl rfl
  | @choke id ns =>
    have hchoked := (h.startSend ns).modifyNs ns (f := fun server => { server with choked := true })
      fun _ htended => htended
    exact (hchoked.nameserverWriteWaiting ns true).marks rfl rfl
  | @fail id ns => exact (h.startSend ns).marks rfl rfl
  | skip | due => exact h.marks rfl rfl
  | @move id ns t =>
    have hplaced := h.modifyReq id (f := assigned ns t) fun _ => ⟨rfl, fun _ => rfl⟩
    have hmoved : Attended (base.moveReq id ns t) ctx :=
      (hplaced.launchReq id ns t).congr rfl (fun _ hns => hns) rfl rfl (.refl _)
    exact hmoved.marks rfl rfl
  | unlink hunlinked hctx => exact h.unlink hunlinked hctx
  | hide ns =>
    exact ⟨h.active, fun x hx hnot => h.tended x hx fun hmem => hnot (List.mem_cons_of_mem _ hmem),
      h.aloft⟩
  | hidden hns => exact h.modifyNs _ fun hnot => absurd hns hnot
  | @unhide ctx ns hctx hns =>
    subst hctx
    refine ⟨h.active, fun x hx hnot => ?_, h.aloft⟩
    by_cases hxn : x = ns
    · exact hxn ▸ hns
    · exact h.tended x hx fun hmem => hnot (List.mem_of_ne_of_mem hxn hmem)
  | @raise ns =>
    have hraised := h.modifyNs ns (f := fun server =>
      { server with state := true, failedTimes := 0, timedout := 0 }) fun _ _ => .inl rfl
    exact hraised.congr rfl (fun _ hns => hns) rfl rfl (.refl _)
  | make hinv hpacket hsent hloose hhidden => exact h.newReq hloose hhidden
  | assign hinv hid hpacket hf =>
    refine h.modifyReq _ fun req => ⟨(hf req).1, fun hns => ?_⟩
    rw [Option.isSome_iff_ne_none] at hns ⊢
    exact fun hnone => hns ((hf req).2.2.2 hnone)
  | @launch _ id ns t req hinv hloose hreq hplace hnew ht hhidden =>
    refine Attended.enter (h.launchReq id ns t) hreq (fun _ _ => ?_) hloose hhidden
    rw [hplace.1]
    rfl
  | enqueue haside hreq huser hloose hhidden =>
    -- a probe never waits
    have hentered := h.enter hreq (fun _ hprobe => by cases huser.symm.trans hprobe) hloose hhidden
    exact hentered.congr haside.disableWhenInactive (fun _ hns => haside.servers ▸ hns)
      haside.nameserver haside.req (.refl _)
  | reissue _ _ _ _ hf =>
    exact (h.swapNs _ _ _).modifyReq _ fun req => ⟨(hf req).2.2.2, fun hns => (hf req).1 ▸ hns⟩
  | unchoke => exact h.modifyNs _ fun _ htended => htended
  | writeWaiting ns waiting => exact h.nameserverWriteWaiting ns waiting

/-! ### Runs -/

/-- The nameserver's probe has not been answered: its request is in flight, or its callback is
scheduled. -/
def ProbeOutstanding (base : EvdnsBase) (ns : Nat) : Prop :=
  ∃ h, (base.nameserver ns).probeRequest = some h ∧
    ((∃ id ∈ base.reqHeads.flatten, ∃ req, base.req id = some req ∧ req.handle = some h ∧
        req.userCallback = .probe ns) ∨
      ∃ d ∈ base.deferred, d.handle = some h ∧ d.callback = .probe ns)

/-- The nameserver that is down is going to be probed. -/
theorem Attended.probed (h : Attended base {}) (hinv : base.Inv {}) {ns : Nat}
    (hns : ns ∈ base.servers) (hdown : (base.nameserver ns).state = false) :
    (base.nameserver ns).timer = true ∨ base.ProbeOutstanding ns := by
  rcases h.tended ns hns List.not_mem_nil with hup | htimer | hprobe
  · cases hdown.symm.trans hup
  · exact .inl htimer
  obtain ⟨hd, hhd⟩ := Option.isSome_iff_exists.mp hprobe
  refine .inr ⟨hd, hhd, ?_⟩
  obtain ⟨halive, hrequest, hscheduled⟩ := hinv.links.probe ns List.not_mem_nil hd hhd
  obtain ⟨⟨cur, pending⟩, hcur⟩ := Option.ne_none_iff_exists'.mp halive
  cases cur with
  | some id =>
    -- its request is allocated, and it does not wait
    obtain ⟨c, howner⟩ := hinv.links.back hd id pending hcur
    obtain ⟨hd', type, howner'⟩ := hrequest id pending hcur
    rw [howner] at howner'
    obtain ⟨req, hreq, hhandle, hcallback⟩ := exists_req_of_owner howner
    have huser : req.userCallback = .probe ns := by
      cases howner'
      exact congrArg Prod.fst hcallback
    obtain ⟨n, hn⟩ := Option.isSome_iff_exists.mp
      ((h.aloft id req ns hreq huser).resolve_left List.not_mem_nil)
    have hplace := place_of_req hreq hn
    obtain ⟨ids, hids, hmem, -⟩ := hinv.rings.mem_head hplace List.not_mem_nil
    exact .inl ⟨id, mem_flatten_iff_getElem?.mpr ⟨_, ids, hids, hmem⟩, req, hreq, hhandle, huser⟩
  | none =>
    have hpending : pending = true := by
      cases pending with
      | true => rfl
      | false => exact absurd (hinv.links.idle hd hcur) List.not_mem_nil
    subst hpending
    have hmem := (hinv.links.waits hd none hcur).resolve_right List.not_mem_nil
    obtain ⟨d, hd', hhandle⟩ := List.mem_filterMap.mp hmem
    exact .inr ⟨d, hd', hhandle, (hscheduled d hd' hhandle).1⟩

theorem Attended.nameserverAdd (h : Attended base {}) : Attended base.evdnsNameserverAdd {} where
  active := h.active
  tended := by
    intro x hx hnot
    by_cases hxn : x = base.nextNs
    · subst hxn
      rw [nameserverAdd_self]
      exact .inl rfl
    have hmem : x ∈ base.servers := by
      rw [evdnsNameserverAdd] at hx
      cases hservers : base.servers with
      | nil => simp_all
      | cons head rest => simp_all
    rw [nameserverAdd_other base hxn]
    exact h.tended x hmem hnot
  aloft := h.aloft

theorem attended_new (options : DnsOptions) (hoptions : options.disableWhenInactive = false) :
    Attended (evdnsBaseNew options) {} := by
  have hadded := iterate_nameserverAdd (P := (Attended · {})) (fun _ h => h.nameserverAdd)
    options.nameservers
  have hempty : ∀ base : EvdnsBase, base.disableWhenInactive = false → base.servers = [] →
      (base.req = fun _ => none) → Attended base {} := by
    intro base hactive hservers hreq
    refine ⟨hactive, fun ns hns => ?_, fun id req ns hid => ?_⟩
    · rw [hservers] at hns
      cases hns
    · rw [hreq] at hid
      cases hid
  refine ⟨hoptions, (hadded _ ?_).tended, (hadded _ ?_).aloft⟩
  · exact hempty _ rfl rfl rfl
  · exact hempty _ rfl rfl rfl

theorem Attended.step {action : DnsAction} (hintact : base.Intact) (h : Attended base {})
    (haction : action ≠ .suspend) :
    Yields (· = .spins) (dnsStep env base action) fun base' =>
      base'.Intact ∧ Attended base' {} := by
  refine hintact.preserves haction (allows_all base action) Change.attended (fun _ h => h) ?_ ?_ h
  · exact fun h => h.nameserverAdd
  · exact fun _ _ _ h => h.congr rfl (fun _ hns => hns) rfl rfl (.refl _)

end EvdnsBase

/-- In every run of a base without `disable_when_inactive` that frees no nameserver, a nameserver
that is down has its timer pending or a probe outstanding. -/
theorem dnsRun_probed (env : DnsEnv) {options : EvdnsBase.DnsOptions}
    (hoptions : options.disableWhenInactive = false) {actions : List DnsAction}
    (hactions : DnsAction.suspend ∉ actions) :
    Yields (· = .spins) (run (dnsStep env) (EvdnsBase.evdnsBaseNew options) actions) fun base =>
      ∀ ns ∈ base.servers, (base.nameserver ns).state = false →
        (base.nameserver ns).timer = true ∨ base.ProbeOutstanding ns := by
  have hmeets : Meets (dnsStep env) (fun _ action => action ≠ .suspend)
      (EvdnsBase.evdnsBaseNew options) actions := by
    refine meets_of_forall _ fun action haction => ?_
    rintro rfl
    exact hactions haction
  refine (Yields.run (I := fun base => base.Intact ∧ base.Attended {})
    (fun base action h haction => ?_)
    ⟨EvdnsBase.intact_new options, EvdnsBase.attended_new options hoptions⟩ hmeets).mono ?_
  · exact h.2.step h.1 haction
  · exact fun base h ns hns hdown => h.2.probed h.1.inv hns hdown

/-- Two requests time out at the only nameserver, and it is probed. -/
theorem dnsRun_probed_two_timeouts :
    let env := steadyEnv
    let actions : List DnsAction := [.resolve .a [120] true, .resolve .a [121] true, .timeout 0,
      .timeout 1, .probe 0]
    DnsAction.suspend ∉ actions ∧ ((run (dnsStep env) (EvdnsBase.evdnsBaseNew
          { nameservers := 1, globalMaxRetransmits := 1 }) actions).toOption.map fun base =>
        ((base.nameserver 0).state, (base.nameserver 0).timer, (base.nameserver 0).probeRequest)) =
        some (false, false, some 2) ∧
      Yields (· = .spins) (run (dnsStep env) (EvdnsBase.evdnsBaseNew
          { nameservers := 1, globalMaxRetransmits := 1 }) actions) fun base =>
        ∀ ns ∈ base.servers, (base.nameserver ns).state = false →
          (base.nameserver ns).timer = true ∨ base.ProbeOutstanding ns := by
  refine ⟨by decide, rfl, ?_⟩
  exact dnsRun_probed _ rfl (by decide)

/-- With `disable_when_inactive`, the end of the second request deletes the timer that the first has
started. -/
theorem requestFinished_timer_deleted :
    let env := steadyEnv
    let options : EvdnsBase.DnsOptions :=
      { nameservers := 1, globalMaxRetransmits := 1, disableWhenInactive := true }
    let actions : List DnsAction := [.resolve .a [120] true, .resolve .a [121] true, .timeout 0,
      .timeout 1]
    ((run (dnsStep env) (EvdnsBase.evdnsBaseNew options) actions).toOption.map fun base =>
      (base.servers, (base.nameserver 0).state, (base.nameserver 0).timer,
        (base.nameserver 0).probeRequest)) = some ([0], false, false, none) := rfl

end Libevent
