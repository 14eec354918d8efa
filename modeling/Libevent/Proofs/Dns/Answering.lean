import Libevent.Proofs.Dns.Searching

/-!
# `Libevent.Proofs.Dns.Answering`: timeouts, replies and the callbacks of probes

One specification for each handler (`replyHandle_spec`, `evdnsRequestTimeoutCallback_spec`,
`replyRunCallback_spec`), for a base between two operations. A reply ends its request,
moves it to another nameserver, or goes on to the next name of a search. `ReplyRoom` says when that
last case leaves no request waiting that could be sent.
-/

namespace Libevent

open Lib

namespace EvdnsBase

variable {base base' mid : EvdnsBase} {ctx ctx' : DnsCtx} {env : DnsEnv} {permits : DnsPermits}
  {id hd : Nat} {req : DnsRequest} {ns : Nat} {error : DnsErr} {flags : Nat}
  {reply : Option DnsReply} {d : DeferredReply}

/-! ### The end of a request -/

/-- A request in flight, with what its handlers read of it. -/
theorem Inv.request (h : base.Inv {}) (hid : base.Flying [] id) :
    ∃ req hd ns, base.req id = some req ∧ req.handle = some hd ∧ req.ns = some ns ∧
      ns ∈ base.servers := by
  obtain ⟨hloose, ns, t, hplace⟩ := hid
  obtain ⟨req, hreq, hns, -⟩ := exists_req_of_place hplace
  obtain ⟨hd, hhd⟩ := h.owner hreq hloose
  exact ⟨req, hd, ns, hreq, hhd, hns, (h.fliesTo hloose hplace).server⟩

theorem flying_of_req (hreq : base.req id = some req)
    (hns : req.ns = some ns) : base.Flying [] id :=
  ⟨List.not_mem_nil, ns, req.transId, by rw [place_of_req hreq rfl, hns]⟩

variable (env permits)

theorem closeRequest_spec (h : base.Inv {}) (hreq : base.req id = some req)
    (hhd : req.handle = some hd) (hflying : req.ns.isSome) {err : DnsErr} (herr : err ≠ .cancel) :
    Yields Spins (base.closeRequest env id req.transId err) fun base' =>
      base'.Inv {} ∧
        Closed env permits {} id hd (req.userCallback, req.requestType) err base base' := by
  obtain ⟨mid, hmid, hs, hinv⟩ := h.schedule hreq hhd List.not_mem_nil
    fun hcancel : err = .cancel => absurd hcancel herr
  rw [closeRequest, hmid]
  refine hs.finish_spec env permits hinv rfl hreq hhd List.not_mem_nil ?_
  rw [ringOf, if_pos hflying]

/-! ### Timeouts -/

/-- `request_swap_ns` for a request that is about to be sent again. -/
theorem retry_spec {ctx : DnsCtx} (h : base.Inv ctx) (hfresh : ctx.fresh = some id)
    (hid : base.Flying ctx.loose id) {picked : Option Nat}
    (hpicked : ∀ ns, picked = some ns → ns ∈ base.servers) :
    Yields ctx.Tolerates (base.requestSwapNs id picked) (Kept env permits ctx base) := by
  refine (requestSwapNs_spec h hid hpicked).mono ?_
  rintro base' (rfl | ⟨old, ns, hflies, hne, hns, rfl⟩)
  · exact ⟨h, .refl _ _⟩
  · obtain ⟨h', hframe⟩ := swapNs_frame hflies hid.1 hne hns
    exact ⟨h', hframe, (Change.retry hflies hfresh).path⟩

/-- A nameserver counts its failures. -/
theorem Inv.nsDetails (h : base.Inv ctx) (ns : Nat) {f : Nameserver → Nameserver}
    (hf : NsDetails f) : (base.modifyNs ns f).Inv ctx ∧
      Keeps env permits 0 base ctx (base.modifyNs ns f) ctx := by
  obtain ⟨h', hframe⟩ := h.touchNs ns fun server =>
    ⟨(hf server).2.2.2.2.2, (hf server).2.2.1, (hf server).1⟩
  exact ⟨h', hframe, (Change.nsDetails ns hf).path⟩

section
variable (h : base.Inv {}) (hid : base.Flying [] id)
include h hid

/-- The nameserver of a request that has timed out is blamed. -/
theorem blame_spec : Yields Spins (do
        let req ← base.getReq id
        let ns ← getNs req
        let server ← base.getNameserver ns
        if base.globalMaxNameserverTimeout < server.timedout + 1 then
          let base := base.modifyNs ns fun server => { server with timedout := 0 }
          base.nameserverFailed ns
        else pure (base.modifyNs ns fun server => { server with timedout := server.timedout + 1 }))
      (Kept env permits {} base) := by
  obtain ⟨req, hd, ns, hreq, -, hns, hserver⟩ := h.request hid
  have hgetNs : getNs req = .ok ns := by rw [getNs, hns]
  rw [getReq_eq hreq, yields_ok_bind, hgetNs]
  refine h.getNameserver_bind hserver ?_
  split
  · obtain ⟨h1, hkeeps1⟩ := h.nsDetails env permits ns
      (f := fun server => { server with timedout := 0 }) fun _ => ⟨rfl, rfl, rfl, rfl, rfl, rfl⟩
    refine (nameserverFailed_spec env permits h1 hserver).mono ?_
    rintro base' ⟨h', hkeeps'⟩
    exact ⟨h', hkeeps1.trans hkeeps' rfl⟩
  · exact h.nsDetails env permits ns fun _ => ⟨rfl, rfl, rfl, rfl, rfl, rfl⟩

/-- A request that timed out is sent again, or ends. -/
theorem evdnsRequestTimeoutCallback_spec : Yields Spins (base.evdnsRequestTimeoutCallback env id)
      (Rests env permits True base) := by
  obtain ⟨req, hd, ns, hreq, hhd, hns, hserver⟩ := h.request hid
  have hgetNs : getNs req = .ok ns := by rw [getNs, hns]
  rw [evdnsRequestTimeoutCallback, getReq_eq hreq, yields_ok_bind]
  split
  · -- it has been sent often enough
    rw [hgetNs]
    have herr : DnsErr.timeout ≠ .cancel := by decide
    refine (closeRequest_spec env permits h hreq hhd (by rw [hns]; rfl) herr).bind ?_
    rintro base1 ⟨h1, hclosed⟩
    refine (nameserverFailed_spec env permits h1 (hclosed.path.servers.mem_iff.mpr hserver)).mono ?_
    rintro base2 ⟨h2, hkeeps2⟩
    exact ⟨h2, (hclosed.stepped.trans hkeeps2.stepped).room fun _ => ⟨trivial, trivial⟩⟩
  -- it is sent again, perhaps to another nameserver
  have hdetails : ReqDetails fun req => { req with timer := false, sentTo := none } :=
    fun _ => ⟨rfl, rfl, rfl, rfl, Nat.le_refl _, .inr rfl⟩
  have hreq1 := modifyReq_self hreq fun req => { req with timer := false, sentTo := none }
  obtain ⟨h1, hframe1⟩ := h.touchReq hreq
    (f := fun req => { req with timer := false, sentTo := none }) ⟨rfl, rfl⟩
    (fun _ => ⟨rfl, rfl, rfl⟩) (by rintro ⟨⟩)
  have hid1 := hid.keep hframe1
  have hdue := @Change.due env permits _ {} id _ hreq1 rfl rfl
  have hkeeps1 : Keeps env permits 0 base {} (base.modifyReq id fun req =>
      { req with timer := false, sentTo := none }) { fresh := some id } :=
    ⟨hframe1, (Change.reqDetails id hdetails).path.change hdue⟩
  have h1' := h1.marks (some id)
  refine (nameserverPick_spec h1').bind ?_
  rintro ⟨base2, picked⟩ hpick
  obtain ⟨h2, hkeeps2⟩ := hpick.keeps env permits h1'
  have hid2 := hid1.keep hkeeps2.toFrame
  refine (retry_spec env permits h2 rfl hid2 hpick.mem).bind ?_
  rintro base3 ⟨h3, hkeeps3⟩
  have hid3 := hid2.keep hkeeps3.toFrame
  refine (evdnsRequestTransmit_due env permits h3 hid3 (.inr rfl)).bind ?_
  rintro base4 ⟨h4, hkeeps4⟩
  have hid4 := hid3.keep hkeeps4.toFrame
  refine (blame_spec env permits h4 hid4).mono ?_
  rintro base5 ⟨h5, hkeeps5⟩
  have hkeeps :=
    ((hkeeps1.trans hkeeps2 rfl).trans hkeeps3 rfl).trans (hkeeps4.trans hkeeps5 rfl) rfl
  exact ⟨h5, hkeeps.stepped⟩

/-! ### Another nameserver -/

/-- `request_reissue` gives the request another nameserver, if there is one. -/
theorem requestReissue_spec (hreissue : permits.reissue) :
    Yields Spins (base.requestReissue id) fun p =>
      p.1.Inv {} ∧ Keeps env permits 0 base {} p.1 {} := by
  obtain ⟨req, hd, ns, hreq, hhd, hns, hserver⟩ := h.request hid
  rw [requestReissue, h.assertValid hid, getReq_eq hreq]
  refine (nameserverPick_spec h).bind ?_
  rintro ⟨base1, picked⟩ hpick
  obtain ⟨h1, hkeeps1⟩ := hpick.keeps env permits h
  have hid1 := hid.keep hkeeps1.toFrame
  have hreq1 : base1.req id = some req := by
    obtain ⟨servers, rfl, -⟩ := hpick.rotated
    exact hreq
  refine (requestSwapNs_spec h1 hid1 hpick.mem).bind ?_
  rintro base2 (rfl | ⟨old, new, hflies, hne, hnew, rfl⟩)
  · -- there is no other nameserver
    rw [getReq_eq hreq1, yields_ok_bind, if_pos rfl]
    exact ⟨h1, hkeeps1⟩
  obtain ⟨h2, hframe2⟩ := swapNs_frame hflies hid1.1 hne hnew
  have hreq2 : (base1.swapNs id old new).req id = some { req with ns := some new } :=
    modifyReq_self hreq1 _
  have hold : req.ns = some old := by
    obtain ⟨t, hplace⟩ := hflies.place
    rw [place_of_req hreq1 rfl] at hplace
    simpa using congrArg (Option.map Prod.fst) hplace
  have hmoved : ¬ some new = req.ns := by
    rw [hold]
    exact fun heq => hne (Option.some.inj heq).symm
  rw [getReq_eq hreq2, yields_ok_bind, if_neg hmoved]
  obtain ⟨h3, hframe3⟩ := h2.touchReq hreq2 (f := fun req =>
    { req with
      reissueCount := req.reissueCount + 1
      txCount := 0
      transmitMe := true
      sentTo := none }) ⟨rfl, rfl⟩ (fun _ => ⟨rfl, rfl, rfl⟩) .inl
  refine ⟨h3, hkeeps1.toFrame.trans (hframe2.trans hframe3), hkeeps1.path.change ?_⟩
  exact .reissue hreissue hflies hne hnew fun _ => ⟨rfl, rfl, rfl, rfl⟩

end

/-! ### Replies -/

/-- A reply to the request brings its nameserver up, and that ends a probe of the nameserver which
is not the request itself. -/
def replyCancels (base : EvdnsBase) (req : DnsRequest) (ns : Nat) : Bool :=
  decide (req.handle ≠ (base.nameserver ns).probeRequest) && base.upCancels ns

/-- From `base` to `base'`, the nameserver `ns` of the request `id` has come up. -/
structure Credited (env : DnsEnv) (permits : DnsPermits) (ctx : DnsCtx) (id hd : Nat)
    (cancels : Bool) (base base' : EvdnsBase) : Prop where
  spares : Spares id hd base base'
  total : base'.total = base.total - (if cancels then 1 else 0)
  stepped : Stepped env permits True ctx ctx base base'

section
variable (h : base.Inv ctx) (hfresh : ctx.fresh = none) (hloose : ctx.loose = [])
  (hhidden : ctx.hidden = [])
include h hfresh hloose hhidden

theorem nameserverUp_credited {c : DnsCallback × DnsType}
    (howner : base.links.owner id = some (some hd, c)) (hns : ns ∈ base.servers)
    (hprobe : base.links.probe ns ≠ some hd) (hraise : permits.raise ns) :
    Yields ctx.Tolerates (base.nameserverUp env ns) fun base' =>
      base'.Inv ctx ∧ Spares id hd base base' ∧ Raised env permits ctx ns base base' := by
  have hvisible : ns ∉ ctx.hidden := by
    rw [hhidden]
    exact List.not_mem_nil
  refine (nameserverUp_spec env permits h hfresh hloose hvisible hns fun _ => hraise).mono ?_
  rintro base' ⟨h', hraised⟩
  exact ⟨h', hraised.spares id hd c howner hprobe, hraised⟩

/-- The nameserver forgets its probe if it is this request, and comes up. -/
theorem forgetProbe_up_spec (hreq : base.req id = some req) (hhd : req.handle = some hd)
    (hns : ns ∈ base.servers) (hraise : permits.raise ns) :
    Yields ctx.Tolerates (do
        let base ← base.forgetProbe req ns
        base.nameserverUp env ns) fun base' =>
      base'.Inv ctx ∧ Credited env permits ctx id hd (base.replyCancels req ns) base base' := by
  have howner := owner_of_req hreq hhd
  rw [forgetProbe, bind_assoc]
  refine h.getNameserver_bind hns ?_
  split
  · next hself =>
    -- the request is the probe, and it is not canceled
    have h1 := (h.hide ns).forget
    have hrings1 := rings_clearProbe base ns
    have hlinks1 := links_clearProbe base ns
    have hnone : (base.clearProbe ns).links.probe ns = none := by
      rw [hlinks1]
      exact DnsLinks.setProbe_self ..
    have hcancels1 : (base.clearProbe ns).upCancels ns = false := by
      have hprobe : ((base.clearProbe ns).nameserver ns).probeRequest = none := hnone
      rw [upCancels, hprobe, Option.any_none, Bool.and_false]
    have hcancels : base.replyCancels req ns = false := by simp [replyCancels, hself]
    have howner1 : (base.clearProbe ns).links.owner id =
        some (some hd, req.userCallback, req.requestType) := by
      exact howner
    have hspares1 : Spares id hd base (base.clearProbe ns) :=
      spares_of_views hrings1 (by rfl) rfl id hd
    refine (nameserverUp_credited env permits h1 hfresh hloose hhidden howner1 hns
      (by rw [hnone]; rintro ⟨⟩) hraise).mono ?_
    rintro base' ⟨h', hspares, hraised⟩
    refine ⟨h', hspares1.trans hspares, ?_,
      fun _ hpumped => hraised.pumped (pumped_of_rings hrings1 rfl hpumped),
      (clearProbe_path env permits base ctx ns).trans hraised.path⟩
    rw [hraised.total, hcancels1, hcancels, total_of_rings hrings1]
  · next hother =>
    have hprobe : base.links.probe ns ≠ some hd := fun heq => hother (hhd.trans heq.symm)
    have hcancels : base.replyCancels req ns = base.upCancels ns := by simp [replyCancels, hother]
    refine (nameserverUp_credited env permits h hfresh hloose hhidden howner hns hprobe hraise).mono
      ?_
    rintro base' ⟨h', hspares, hraised⟩
    refine ⟨h', hspares, ?_, fun _ => hraised.pumped, (Change.hide ns).path.trans hraised.path⟩
    rw [hraised.total, hcancels]

end

/-- An error makes the request be followed by one for the next name of a search. -/
def Succeeded (base : EvdnsBase) (id : Nat) : Prop :=
  ∃ req hd, base.req id = some req ∧ req.handle = some hd ∧ req.requestType ≠ .ptr ∧
    base.continues hd = true

/-- Whether a request is followed by another one depends on its handle and its type. -/
theorem Succeeded.of_views (hreq : base.req id = some req) (hhd : req.handle = some hd)
    (howner : base'.links.owner id = base.links.owner id)
    (hhandle : base'.handle hd = base.handle hd) (h : base'.Succeeded id) : base.Succeeded id := by
  obtain ⟨req', hd', hreq', hhd', htype, hcontinues⟩ := h
  obtain ⟨hsame, -, htype'⟩ := same_owner hreq hreq' howner
  obtain rfl : hd' = hd := Option.some.inj (hhd'.symm.trans (hsame.trans hhd))
  rw [continues, hhandle] at hcontinues
  exact ⟨req, hd', hreq, hhd, htype' ▸ htype, hcontinues⟩

/-- If the next name of a search is tried, the maximum is not met exactly. -/
def SearchRoom (base : EvdnsBase) (id : Nat) : Prop :=
  base.Succeeded id → base.total ≠ base.globalMaxRequestsInflight

theorem tryNext_spec (h : base.Inv {}) (hreq : base.req id = some req) (hhd : req.handle = some hd)
    (hflying : req.ns.isSome) (hstale : base.Succeeded id → permits.stale ∨ base.Pumped) :
    Yields Spins (base.tryNext env req hd) fun p =>
      p.1.Inv {} ∧ Stepped env permits (base.SearchRoom id) {} {} base p.1 ∧
        (p.2 = false → p.1.links.owner id = base.links.owner id ∧
          ∃ ns, p.1.rings.place id = some (some ns, req.transId)) := by
  have hcur := h.current hreq hhd List.not_mem_nil
  obtain ⟨handle, hhandle, -⟩ := exists_handle_of_current hcur
  rw [tryNext, getHandle_eq hhandle, yields_ok_bind]
  split
  · next hsearch =>
    have hsucceeded : base.continues hd = true → base.Succeeded id := fun hcontinues =>
      ⟨req, hd, hreq, hhd, hsearch.2, hcontinues⟩
    refine (searchTryNext_spec env permits h hreq hhd hflying hhandle hsearch.1
      fun hcontinues => hstale (hsucceeded hcontinues)).mono ?_
    rintro p htried
    refine ⟨htried.inv, htried.stepped.room fun hroom hcontinues => hroom (hsucceeded hcontinues),
      fun hfalse => ⟨htried.owner hfalse, htried.flying hfalse⟩⟩
  · obtain ⟨ns, hns⟩ := Option.isSome_iff_exists.mp hflying
    have hplace := place_of_req hreq hns
    exact ⟨h, (Keeps.refl base {}).stepped.room fun _ => trivial, fun _ => ⟨rfl, ns, hplace⟩⟩

theorem replyFailed_spec (h : base.Inv {}) (hid : base.Flying [] id) (herror : error ≠ .cancel)
    (hstale : base.Succeeded id → permits.stale ∨ base.Pumped) :
    Yields Spins (base.replyFailed env id error) (Rests env permits (base.SearchRoom id) base) := by
  obtain ⟨req, hd, ns, hreq, hhd, hns, -⟩ := h.request hid
  rw [replyFailed, getReq_eq hreq, yields_ok_bind]
  simp only [hhd]
  refine (tryNext_spec env permits h hreq hhd (by rw [hns]; rfl) hstale).bind ?_
  rintro ⟨base1, submitted⟩ ⟨h1, hstepped1, hleft⟩
  cases submitted with
  | true => exact ⟨h1, hstepped1⟩
  | false =>
    obtain ⟨howner, ns1, hplace⟩ := hleft rfl
    obtain ⟨req1, hreq1, hns1, ht1⟩ := exists_req_of_place hplace
    have hhd1 : req1.handle = some hd := (same_owner hreq hreq1 howner).1.trans hhd
    rw [← ht1]
    refine (closeRequest_spec env permits h1 hreq1 hhd1 (by rw [hns1]; rfl) herror).mono ?_
    rintro base2 ⟨h2, hclosed⟩
    exact ⟨h2, (hstepped1.trans hclosed.stepped).room fun hroom => ⟨hroom, trivial⟩⟩

/-- How many requests there are when the next name of a search is tried: a probe of the nameserver
may have been canceled before. -/
def remaining (base : EvdnsBase) (req : DnsRequest) (ns : Nat) (error : DnsErr) : Int :=
  base.total -
    if error ≠ .notimpl ∧ error ≠ .refused ∧ base.replyCancels req ns = true then 1 else 0

/-- If the reply with this error makes the next name of a search be tried, the maximum is not met
exactly by the requests that there are then. -/
def ReplyRoom (base : EvdnsBase) (id : Nat) (error : DnsErr) : Prop :=
  base.Succeeded id → ∀ req ns, base.req id = some req → req.ns = some ns →
    base.remaining req ns error ≠ base.globalMaxRequestsInflight

/-- The room for a reply is the room for the search that it makes go on. -/
theorem ReplyRoom.searchRoom (hroom : base.ReplyRoom id error) (hreq : base.req id = some req)
    (hns : req.ns = some ns) (hsucceeded : base'.Succeeded id → base.Succeeded id)
    (hmax : base'.globalMaxRequestsInflight = base.globalMaxRequestsInflight)
    (htotal : base'.total = base.remaining req ns error) : base'.SearchRoom id := by
  intro h
  rw [htotal, hmax]
  exact hroom (hsucceeded h) req ns hreq hns

theorem replyError_ne_cancel (flags : Nat) (reply : Option DnsReply) :
    replyError flags reply ≠ some .cancel := by
  rw [replyError]
  split
  · split
    · nofun
    split
    · split <;> nofun
    all_goals nofun
  · nofun

section Reply

variable (h : base.Inv {}) {req : DnsRequest} (hreq : base.req id = some req)
  (hhd : req.handle = some hd) {ns : Nat} (hns : req.ns = some ns) (hserver : ns ∈ base.servers)
include h hreq hhd hns hserver

/-- A reply with an answer. -/
theorem replyAnswered_spec (hraise : permits.raise ns) : Yields Spins (do
        let base ← base.replyScheduleCallback id .none
        let base ← base.forgetProbe req ns
        let base ← base.nameserverUp env ns
        base.requestFinished env id (base.reqHead req.transId) true)
          (Rests env permits True base) := by
  have herr : DnsErr.none ≠ .cancel := by decide
  obtain ⟨base1, hbase1, hs, h1⟩ := h.schedule hreq hhd List.not_mem_nil
    fun hcancel => absurd hcancel herr
  rw [hbase1]
  have hreq1 : base1.req id = some req := by
    rw [hs.aside.req]
    exact hreq
  have hserver1 : ns ∈ base1.servers := by
    rw [hs.aside.servers]
    exact hserver
  have hschedule : Change env permits base {} base1 { closing := [id] } :=
    .aside hs.aside ⟨rfl, rfl, rfl⟩
  have hup := forgetProbe_up_spec env permits h1 rfl rfl rfl hreq1 hhd hserver1 hraise
  have hbind :=
    hup.bind (f := fun base => base.requestFinished env id (base.reqHead req.transId) true)
    (Q := (Rests env permits True base)) ?_
  · rw [bind_assoc] at hbind
    exact hbind
  rintro base2 ⟨h2, hcredited⟩
  -- the request is still there, with the same id
  have hplace1 := place_of_req hreq1 hns
  obtain ⟨ns2, hplace2⟩ := hcredited.spares.flying ns req.transId hplace1
  obtain ⟨req2, hreq2, hns2, ht2⟩ := exists_req_of_place hplace2
  have hhd2 : req2.handle = some hd := (same_owner hreq1 hreq2 hcredited.spares.owner).1.trans hhd
  have hring : base2.reqHead req.transId = base2.ringOf req2 := by
    rw [ringOf, hns2, ht2]
    rfl
  refine (requestFinished_spec env permits h2 rfl hreq2 hhd2 List.not_mem_nil
    (fun _ : true = true => List.mem_singleton_self id) (fun x hx => hx)
    (by rintro ⟨⟩) hring).mono ?_
  rintro base3 ⟨h3, hfin⟩
  have hclosing : [id].erase id = [] := List.erase_cons_head id []
  have hctx : ({ closing := [id].erase id } : DnsCtx) = {} := by rw [hclosing]
  have h3' : base3.Inv { closing := [id].erase id } := h3
  have hfin' : Finished env permits { closing := [id].erase id } id hd base2 base3 := hfin
  rw [hctx] at h3' hfin'
  refine ⟨h3', ?_⟩
  have hpath : Path env permits base2 { closing := [id] } base3 {} := hfin'.path ⟨rfl, rfl, rfl⟩
  exact ⟨fun _ _ => hfin'.2, hschedule.path.trans (hcredited.stepped.path.trans hpath)⟩

/-- A reply that blames the nameserver: another one is tried, if that has not been done too often.
-/
theorem replyBlamed_spec (herror : error = .notimpl ∨ error = .refused) (hreissue : permits.reissue)
    (hstale : base.Succeeded id → permits.stale ∨ base.Pumped) :
    Yields Spins (if req.reissueCount < base.globalMaxReissues then do
        let base ← base.nameserverFailed ns
        let (base, pointless) ← base.requestReissue id
        if pointless then base.replyFailed env id error else pure base
      else base.replyFailed env id error) (Rests env permits (base.ReplyRoom id error) base) := by
  have hid := flying_of_req hreq hns
  have hcancel : error ≠ .cancel := by rcases herror with rfl | rfl <;> decide
  have hremaining : base.remaining req ns error = base.total := by
    rcases herror with rfl | rfl <;> simp [remaining]
  split
  · refine (nameserverFailed_spec env permits h hserver).bind ?_
    rintro base1 ⟨h1, hkeeps1⟩
    refine (requestReissue_spec env permits h1 (hid.keep hkeeps1.toFrame) hreissue).bind ?_
    rintro ⟨base2, pointless⟩ ⟨h2, hkeeps2⟩
    have hkeeps := hkeeps1.trans hkeeps2 rfl
    cases pointless with
    | false => exact ⟨h2, hkeeps.stepped.room fun _ => trivial⟩
    | true =>
      have hsucceeded : base2.Succeeded id → base.Succeeded id :=
        Succeeded.of_views hreq hhd (by rw [hkeeps.links]) (by rw [hkeeps.handle])
      refine (replyFailed_spec env permits h2 (hid.keep hkeeps.toFrame) hcancel
        fun h => (hstale (hsucceeded h)).imp_right hkeeps.pumped).mono ?_
      rintro base3 ⟨h3, hstepped3⟩
      refine ⟨h3, (hkeeps.stepped.trans hstepped3).room fun hroom => ⟨trivial, ?_⟩⟩
      refine hroom.searchRoom hreq hns hsucceeded hkeeps.max ?_
      rw [hremaining]
      exact hkeeps.total
  · exact yields_room (replyFailed_spec env permits h hid hcancel hstale) fun hroom =>
      hroom.searchRoom hreq hns (fun h => h) rfl hremaining.symm

/-- A reply that is no answer, although the nameserver is all right. -/
theorem replyDenied_spec (herror : ¬ (error = .notimpl ∨ error = .refused))
    (hcancel : error ≠ .cancel) (hraise : permits.raise ns)
    (hstale : base.Succeeded id → permits.stale ∨ base.Pumped) :
    Yields Spins (do
        let base ← base.forgetProbe req ns
        let base ← base.nameserverUp env ns
        base.replyFailed env id error) (Rests env permits (base.ReplyRoom id error) base) := by
  have hup := forgetProbe_up_spec env permits h rfl rfl rfl hreq hhd hserver hraise
  have hbind := hup.bind (f := fun base => base.replyFailed env id error)
    (Q := (Rests env permits (base.ReplyRoom id error) base)) ?_
  · rw [bind_assoc] at hbind
    exact hbind
  rintro base1 ⟨h1, hcredited⟩
  have hplace := place_of_req hreq hns
  obtain ⟨ns1, hplace1⟩ := hcredited.spares.flying ns req.transId hplace
  have hid1 : base1.Flying [] id := ⟨List.not_mem_nil, ns1, req.transId, hplace1⟩
  have hsucceeded : base1.Succeeded id → base.Succeeded id :=
    Succeeded.of_views hreq hhd hcredited.spares.owner hcredited.spares.handle
  refine (replyFailed_spec env permits h1 hid1 hcancel
    fun h => (hstale (hsucceeded h)).imp_right (hcredited.stepped.pumped trivial)).mono ?_
  rintro base2 ⟨h2, hstepped2⟩
  refine ⟨h2, (hcredited.stepped.trans hstepped2).room fun hroom => ⟨trivial, ?_⟩⟩
  refine hroom.searchRoom hreq hns hsucceeded hcredited.stepped.path.max ?_
  rw [hcredited.total, remaining]
  have hboth : error ≠ .notimpl ∧ error ≠ .refused := not_or.mp herror
  simp [hboth.1, hboth.2]

end Reply

/-- The changes that a reply can make. -/
structure ReplyPermits (permits : DnsPermits) (base : EvdnsBase) (id flags : Nat)
    (reply : Option DnsReply) : Prop where
  raise : ∀ req ns, base.req id = some req → req.ns = some ns → permits.raise ns
  stale : ∀ error, replyError flags reply = some error → error ≠ .serverfailed →
    base.Succeeded id → permits.stale ∨ base.Pumped
  reissue : replyError flags reply = some .notimpl ∨ replyError flags reply = some .refused →
    permits.reissue

/-- `reply_handle` leaves the base at rest, whatever the reply says. -/
theorem replyHandle_spec (h : base.Inv {}) (hid : base.Flying [] id)
    (hpermits : ReplyPermits permits base id flags reply) :
    Yields Spins (base.replyHandle env id flags reply) fun base' =>
      base'.Inv {} ∧ Stepped env permits
        (∀ error, replyError flags reply = some error → error ≠ .serverfailed →
          base.ReplyRoom id error) {} {} base base' := by
  obtain ⟨req, hd, ns, hreq, hhd, hns, hserver⟩ := h.request hid
  have hgetNs : getNs req = .ok ns := by rw [getNs, hns]
  have hraise := hpermits.raise req ns hreq hns
  rw [replyHandle, h.assertValid hid, yields_ok_bind, getReq_eq hreq, yields_ok_bind, hgetNs]
  split
  · exact yields_room (replyAnswered_spec env permits h hreq hhd hns hserver hraise)
      fun _ => trivial
  · exact yields_room (evdnsRequestTimeoutCallback_spec env permits h hid) fun _ => trivial
  next error hserverfailed hreply =>
  have hcancel : error ≠ .cancel := by
    rintro rfl
    exact replyError_ne_cancel flags reply hreply
  have hne : error ≠ .serverfailed := by
    rintro rfl
    exact hserverfailed rfl
  split
  · next herror =>
    have hreissue : permits.reissue := by
      refine hpermits.reissue ?_
      rw [hreply]
      exact herror.imp (congrArg some) (congrArg some)
    exact yields_room (replyBlamed_spec env permits h hreq hhd hns hserver herror hreissue
      (hpermits.stale error hreply hne)) fun hroom => hroom error hreply hne
  · next herror =>
    exact yields_room (replyDenied_spec env permits h hreq hhd hns hserver herror hcancel hraise
      (hpermits.stale error hreply hne)) fun hroom => hroom error hreply hne

/-- The request that a packet is for is in flight. -/
theorem mem_of_requestFindFromTransId {t : Nat} (hfind : base.requestFindFromTransId t = some id) :
    id ∈ base.reqHeads.flatten := by
  have hmem := List.mem_of_find?_eq_some hfind
  rw [List.getD_eq_getElem?_getD] at hmem
  cases hids : base.reqHeads[t % base.reqHeads.length]? with
  | none =>
    rw [hids] at hmem
    cases hmem
  | some ids =>
    rw [hids] at hmem
    exact List.mem_flatten.mpr ⟨ids, List.mem_of_getElem? hids, hmem⟩

/-- The packet makes the next name of a search be tried only if there is room. -/
def PacketRoom (base : EvdnsBase) (transId flags : Nat) (reply : Option DnsReply) : Prop :=
  ∀ id error, base.requestFindFromTransId transId = some id →
    replyError flags (replyGiven flags reply) = some error → error ≠ .serverfailed →
      base.ReplyRoom id error

theorem replyParse_spec (h : base.Inv {}) {transId : Nat} (hpermits : ∀ id,
      base.requestFindFromTransId transId = some id → ReplyPermits permits base id flags (replyGiven
      flags reply)) :
    Yields Spins (base.replyParse env transId flags reply)
      (Rests env permits (base.PacketRoom transId flags reply) base) := by
  have hsame : Stepped env permits (base.PacketRoom transId flags reply) {} {} base base :=
    (Keeps.refl base {}).stepped.room fun _ => trivial
  rw [replyParse]
  split
  · exact ⟨h, hsame⟩
  next id hfind =>
  split
  · exact ⟨h, hsame⟩
  have hid := h.flying_of_mem (mem_of_requestFindFromTransId hfind)
  exact yields_room (replyHandle_spec env permits h hid (hpermits id hfind))
    fun hroom error => hroom id error hfind

/-! ### The callbacks of probes -/

/-- `nameserver_up` for a nameserver without a probe only changes the nameserver. -/
theorem nameserverUp_eq (hns : ns ∉ base.released)
    (hprobe : (base.nameserver ns).probeRequest = none) :
    base.nameserverUp env ns = .ok (if (base.nameserver ns).state then base
      else (base.clearTimer ns).markUp ns) := by
  have hserver : base.getNameserver ns = .ok (base.nameserver ns) := by
    rw [getNameserver, if_neg hns]
  have hprobe' : ((base.clearTimer ns).nameserver ns).probeRequest = none := by
    simp [clearTimer, modifyNs, hprobe]
  rw [nameserverUp, hserver]
  show (if (base.nameserver ns).state then _ else _) = _
  split
  · rfl
  · rw [cancelProbe, hprobe']
    rfl

/-- A nameserver that is down comes up, and its timer is deleted. -/
theorem Inv.upAgain (h : base.Inv ctx) (hns : ns ∈ base.servers)
    (hraise : base.goods.up ns = false → permits.raise ns) :
    ∃ base', (if (base.nameserver ns).state then base else (base.clearTimer ns).markUp ns) = base' ∧
      base'.Inv ctx ∧ base'.rings = base.rings ∧ base'.links = base.links ∧
      base'.handle = base.handle ∧
      Path env permits base (ctx.hide ns) base' ctx := by
  split
  · next hup => exact ⟨base, rfl, h, rfl, rfl, rfl, (Change.unhide rfl (.inl hup)).path⟩
  next hstate =>
  have hdown : base.goods.up ns = false := Bool.eq_false_iff.mpr hstate
  obtain ⟨h1, hframe1⟩ := clearTimer_frame h ns
  have hdown1 : (base.clearTimer ns).goods.up ns = false := by
    refine Bool.eq_false_iff.mpr fun htrue => ?_
    rw [hframe1.down ns htrue] at hdown
    cases hdown
  have hunhide : Change env permits ((base.clearTimer ns).markUp ns)
      (ctx.hide ns) ((base.clearTimer ns).markUp ns) ctx :=
    .unhide rfl (.inl (by simp [markUp, modifyNs]))
  obtain ⟨h2, hrings2, hlinks2⟩ := h1.raise hns hdown1
  have hrings1 : (base.clearTimer ns).rings = base.rings := rings_modifyNs_eq base ns fun _ => rfl
  exact ⟨_, rfl, h2, hrings2.trans hrings1, hlinks2.trans hframe1.links, rfl,
    ((clearTimer_change env permits base ctx ns).path.change (.raise (hraise hdown))).change
      hunhide⟩

/-- A nameserver that is still down gets its timer again. -/
theorem nameserverProbeFailed_frame (h : base.Inv ctx) (ns : Nat) :
    (base.nameserverProbeFailed ns).Inv ctx ∧
      Frame ctx.loose 0 base (base.nameserverProbeFailed ns) ∧
      Path env permits base (ctx.hide ns) (base.nameserverProbeFailed ns)
        ctx := by
  obtain ⟨h1, hframe1⟩ := clearTimer_frame h ns
  have hclear := clearTimer_change env permits base ctx ns
  rw [nameserverProbeFailed]
  split
  · next hup => exact ⟨h1, hframe1, hclear.path.change (.unhide rfl (.inl hup))⟩
  have hdetails2 : ProbeDetails fun server =>
      { server with failedTimes := server.failedTimes + 1, timer := true } :=
    fun _ => ⟨rfl, rfl, rfl, rfl⟩
  obtain ⟨h2, hframe2⟩ := h1.touchNs ns (f := fun server =>
    { server with failedTimes := server.failedTimes + 1, timer := true }) fun _ => ⟨rfl, rfl, rfl⟩
  refine ⟨h2, hframe1.trans hframe2, ?_⟩
  refine (hclear.path.change (.hidden List.mem_cons_self hdetails2)).change
    (.unhide rfl (.inr (.inl ?_)))
  simp [modifyNs]

/-- From `base` to `base'`, the nameserver has forgotten its probe, and its state or its timer may
have changed. -/
structure Probed (env : DnsEnv) (permits : DnsPermits) (ctx : DnsCtx) (ns : Nat)
    (base base' : EvdnsBase) : Prop where
  links : base'.links = base.links.setProbe ns none
  handle : base'.handle = base.handle
  stepped : Stepped env permits True ctx ctx base base'

/-- The end of `nameserver_probe_callback`, for a result that does not say that the probe was
canceled. -/
theorem probeResult_spec {E : DnsFault → Prop} (h : base.Inv ctx) (hns : ns ∈ base.servers)
    (hlive : ns ∉ base.released) {result : DnsErr}
    (hraise : result = .none ∨ result = .notexist → base.goods.up ns = false → permits.raise ns) :
    Yields E
      (if result = .none ∨ result = .notexist then (base.clearProbe ns).nameserverUp env ns
      else pure ((base.clearProbe ns).nameserverProbeFailed ns)) fun base' =>
      base'.Inv ctx ∧ Probed env permits ctx ns base base' := by
  have h1 := (h.hide ns).forget
  have hrings1 := rings_clearProbe base ns
  have hlinks1 := links_clearProbe base ns
  have hgoods1 := goods_clearProbe base ns
  have hpath := clearProbe_path env permits base ctx ns
  split
  · next hgood =>
    have hprobe : ((base.clearProbe ns).nameserver ns).probeRequest = none := by
      simp [clearProbe, modifyNs]
    have hraise1 : (base.clearProbe ns).goods.up ns = false → permits.raise ns := by
      rw [hgoods1]
      exact hraise hgood
    have hns1 : ns ∈ (base.clearProbe ns).servers := hns
    have hlive1 : ns ∉ (base.clearProbe ns).released := hlive
    obtain ⟨base', hbase', h', hrings', hlinks', hhandle', hpath'⟩ :=
      h1.upAgain env permits hns1 hraise1
    rw [nameserverUp_eq env hlive1 hprobe, hbase']
    have hrings := hrings'.trans hrings1
    exact ⟨h', hlinks'.trans hlinks1, hhandle',
      fun _ => pumped_of_rings hrings (hpath.trans hpath').max, hpath.trans hpath'⟩
  · obtain ⟨h', hframe', hpath'⟩ := nameserverProbeFailed_frame env permits h1 ns
    exact ⟨h', hframe'.links.trans hlinks1, hframe'.handle,
      fun _ hpumped => hframe'.pumped (pumped_of_rings hrings1 rfl hpumped), hpath.trans hpath'⟩

/-- The faults of a callback: its nameserver may have been freed before. -/
def Stale (base : EvdnsBase) (e : DnsFault) : Prop := base.released ≠ [] ∧ e = .useAfterFree

/-- The callback of a probe tells its nameserver; the others are the user's. -/
theorem runUserCallback_spec (h : base.Inv ctx)
    (htarget : ∀ ns, d.callback = .probe ns → ns < base.goods.next) (hraise : ∀ ns, d.callback =
      .probe ns → d.err = .none ∨ d.err = .notexist → base.goods.up ns = false → permits.raise ns) :
    Yields base.Stale (base.runUserCallback env d) fun base' =>
      base'.Inv ctx ∧ base'.handle = base.handle ∧ Stepped env permits True ctx ctx base base' ∧
        ((base'.links = base.links ∧ ∀ ns, ¬ (d.callback = .probe ns ∧ d.err ≠ .cancel)) ∨
          ∃ ns, d.callback = .probe ns ∧ base'.links = base.links.setProbe ns none) := by
  have hsame : Stepped env permits True ctx ctx base base := (Keeps.refl base ctx).stepped
  rw [runUserCallback]
  split
  · next huser =>
    refine ⟨h, rfl, hsame, .inl ⟨rfl, fun ns hprobes => ?_⟩⟩
    cases huser.symm.trans hprobes.1
  next ns hprobe =>
  rw [nameserverProbeCallback]
  split
  · next hcancel => exact ⟨h, rfl, hsame, .inl ⟨rfl, fun _ hprobes => hprobes.2 hcancel⟩⟩
  rw [getNameserver]
  split
  · next hfreed => exact ⟨List.ne_nil_of_mem hfreed, rfl⟩
  next hlive =>
  have hns : ns ∈ base.servers := (h.goods.accounted ns (htarget ns hprobe)).resolve_right hlive
  refine (probeResult_spec env permits h hns hlive (hraise ns hprobe)).mono ?_
  rintro base' ⟨h', hprobed⟩
  exact ⟨h', hprobed.handle, hprobed.stepped, .inr ⟨ns, hprobe, hprobed.links⟩⟩

/-- The first of the scheduled callbacks runs. -/
theorem replyRunCallback_spec (h : base.Inv {}) {rest : List DeferredReply}
    (hdeferred : base.deferred = d :: rest) (hraise : ∀ ns, d.callback = .probe ns → d.err = .none ∨
      d.err = .notexist → base.goods.up ns = false → permits.raise ns) :
    Yields base.Stale ({ base with deferred := rest }.replyRunCallback env d)
      (Rests env permits True base) := by
  have hpop := h.links.pop hdeferred
  have hidle : d.handle.toList ++ [] = d.handle.toList := List.append_nil _
  have h1 : ({ base with deferred := rest } : EvdnsBase).Inv { idle := d.handle.toList } := by
    refine ⟨h.rings, ?_, h.goods, fun ns hns => h.targets ns (DnsLinks.mentions_pop hdeferred hns)⟩
    rw [← hidle]
    exact hpop
  have hchange1 : Change env permits base {} { base with deferred := rest }
      { idle := d.handle.toList } := .aside ⟨rfl, rfl, rfl, rfl, rfl, rfl, rfl⟩ ⟨rfl, rfl, rfl⟩
  have hmem : d ∈ base.links.deferred := by
    show d ∈ base.deferred
    rw [hdeferred]
    exact List.mem_cons_self
  refine (runUserCallback_spec env permits h1 (fun ns hns => h.targets ns (.inr ⟨d, hmem, hns⟩))
    hraise).bind ?_
  rintro base2 ⟨h2, hhandle2, hstepped2, hlinks2⟩
  have hstepped : Stepped env permits True {} { idle := d.handle.toList } base base2 :=
    ⟨fun hroom hpumped => hstepped2.pumped hroom hpumped, hchange1.path.trans hstepped2.path⟩
  split
  · next hnone =>
    rw [hnone] at h2 hstepped
    exact ⟨h2, hstepped⟩
  next hd hd' =>
  obtain ⟨hcur, hnot, hprobe⟩ := h.links.first hdeferred hd'
  obtain ⟨handle, hhandle, hcurrent, hpending⟩ := exists_handle_of_current hcur
  have hhandle' : base2.handle hd = some handle := by
    rw [hhandle2]
    exact hhandle
  rw [getHandle_eq hhandle', yields_ok_bind, if_pos hpending]
  have hcur2 : base2.links.current hd = some (none, true) := by
    rw [current_of_handle hhandle', hcurrent, hpending]
  have hdeferred2 : base2.deferred = rest := by
    rcases hlinks2 with ⟨hlinks, -⟩ | ⟨ns, -, hlinks⟩
    · exact congrArg DnsLinks.deferred hlinks
    · exact congrArg DnsLinks.deferred hlinks
  -- a nameserver that had the handle as its probe has been told
  have hprobe2 : ∀ ns, base2.links.probe ns ≠ some hd := by
    intro ns hns
    rcases hlinks2 with ⟨hlinks, hnone⟩ | ⟨n, hn, hlinks⟩
    · rw [hlinks] at hns
      exact hnone ns (hprobe ns hns)
    rw [hlinks] at hns
    by_cases hne : ns = n
    · subst hne
      rw [DnsLinks.setProbe_self] at hns
      cases hns
    · rw [DnsLinks.setProbe_of_ne _ hne] at hns
      have hcallback := (hprobe ns hns).1
      rw [hn] at hcallback
      exact hne (DnsCallback.probe.inj hcallback).symm
  have h3 : (base2.freeHandle hd).Inv {} := by
    refine h2.freeHandle hcur2 ?_ (fun ns _ => hprobe2 ns) fun x hx hne => ?_
    · rw [hdeferred2]
      exact hnot
    · rw [hd'] at hx
      exact absurd (List.mem_singleton.mp hx) hne
  have hchange3 : Change env permits base2 { idle := d.handle.toList } (base2.freeHandle hd) {} :=
    .aside (.freeHandle base2 hd) ⟨rfl, rfl, rfl⟩
  exact ⟨h3, hstepped.pumped, hstepped.path.change hchange3⟩

end EvdnsBase

end Libevent
