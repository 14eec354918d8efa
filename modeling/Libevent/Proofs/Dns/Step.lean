import Libevent.Dns.Step
import Libevent.Proofs.Dns.Answering

/-!
# `Libevent.Proofs.Dns.Step`: what one step does to a base

`dnsStep_spec` puts the specifications of the handlers together: a step ends in a base that
satisfies the invariant, and it takes a path of changes. Adding a nameserver and setting the maximum
are no such paths, and have lemmas of their own.
-/

namespace Libevent

open Lib

/-- The step leaves the nameservers and the maximum alone. -/
def DnsAction.Ordinary : DnsAction → Prop
  | .nameserverAdd => False
  | .setMaxInflight _ => False
  | .suspend => False
  | _ => True

variable {base : EvdnsBase}

namespace EvdnsBase

variable {base base' mid : EvdnsBase} {env : DnsEnv} {permits : DnsPermits} {id hd : Nat}
  {transId flags ns : Nat} {reply : Option DnsReply}

/-- The changes that a step can make are permitted. -/
def Allows (permits : DnsPermits) (base : EvdnsBase) : DnsAction → Prop
  | .packet _ transId flags reply => ∀ id, base.requestFindFromTransId transId = some id →
      ReplyPermits permits base id flags (replyGiven flags reply)
  | .callback => ∀ d rest ns, base.deferred = d :: rest → d.callback = .probe ns →
      d.err = .none ∨ d.err = .notexist → base.goods.up ns = false → permits.raise ns
  | _ => True

/-- The step leaves no request waiting that could be sent, unless there was one. -/
def Room (base : EvdnsBase) : DnsAction → Prop
  | .packet _ transId flags reply => base.PacketRoom transId flags reply
  | _ => True

/-- The faults of a step. -/
def StepFault (base : EvdnsBase) (e : DnsFault) : Prop := e = .spins ∨ base.Stale e

theorem toStepFault {r : Except DnsFault EvdnsBase} {post : EvdnsBase → Prop}
    (h : Yields Spins r post) : Yields base.StepFault r post :=
  h.weaken fun _ he => .inl (he.resolve_right fun htolerant => htolerant.1)

/-! ### Packets -/

/-- The room for a packet does not depend on how often a nameserver has failed. -/
theorem PacketRoom.nsDetails (hroom : base.PacketRoom transId flags reply) (ns : Nat)
    {f : Nameserver → Nameserver} (hf : NsDetails f) :
    (base.modifyNs ns f).PacketRoom transId flags reply := by
  intro id error hfind herror hne hsucceeded req n hreq hn
  have hprobe := modifyNs_field Nameserver.probeRequest base (fun server => (hf server).2.2.1) ns n
  have hstate := modifyNs_field Nameserver.state base (fun server => (hf server).1) ns n
  have hcancels : (base.modifyNs ns f).replyCancels req n = base.replyCancels req n := by
    rw [replyCancels, upCancels, hprobe, hstate]
    rfl
  rw [remaining, hcancels]
  exact hroom id error hfind herror hne hsucceeded req n hreq hn

section
variable (h : base.Inv {})
include h

theorem packet_spec (hallows : base.Allows permits (.packet ns transId flags reply)) : Yields Spins
      ((base.modifyNs ns fun server => { server with timedout := 0 }).replyParse env transId flags
        reply) (Rests env permits (base.PacketRoom transId flags reply) base) := by
  have hdetails : NsDetails fun server => { server with timedout := 0 } :=
    fun _ => ⟨rfl, rfl, rfl, rfl, rfl, rfl⟩
  obtain ⟨h1, hkeeps1⟩ := h.nsDetails env permits ns hdetails
  refine (replyParse_spec env permits h1 fun id hfind => ?_).mono ?_
  · obtain ⟨hraise, hstale, hreissue⟩ := hallows id hfind
    exact ⟨hraise, fun error herror hne hsucceeded =>
      (hstale error herror hne hsucceeded).imp_right hkeeps1.pumped, hreissue⟩
  · rintro base' ⟨h', hstepped'⟩
    exact ⟨h', (hkeeps1.stepped.trans hstepped').room fun hroom => ⟨trivial,
      hroom.nsDetails ns hdetails⟩⟩

/-! ### Timers, sockets and the user -/

/-- The timer of a request goes off. -/
theorem requestTimedOut_spec (htimer : (base.req id).any (·.timer) = true) :
    Yields Spins (base.requestTimedOut env id) (Rests env permits True base) := by
  obtain ⟨ns, t, hplace⟩ := h.rings.timer id htimer
  obtain ⟨req, hreq, -⟩ := exists_req_of_place hplace
  have hid : base.Flying [] id := ⟨List.not_mem_nil, ns, t, hplace⟩
  have hdetails : ReqDetails fun req => { req with timer := false } :=
    fun _ => ⟨rfl, rfl, rfl, rfl, Nat.le_refl _, .inl rfl⟩
  obtain ⟨h1, hframe1⟩ := h.touchReq hreq (f := fun req => { req with timer := false }) ⟨rfl, rfl⟩
    (fun _ => ⟨rfl, rfl, rfl⟩) nofun
  have hkeeps1 : Keeps env permits 0 base {} (base.modifyReq id fun req =>
      { req with timer := false }) {} := ⟨hframe1, (Change.reqDetails id hdetails).path⟩
  refine (evdnsRequestTimeoutCallback_spec env permits h1 (hid.keep hframe1)).mono ?_
  rintro base2 ⟨h2, hstepped2⟩
  exact ⟨h2, (hkeeps1.stepped.trans hstepped2).room fun _ => ⟨trivial, trivial⟩⟩

/-- The socket of a nameserver can be written to. -/
theorem nameserverWritable_spec (hevent : (base.nameserver ns).event = true) :
    Yields Spins (base.nameserverWritable env ns) (Rests env permits True base) := by
  obtain ⟨h1, hframe1⟩ := h.touchNs ns
    (f := fun server => { server with choked := false }) fun _ => ⟨rfl, rfl, rfl⟩
  have hkeeps1 : Keeps env permits 0 base {}
      (base.modifyNs ns fun server => { server with choked := false }) {} :=
    ⟨hframe1, (Change.unchoke hevent).path⟩
  refine (evdnsTransmit_spec env permits h1 rfl).bind ?_
  rintro base2 ⟨h2, hkeeps2⟩
  have hkeeps := hkeeps1.trans hkeeps2 rfl
  obtain ⟨h3, hframe3⟩ := nameserverWriteWaiting_frame h2 ns false
  have hkeeps3 : Keeps env permits 0 base2 {} (base2.nameserverWriteWaiting ns false) {} :=
    ⟨hframe3, (Change.writeWaiting ns false).path⟩
  split
  · exact ⟨h2, hkeeps.stepped⟩
  · exact ⟨h3, (hkeeps.trans hkeeps3 rfl).stepped⟩

/-- The user cancels a request. -/
theorem cancel_spec (huser : base.userHandle hd = true) :
    Yields Spins (base.evdnsCancelRequest env hd) (Rests env permits True base) := by
  rw [userHandle] at huser
  cases hhandle : base.handle hd with
  | none => simp [hhandle] at huser
  | some handle =>
    simp only [hhandle] at huser
    have hcurrent := current_of_handle hhandle
    have hprobe : ∀ id p, base.links.current hd = some (some id, p) →
        ∀ ns, base.links.probe ns = some hd → ns ∈ ([] : List Nat) := by
      intro id p hcur ns hns
      -- a probe is not the user's
      obtain ⟨-, hprobing, -⟩ := h.links.probe ns List.not_mem_nil hd hns
      obtain ⟨h', type, howner⟩ := hprobing id p hcur
      obtain ⟨req, hreq, -, hc⟩ := exists_req_of_owner howner
      rw [hcurrent] at hcur
      have hid : handle.currentReq = some id := by simpa using congrArg (Option.map Prod.fst) hcur
      have hcallback : req.userCallback = .user := by simpa [hid, hreq] using huser
      rw [hcallback] at hc
      cases hc
    refine (evdnsCancelRequest_spec env permits h rfl (by rw [hcurrent]; nofun)
      (fun id p _ => List.not_mem_nil) hprobe).mono ?_
    rintro base' ⟨h', hcanceled⟩
    exact ⟨h', fun _ => hcanceled.pumped, hcanceled.path⟩

/-! ### Nameservers and the maximum -/

/-- A nameserver is added. -/
theorem Inv.nameserverAdd : base.evdnsNameserverAdd.Inv {} := by
  have hperm : base.evdnsNameserverAdd.servers.Perm (base.nextNs :: base.servers) := by
    rw [evdnsNameserverAdd]
    cases base.servers with
    | nil => exact .refl _
    | cons head rest => exact .swap _ _ _
  have hfresh : base.nextNs ∉ base.servers := fun hmem => Nat.lt_irrefl _ (h.goods.known _ hmem)
  have hrings : base.evdnsNameserverAdd.rings =
      base.rings.addServer base.evdnsNameserverAdd.servers base.nextNs := by
    simp only [EvdnsBase.rings, evdnsNameserverAdd, DnsRings.addServer]
    rw [field_update]
  have hlinks : base.evdnsNameserverAdd.links = base.links.setProbe base.nextNs none := by
    simp only [EvdnsBase.links, evdnsNameserverAdd, DnsLinks.setProbe]
    rw [field_update]
  have hgoods : base.evdnsNameserverAdd.goods = base.goods.add base.evdnsNameserverAdd.servers := by
    simp only [EvdnsBase.goods, evdnsNameserverAdd, DnsServers.add]
    rw [field_update]
  refine ⟨?_, ?_, ?_, fun ns hns => ?_⟩
  · rw [hrings]
    exact h.rings.addServer hperm hfresh
  · rw [hlinks]
    exact (h.hide base.nextNs).links.forget
  · rw [hgoods]
    exact h.goods.add hperm
  · exact Nat.lt_succ_of_lt (h.targets ns hns)

end

/-- Each request is in the head of its id. -/
def Hashed (base : EvdnsBase) (heads : List (List Nat)) : Prop :=
  ∀ (k : Nat) (ids : List Nat), heads[k]? = some ids → ∀ id ∈ ids, ∀ p,
    base.rings.place id = some p → p.2 % heads.length = k

theorem rehash_spec (h : base.Inv {}) {heads : List (List Nat)} (hpos : 0 < heads.length)
    (hheads : base.Hashed heads) (hid : base.Flying [] id) :
    ∃ heads', base.rehash heads id = .ok heads' ∧ heads'.length = heads.length ∧
      heads'.flatten.Perm (id :: heads.flatten) ∧ base.Hashed heads' := by
  obtain ⟨req, hd, ns, hreq, -⟩ := h.request hid
  have hk : req.transId % heads.length < heads.length := Nat.mod_lt _ hpos
  refine ⟨heads.modify (req.transId % heads.length) (· ++ [id]), ?_, List.length_modify _ _ _,
    flatten_modify_append heads hk id, ?_⟩
  · rw [rehash, h.assertValid hid, getReq_eq hreq]
    rfl
  intro k ids hids x hx p hp
  rw [List.length_modify]
  rw [List.getElem?_modify] at hids
  obtain ⟨old, hold, heq⟩ := Option.map_eq_some_iff.mp hids
  split at heq
  · next hkeq =>
    subst heq
    rcases List.mem_append.mp hx with hx | hx
    · exact hheads k old hold x hx p hp
    · rw [List.mem_singleton.mp hx, place_of_req hreq rfl] at hp
      rw [← hkeq, ← Option.some.inj hp]
  · subst heq
    exact hheads k old hold x hx p hp

/-- All requests in flight go to their new heads. -/
theorem rehash_all (h : base.Inv {}) : ∀ {ids : List Nat} {heads : List (List Nat)},
    0 < heads.length → base.Hashed heads → (∀ id ∈ ids, base.Flying [] id) →
    ∃ heads', ids.foldlM base.rehash heads = .ok heads' ∧ heads'.length = heads.length ∧
      heads'.flatten.Perm (ids ++ heads.flatten) ∧ base.Hashed heads'
  | [], heads, _, hheads, _ => ⟨heads, rfl, rfl, .refl _, hheads⟩
  | id :: ids, heads, hpos, hheads, hflying => by
      obtain ⟨heads1, hstep, hlen1, hperm1, hheads1⟩ :=
        rehash_spec h hpos hheads (hflying id List.mem_cons_self)
      obtain ⟨heads2, hrest, hlen2, hperm2, hheads2⟩ := rehash_all h (hlen1 ▸ hpos) hheads1
        fun x hx => hflying x (List.mem_cons_of_mem id hx)
      refine ⟨heads2, ?_, hlen2.trans hlen1, ?_, hheads2⟩
      · rw [List.foldlM_cons, hstep]
        exact hrest
      · exact hperm2.trans ((hperm1.append_left ids).trans List.perm_middle)

/-- The maximum is set, and the requests in flight are hashed again. -/
theorem evdnsBaseSetMaxRequestsInflight_spec (h : base.Inv {}) (maxinflight : Int) :
    ∃ heads, base.evdnsBaseSetMaxRequestsInflight maxinflight = .ok { base with
        reqHeads := heads
        globalMaxRequestsInflight := if maxinflight < 1 then 1 else maxinflight } ∧
      heads.flatten.Perm base.reqHeads.flatten ∧
      ({ base with
        reqHeads := heads
        globalMaxRequestsInflight := if maxinflight < 1 then 1 else maxinflight } : EvdnsBase).Inv
        {} := by
  have hpos : 0 < ((((if maxinflight < 1 then 1 else maxinflight) : Int) + 4) / 5).toNat := by
    split <;> omega
  have hempty : base.Hashed
      (List.replicate ((((if maxinflight < 1 then 1 else maxinflight) : Int) + 4) / 5).toNat
        []) := by
    intro k ids hids x hx
    rw [List.eq_of_mem_replicate (List.mem_of_getElem? hids)] at hx
    cases hx
  obtain ⟨heads, hrun, hlen, hperm, hhashed⟩ := rehash_all h
    (List.length_replicate ▸ hpos) hempty fun id hid => h.flying_of_mem hid
  have hflatten : heads.flatten.Perm base.reqHeads.flatten := by
    have hnil : (List.replicate ((((if maxinflight < 1 then 1 else maxinflight) : Int) + 4) /
        5).toNat ([] : List Nat)).flatten = [] := List.flatten_replicate_nil
    rw [hnil, List.append_nil] at hperm
    exact hperm
  refine ⟨heads, ?_, hflatten, h.of_links ?_ rfl h.goods rfl⟩
  · rw [evdnsBaseSetMaxRequestsInflight, hrun]
    rfl
  · rw [List.length_replicate] at hlen
    exact h.rings.rehash (hlen ▸ hpos) hflatten hhashed

/-- A base without requests and without nameservers. -/
theorem inv_empty (hheads : base.reqHeads = List.replicate 13 [])
    (hwaiting : base.reqWaitingHead = []) (hservers : base.servers = []) (hcounts :
      base.globalRequestsInflight = 0 ∧ base.globalRequestsWaiting = 0 ∧ base.globalGoodNameservers
      = 0) (hreq : base.req = fun _ => none) (hhandle : base.handle = fun _ => none)
    (hns : base.nameserver = fun _ => {}) (hreleased : base.released = []) (hnext : base.nextNs = 0)
    (hdeferred : base.deferred = []) : base.Inv {} := by
  obtain ⟨hinflight, hwaits, hgood⟩ := hcounts
  refine ⟨?_, ?_, ?_, ?_⟩
  · constructor <;> simp [rings, DnsRings.all, hheads, hwaiting, hservers, hinflight, hwaits, hreq]
  · refine ⟨fun id => ?_, fun h => ?_, by simp [links, hdeferred]⟩
    all_goals constructor <;> simp [links, hreq, hhandle, hns, hdeferred]
  · constructor <;> simp [goods, hservers, hgood, hreleased, hnext]
  · simp [links, DnsLinks.Mentions, hreq, hdeferred]

theorem nameserverAdd_self (base : EvdnsBase) : base.evdnsNameserverAdd.nameserver base.nextNs =
    { state := true, event := !base.disableWhenInactive } := Function.update_self ..

theorem nameserverAdd_other (base : EvdnsBase) (hns : ns ≠ base.nextNs) :
    base.evdnsNameserverAdd.nameserver ns = base.nameserver ns := Function.update_of_ne hns _ _

/-- What holds of a base and is kept when a nameserver is added holds with any number of them. -/
theorem iterate_nameserverAdd {P : EvdnsBase → Prop}
    (hadd : ∀ base, P base → P base.evdnsNameserverAdd) (n : Nat) :
    ∀ base, P base → P (evdnsNameserverAdd^[n] base) :=
  fun _ h => Function.Iterate.rec P h hadd n

/-- A new base, with its first nameservers. -/
theorem inv_new (options : DnsOptions) : (evdnsBaseNew options).Inv {} := by
  have hadded := iterate_nameserverAdd (P := (Inv · {})) (fun _ h => h.nameserverAdd)
    options.nameservers
  refine (hadded _ ?_).congr rfl rfl rfl
  exact inv_empty rfl rfl rfl ⟨rfl, rfl, rfl⟩ rfl rfl rfl rfl rfl rfl

end EvdnsBase

/-- What one step does to a base, unless it adds nameservers, frees them or sets the maximum. -/
theorem dnsStep_spec {env : DnsEnv} {permits : DnsPermits} {action : DnsAction} (h : base.Inv {})
    (hordinary : action.Ordinary) (hallows : base.Allows permits action) :
    Yields base.StepFault (dnsStep env base action) fun base' =>
      base'.Inv {} ∧ EvdnsBase.Stepped env permits (base.Room action) {} {} base base' := by
  have hsame : EvdnsBase.Stepped env permits (base.Room action) {} {} base base :=
    (EvdnsBase.Keeps.refl base {}).stepped.room fun _ => trivial
  cases action with
  | resolve type name noSearch =>
    exact EvdnsBase.toStepFault (EvdnsBase.evdnsBaseResolve_spec env permits h type name noSearch)
  | packet ns transId flags reply =>
    rw [dnsStep]
    split
    · exact EvdnsBase.toStepFault (EvdnsBase.packet_spec h hallows)
    · exact ⟨h, hsame⟩
  | readError ns =>
    rw [dnsStep]
    split
    · next hns =>
      refine EvdnsBase.toStepFault ((EvdnsBase.nameserverFailed_spec env permits h hns).mono ?_)
      rintro base' ⟨h', hkeeps'⟩
      exact ⟨h', hkeeps'.stepped⟩
    · exact ⟨h, hsame⟩
  | writable ns =>
    rw [dnsStep]
    split
    · next hready => exact EvdnsBase.toStepFault (EvdnsBase.nameserverWritable_spec h hready.2.1)
    · exact ⟨h, hsame⟩
  | timeout id =>
    rw [dnsStep]
    split
    · next htimer => exact EvdnsBase.toStepFault (EvdnsBase.requestTimedOut_spec h htimer)
    · exact ⟨h, hsame⟩
  | cancel hd =>
    rw [dnsStep]
    split
    · next huser => exact EvdnsBase.toStepFault (EvdnsBase.cancel_spec h huser)
    · exact ⟨h, hsame⟩
  | probe ns =>
    rw [dnsStep]
    split
    · next hready =>
      exact EvdnsBase.toStepFault (EvdnsBase.nameserverSendProbe_spec env permits h hready.1)
    · exact ⟨h, hsame⟩
  | callback =>
    rw [dnsStep]
    split
    · exact ⟨h, hsame⟩
    next d rest hdeferred =>
    refine Yields.weaken ?_ (EvdnsBase.replyRunCallback_spec env permits h hdeferred ?_)
    · exact fun e he => .inr he
    · exact fun ns => hallows d rest ns hdeferred
  | resume =>
    refine EvdnsBase.toStepFault
      ((EvdnsBase.evdnsRequestsPumpWaitingQueue_spec env permits h rfl).mono ?_)
    rintro base' ⟨h', ⟨n, hkeeps'⟩, hpumped'⟩
    exact ⟨h', fun _ _ => hpumped', hkeeps'.path⟩
  | nameserverAdd => exact hordinary.elim
  | setMaxInflight maxinflight => exact hordinary.elim
  | suspend => exact hordinary.elim

end Libevent
