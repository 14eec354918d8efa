import Libevent.Proofs.Dns.Change

/-!
# `Libevent.Proofs.Dns.Sending`: the functions that send requests

One specification for each function, from `nameserver_pick` to `evdns_requests_pump_waiting_queue`.
Each ends without a fault in a base that satisfies the invariant, and `Keeps` the rest. When the
pump stops, no request is waiting that could be sent (`evdnsRequestsPumpWaitingQueue_spec`).

Sending can make a nameserver fail, and then its requests are given to others; so a specification
speaks about all requests in flight and not only about the one that is sent.
-/

namespace Libevent

open Lib Function

theorem DnsCtx.settle {ctx : DnsCtx} (h : ctx.fresh = none) : { ctx with fresh := none } = ctx := by
  cases ctx
  cases h
  rfl

namespace EvdnsBase

variable {base base' : EvdnsBase} {ctx : DnsCtx} (env : DnsEnv) (permits : DnsPermits) {id ns : Nat}
  {rest : List Nat} {t : Nat} {picked : Option Nat}

/-- Which request is about to be sent does not matter to the invariant. -/
theorem Inv.marks (h : base.Inv ctx) (fresh : Option Nat) : base.Inv { ctx with fresh := fresh } :=
  ⟨h.rings, h.links.toLoose fun _ _ _ hi => hi, h.goods, h.targets⟩

/-! ### Transaction ids -/

/-- An id that `transaction_id_pick` takes is one of no request in flight. -/
theorem unused_of_idUnused {loose : List Nat} (h : base.rings.Ok loose)
    (ht : base.idUnused t = true) : base.Unused t ∧ t ≠ 0xffff := by
  simp only [idUnused, Bool.and_eq_true, decide_eq_true_eq, Option.isNone_iff_eq_none,
    requestFindFromTransId] at ht
  refine ⟨fun id hid ns hplace => ?_, ht.1⟩
  obtain ⟨k, ids, hk, hmem⟩ := mem_flatten_iff_getElem?.mp hid
  obtain ⟨-, hmod, -⟩ := h.inflight k ids hk id hmem _ hplace
  -- the request is in the ring that was searched
  have hring : base.reqHeads.getD (t % base.reqHeads.length) [] = ids := by
    have hmod' : t % base.reqHeads.length = k := hmod
    have hk' : base.reqHeads[k]? = some ids := hk
    rw [hmod', List.getD_eq_getElem?_getD, hk', Option.getD_some]
  obtain ⟨req, hreq, -, heq⟩ := exists_req_of_place hplace
  rw [hring] at ht
  have hnone := List.find?_eq_none.mp ht.2 id hmem
  rw [hreq, Option.any_some, decide_eq_true_eq] at hnone
  exact hnone heq

theorem transactionIdPick_spec (base : EvdnsBase) :
    Yields ctx.Tolerates (base.transactionIdPick env) fun p =>
      p.1 = { base with draws := base.draws + 1 } ∧ base.idUnused p.2 = true := by
  rw [transactionIdPick]
  split
  · next t ht => exact ⟨rfl, List.find?_some ht⟩
  · exact .inl rfl

/-- Which ids are in use depends on the heads and on the ids of the requests. -/
theorem idUnused_congr (hheads : base'.reqHeads = base.reqHeads)
    (hreq : ∀ x, (base'.req x).map (·.transId) = (base.req x).map (·.transId)) (t : Nat) :
    base'.idUnused t = base.idUnused t := by
  have hany : ∀ x, (base'.req x).any (·.transId = t) = (base.req x).any (·.transId = t) := by
    intro x
    have hx := congrArg (Option.any (· = t)) (hreq x)
    simpa only [Option.any_map, Function.comp_def] using hx
  simp only [idUnused, requestFindFromTransId, hheads, hany]

/-! ### Nameservers -/

/-- The loop of `nameserver_pick` finds a nameserver that is up when there is one in the part of the
ring that it goes through. -/
theorem nameserverPickLoop_spec (h : base.Inv ctx) :
    ∀ (n : Nat) (l : List Nat), n ≤ l.length → (∀ ns ∈ l, ns ∈ base.servers) →
      (∃ ns ∈ l.take n, (base.nameserver ns).state = true) →
      Yields ctx.Tolerates (nameserverPickLoop base n l) fun p =>
        ∃ servers, p.1 = { base with servers := servers } ∧ servers.Perm l ∧ p.2 ∈ l := by
  intro n
  induction n with
  | zero =>
    rintro l - - ⟨ns, hns, -⟩
    simp at hns
  | succ n ih =>
    intro l hlen hmem hup
    cases l with
    | nil => simp at hlen
    | cons head rest =>
      refine h.getNameserver_bind (hmem head List.mem_cons_self) ?_
      have hrot := List.perm_append_singleton head rest
      split
      · exact ⟨rest ++ [head], rfl, hrot, List.mem_cons_self⟩
      next hhead =>
      have hup' : ∃ ns ∈ (rest ++ [head]).take n, (base.nameserver ns).state = true := by
        obtain ⟨ns, hns, hstate⟩ := hup
        rcases List.mem_cons.mp hns with rfl | hns
        · exact absurd hstate hhead
        refine ⟨ns, ?_, hstate⟩
        rw [List.take_append]
        exact List.mem_append_left _ hns
      refine (ih (rest ++ [head])
        (by simp only [List.length_append, List.length_cons] at hlen ⊢; omega)
        (fun ns hns => hmem ns (hrot.mem_iff.mp hns)) hup').mono ?_
      rintro p ⟨servers, heq, hperm, hp⟩
      exact ⟨servers, heq, hperm.trans hrot, hrot.mem_iff.mp hp⟩

/-- What `nameserver_pick` returns: the ring has been rotated, and the nameserver is one of it. -/
structure Picked (base base' : EvdnsBase) (picked : Option Nat) : Prop where
  rotated : ∃ servers, base' = { base with servers := servers } ∧ servers.Perm base.servers
  mem : ∀ ns, picked = some ns → ns ∈ base'.servers
  none : picked = none → base.servers = []

theorem Picked.keeps (hpick : Picked base base' picked) (h : base.Inv ctx) :
    base'.Inv ctx ∧ Keeps env permits 0 base ctx base' ctx := by
  obtain ⟨servers, rfl, hperm⟩ := hpick.rotated
  obtain ⟨h', hframe⟩ := h.rotate hperm
  exact ⟨h', hframe, (Change.rotate hperm).path⟩

/-- `nameserver_pick` rotates the ring, and its assertion does not fail. -/
theorem nameserverPick_spec (h : base.Inv ctx) :
    Yields ctx.Tolerates base.nameserverPick fun p => Picked base p.1 p.2 := by
  rw [nameserverPick]
  cases hservers : base.servers with
  | nil => exact ⟨⟨base.servers, rfl, .refl _⟩, nofun, fun _ => hservers⟩
  | cons head rest =>
    have hhead : head ∈ base.servers := hservers ▸ List.mem_cons_self
    have hrot : (rest ++ [head]).Perm base.servers :=
      hservers ▸ List.perm_append_singleton head rest
    by_cases hgood : base.globalGoodNameservers = 0
    · simp only [if_pos hgood]
      refine h.getNameserver_bind hhead ?_
      exact ⟨⟨rest ++ [head], rfl, hrot⟩, fun ns hns => List.mem_of_head? hns,
        fun hnone => by simp at hnone⟩
    simp only [if_neg hgood]
    -- some nameserver is counted as good, so one of the ring is up
    have hup : ∃ ns ∈ base.servers, (base.nameserver ns).state = true := by
      have hcount : base.globalGoodNameservers = base.goods.ring.countP base.goods.up :=
        h.goods.good
      have hpos : 0 < base.goods.ring.countP base.goods.up := by omega
      exact List.countP_pos_iff.mp hpos
    rw [← hservers]
    refine (nameserverPickLoop_spec h base.servers.length base.servers (Nat.le_refl _)
      (fun _ hns => hns) (by rwa [List.take_length])).bind ?_
    rintro ⟨base', ns⟩ ⟨servers, heq, hperm, hmem⟩
    obtain rfl : base' = { base with servers := servers } := heq
    refine ⟨⟨servers, rfl, hperm⟩, ?_, nofun⟩
    rintro n ⟨rfl⟩
    exact hperm.mem_iff.mpr hmem

/-- A request in flight is in the ring of its id, and its nameserver is one of the ring. -/
theorem Inv.fliesTo (h : base.Inv ctx) (hloose : id ∉ ctx.loose)
    (hplace : base.rings.place id = some (some ns, t)) : FliesTo base ctx id ns := by
  obtain ⟨ids, hids, hmem, hserver, -⟩ := h.rings.mem_head hplace hloose
  exact ⟨h, mem_flatten_iff_getElem?.mpr ⟨_, ids, hids, hmem⟩, ⟨t, hplace⟩, hserver⟩

/-- A nameserver counts its requests. -/
theorem FliesTo.load (h : FliesTo base ctx id ns) : 0 < (base.nameserver ns).requestsInflight := by
  obtain ⟨t, hplace⟩ := h.place
  have hcount := h.inv.rings.load ns h.server
  have hpos : 0 < base.rings.heads.flatten.countP (DnsRings.onServer base.rings.place ns) :=
    List.countP_pos_iff.mpr ⟨id, h.flying, by simp [DnsRings.onServer, hplace]⟩
  have hload : base.rings.load ns = (base.nameserver ns).requestsInflight := rfl
  omega

/-- A request in flight gets another nameserver. -/
theorem swapNs_frame {old : Nat} (h : FliesTo base ctx id old) (hloose : id ∉ ctx.loose)
    (hne : old ≠ ns) (hns : ns ∈ base.servers) :
    (base.swapNs id old ns).Inv ctx ∧ Frame ctx.loose 0 base (base.swapNs id old ns) := by
  obtain ⟨t, hplace⟩ := h.place
  obtain ⟨req, hreq, hold, ht⟩ := exists_req_of_place hplace
  rw [swapNs]
  generalize hb1 : modifyNs (modifyNs base old _) ns _ = base1
  have hreq1 : base1.req id = some req := by
    rw [← hb1]
    exact hreq
  have hrings1 : base1.rings.setPlace id (some (some ns, t)) = base.rings.swap id old ns t := by
    rw [← hb1, rings_modifyNs, rings_modifyNs]
    simp only [DnsRings.swap, modifyNs, update_apply]
    split <;> rfl
  have hlinks1 : base1.links = base.links := by
    rw [← hb1, links_modifyNs_eq, links_modifyNs_eq] <;> exact fun _ => rfl
  have hgoods1 : base1.goods = base.goods := by
    rw [← hb1, goods_modifyNs_eq, goods_modifyNs_eq] <;> exact fun _ => rfl
  generalize hb : modifyReq base1 id _ = base'
  have hrings : base'.rings = base.rings.swap id old ns t := by
    rw [← hb, rings_modifyReq_place base1 hreq1, ht]
    · exact hrings1
    · rfl
  have hlinks : base'.links = base.links := by
    rw [← hb, links_modifyReq_eq]
    · exact hlinks1
    · exact fun _ => ⟨rfl, rfl, rfl⟩
  have hgoods : base'.goods = base.goods := by
    rw [← hb]
    exact hgoods1
  have hself : base'.rings.place id = some (some ns, t) := by
    rw [hrings]
    exact update_self ..
  have hsame : ∀ {x}, x ≠ id → base'.rings.place x = base.rings.place x := by
    intro x hx
    rw [hrings]
    exact update_of_ne hx _ _
  refine ⟨h.inv.of_links ?_ hlinks (hgoods ▸ h.inv.goods) (by rw [hgoods]), ?_⟩
  · rw [hrings]
    exact h.inv.rings.swap h.flying hplace hne hns
  exact {
    count := Nat.zero_le _
    links := hlinks
    handle := by rw [← hb, ← hb1]; rfl
    max := by rw [← hb, ← hb1]; rfl
    servers := by rw [← hb, ← hb1]; exact .refl _
    waiting := by rw [← hb, ← hb1]; rfl
    inflight := by rw [← hb, ← hb1]; exact (Int.add_zero _).symm
    flying := by
      intro x ns' t' hx
      by_cases hxid : x = id
      · subst hxid
        cases hplace.symm.trans hx
        exact ⟨ns, hself⟩
      · exact ⟨ns', (hsame hxid).trans hx⟩
    origin := by
      intro x ns' t' hx
      by_cases hxid : x = id
      · subst hxid
        cases hself.symm.trans hx
        exact .inl ⟨old, hplace⟩
      · exact .inl ⟨ns', (hsame hxid).symm.trans hx⟩
    aside := fun x hx => hsame fun heq => hloose (heq ▸ hx)
    down := fun _ hup => hgoods ▸ hup }

/-- `request_swap_ns` for a request in flight changes its nameserver, or nothing. -/
theorem requestSwapNs_spec (h : base.Inv ctx) (hid : base.Flying ctx.loose id)
    (hpicked : ∀ ns, picked = some ns → ns ∈ base.servers) :
    Yields ctx.Tolerates (base.requestSwapNs id picked) fun base' =>
      base' = base ∨ ∃ old ns, FliesTo base ctx id old ∧ old ≠ ns ∧ ns ∈ base.servers ∧
        base' = base.swapNs id old ns := by
  cases picked with
  | none => exact .inl rfl
  | some ns =>
    obtain ⟨hloose, old, t, hplace⟩ := hid
    obtain ⟨req, hreq, hold, -⟩ := exists_req_of_place hplace
    rw [requestSwapNs, getReq_eq hreq, yields_ok_bind]
    split
    · exact .inl rfl
    next hne =>
    have hne' : old ≠ ns := by
      rintro rfl
      exact hne hold
    have hflies := h.fliesTo hloose hplace
    rw [getNs, hold]
    -- the nameserver that it had counts it, so the assertion holds
    refine h.getNameserver_bind hflies.server ?_
    rw [if_pos hflies.load]
    refine h.getNameserver_bind (hpicked ns rfl) ?_
    exact .inr ⟨old, ns, hflies, hne', hpicked ns rfl, rfl⟩

theorem reassign_spec (h : base.Inv ctx) (ns : Nat) (hid : base.Flying ctx.loose id) :
    Yields ctx.Tolerates (reassign ns base id) (Kept env permits ctx base) := by
  obtain ⟨old, t, hplace⟩ := hid.2
  obtain ⟨req, hreq, -⟩ := exists_req_of_place hplace
  rw [reassign, getReq_eq hreq, yields_ok_bind]
  split
  · next hmove =>
    refine (nameserverPick_spec h).bind ?_
    rintro ⟨base1, picked⟩ hpick
    obtain ⟨h1, hkeeps1⟩ := hpick.keeps env permits h
    have hreq1 : base1.req id = some req := by
      obtain ⟨servers, rfl, -⟩ := hpick.rotated
      exact hreq
    refine (requestSwapNs_spec h1 (hid.keep hkeeps1.toFrame) hpick.mem).mono ?_
    rintro base2 (rfl | ⟨old', new, hflies, hne, hnew, rfl⟩)
    · exact ⟨h1, hkeeps1⟩
    · obtain ⟨h2, hframe2⟩ := swapNs_frame hflies hid.1 hne hnew
      exact ⟨h2, hkeeps1.trans ⟨hframe2, (Change.reassign hflies hreq1 hmove.1 hne hnew).path⟩ rfl⟩
  · exact ⟨h, .refl _ _⟩

/-- What is done to each request in flight, one after another. -/
theorem foldlM_spec {f : EvdnsBase → Nat → Except DnsFault EvdnsBase}
    (hf : ∀ (base : EvdnsBase) (id : Nat), base.Inv ctx → base.Flying ctx.loose id →
      Yields ctx.Tolerates (f base id) (Kept env permits ctx base)) :
    ∀ {ids : List Nat} {base : EvdnsBase}, base.Inv ctx → (∀ id ∈ ids, base.Flying ctx.loose id) →
      Yields ctx.Tolerates (ids.foldlM f base) (Kept env permits ctx base) := by
  intro ids
  induction ids with
  | nil =>
    intro base h _
    exact ⟨h, .refl _ _⟩
  | cons id ids ih =>
    intro base h hids
    refine (hf base id h (hids id List.mem_cons_self)).bind ?_
    rintro base1 ⟨h1, hkeeps1⟩
    refine (ih h1 fun x hx => (hids x (List.mem_cons_of_mem id hx)).keep hkeeps1.toFrame).mono ?_
    rintro base2 ⟨h2, hkeeps2⟩
    exact ⟨h2, hkeeps1.trans hkeeps2 rfl⟩

section
variable (h : base.Inv ctx)
include h

/-- A nameserver that was up is marked as down. -/
theorem markDown_frame (hns : ns ∈ base.servers) (hup : (base.nameserver ns).state = true) :
    (base.markDown ns).Inv ctx ∧ Keeps env permits 0 base ctx (base.markDown ns) ctx := by
  let down : Nameserver → Nameserver := fun server =>
    { server with state := false, failedTimes := 1, timer := true }
  have hrings : (base.markDown ns).rings = base.rings :=
    rings_modifyNs_eq base ns (f := down) fun _ => rfl
  have hlinks : (base.markDown ns).links = base.links :=
    links_modifyNs_eq base ns (f := down) fun _ => rfl
  have hup' : base.goods.up ns = true := hup
  have hgoods : (base.markDown ns).goods = base.goods.setUp ns false := by
    have hview := goods_modifyNs base ns down
    rw [DnsServers.setUp, hup']
    simp only [goods, DnsServers.mk.injEq, markDown] at hview ⊢
    refine ⟨hview.1, hview.2.1, ?_, hview.2.2.2.1, hview.2.2.2.2⟩
    simp
  refine ⟨h.of_links (hrings ▸ h.rings) hlinks (hgoods ▸ h.goods.setUp hns false) rfl, ?_,
    (Change.down ns).path⟩
  refine .of_rings hrings hlinks rfl rfl fun n hn => ?_
  rw [hgoods] at hn
  by_cases hne : n = ns
  · subst hne
    exact hup'
  · exact (update_of_ne hne _ _).symm.trans hn

theorem nameserverFailed_spec (hns : ns ∈ base.servers) :
    Yields ctx.Tolerates (base.nameserverFailed ns) (Kept env permits ctx base) := by
  refine h.getNameserver_bind hns ?_
  split
  · next hup =>
    obtain ⟨h1, hkeeps1⟩ := markDown_frame env permits h hns hup
    -- the nameserver was counted, so the counter has not become negative
    have hgood : ¬ (base.markDown ns).globalGoodNameservers < 0 := by
      have hcount : (base.markDown ns).globalGoodNameservers =
          (base.markDown ns).servers.countP (base.markDown ns).goods.up := h1.goods.good
      omega
    rw [if_neg hgood]
    split
    · exact ⟨h1, hkeeps1⟩
    refine (foldlM_spec env permits (fun base id h hid => reassign_spec env permits h ns hid) h1
      fun id hid =>
      h1.flying_of_mem hid).mono ?_
    rintro base2 ⟨h2, hkeeps2⟩
    exact ⟨h2, hkeeps1.trans hkeeps2 rfl⟩
  · exact ⟨h, .refl _ _⟩

/-! ### Sending -/

/-- The event of a socket is added, and a packet is sent. -/
theorem startSend_frame (ns : Nat) :
    (base.startSend ns).Inv ctx ∧ Frame ctx.loose 0 base (base.startSend ns) := by
  obtain ⟨h1, hframe1⟩ := h.touchNs ns (f := base.startEvent) fun _ => ⟨rfl, rfl, rfl⟩
  have hframe2 : Frame ctx.loose 0 (base.modifyNs ns base.startEvent) (base.startSend ns) :=
    .of_rings rfl rfl rfl rfl fun _ hup => hup
  exact ⟨h1.congr rfl rfl rfl, hframe1.trans hframe2⟩

theorem nameserverWriteWaiting_frame (ns : Nat) (waiting : Bool) :
    (base.nameserverWriteWaiting ns waiting).Inv ctx ∧
      Frame ctx.loose 0 base (base.nameserverWriteWaiting ns waiting) := by
  rw [nameserverWriteWaiting]
  split
  · exact ⟨h, .refl _ _⟩
  · exact h.touchNs ns fun _ => ⟨rfl, rfl, rfl⟩

theorem noteChoked_frame (ns : Nat) :
    (base.noteChoked ns).Inv ctx ∧ Frame ctx.loose 0 base (base.noteChoked ns) := by
  obtain ⟨h1, hframe1⟩ := h.touchNs ns (f := fun server => { server with choked := true })
    fun _ => ⟨rfl, rfl, rfl⟩
  obtain ⟨h2, hframe2⟩ := nameserverWriteWaiting_frame h1 ns true
  exact ⟨h2, hframe1.trans hframe2⟩

end

section
variable (h : base.Inv ctx) (hid : base.Flying ctx.loose id)
include h hid

theorem noteTried_frame :
    (base.noteTried id).Inv ctx ∧ Keeps env permits 0 base ctx (base.noteTried id) ctx := by
  obtain ⟨-, ns, t, hplace⟩ := hid
  obtain ⟨req, hreq, hns, -⟩ := exists_req_of_place hplace
  obtain ⟨h1, hframe1⟩ := h.touchReq hreq (f := fun req =>
    { req with timer := true, txCount := req.txCount + 1, transmitMe := false })
    ⟨rfl, rfl⟩ (fun _ => ⟨rfl, rfl, rfl⟩) fun _ => .inr (by rw [hns]; rfl)
  have hf : ReqDetails fun req =>
      { req with timer := true, txCount := req.txCount + 1, transmitMe := false } := fun req =>
    ⟨rfl, rfl, rfl, rfl, Nat.le_succ req.txCount, .inl rfl⟩
  exact ⟨h1, hframe1, (Change.reqDetails id hf).path⟩

theorem noteSent_frame (ns : Nat) :
    (base.noteSent id ns).Inv ctx ∧ Frame ctx.loose 0 base (base.noteSent id ns) := by
  obtain ⟨h1, hkeeps1⟩ := noteTried_frame ⟨fun _ => [], fun _ => .sent⟩ {} h hid
  obtain ⟨-, ns', t, hplace⟩ := hid.keep hkeeps1.toFrame
  obtain ⟨req, hreq, -⟩ := exists_req_of_place hplace
  obtain ⟨h2, hframe2⟩ := h1.touchReq hreq (f := fun req => { req with sentTo := some ns })
    ⟨rfl, rfl⟩ (fun _ => ⟨rfl, rfl, rfl⟩) .inl
  exact ⟨h2, hkeeps1.toFrame.trans hframe2⟩

theorem markReq_frame :
    (base.markReq id).Inv ctx ∧ Keeps env permits 0 base ctx (base.markReq id) ctx := by
  obtain ⟨-, ns, t, hplace⟩ := hid
  obtain ⟨req, hreq, -⟩ := exists_req_of_place hplace
  obtain ⟨h1, hframe1⟩ := h.touchReq hreq (f := fun req => { req with transmitMe := true })
    ⟨rfl, rfl⟩ (fun _ => ⟨rfl, rfl, rfl⟩) .inl
  have hf : ReqDetails fun req => { req with transmitMe := true } := fun _ =>
    ⟨rfl, rfl, rfl, rfl, Nat.le_refl _, .inl rfl⟩
  exact ⟨h1, hframe1, (Change.reqDetails id hf).path⟩

end

/-- What follows on `sendto`, for each of its results. -/
theorem evdnsRequestTransmitTo_bind (h : FliesTo base ctx id ns) (hloose : id ∉ ctx.loose)
    (hdue : DueOnly ctx id) (hchoked : (base.nameserver ns).choked = false) :
    Yields ctx.Tolerates (base.evdnsRequestTransmitTo env ns >>= fun p =>
        match p.2 with
        | .retriable => pure (p.1.noteChoked ns)
        | .failed => pure (p.1.noteTried id)
        | .sent => pure (p.1.noteSent id ns)) fun base' =>
      base'.Inv { ctx with fresh := none } ∧
        Keeps env permits 0 base ctx base' { ctx with fresh := none } := by
  obtain ⟨t, hplace⟩ := h.place
  have hid : base.Flying ctx.loose id := ⟨hloose, ns, t, hplace⟩
  obtain ⟨h1, hframe1⟩ := startSend_frame h.inv ns
  have hid1 := hid.keep hframe1
  rw [evdnsRequestTransmitTo, bind_assoc]
  refine h.inv.getNameserver_bind h.server ?_
  cases hsend : env.sendto base.sends with
  | sent =>
    obtain ⟨h2, hframe2⟩ := noteSent_frame h1 hid1 ns
    exact ⟨h2.marks none, hframe1.trans hframe2, (Change.sent h hdue hchoked).path⟩
  | retriable =>
    obtain ⟨h2, hframe2⟩ := noteChoked_frame h1 ns
    exact ⟨h2.marks none, hframe1.trans hframe2, (Change.choke h hdue hsend).path⟩
  | failed =>
    have hserver : ns ∈ (base.startSend ns).servers := h.server
    refine Yields.bind (P := fun p => p.2 = .failed ∧ p.1.Inv { ctx with fresh := none } ∧
      Keeps env permits 0 (base.startSend ns) { ctx with fresh := none } p.1
        { ctx with fresh := none }) ?_ ?_
    · refine (nameserverFailed_spec env permits (h1.marks none) hserver).bind ?_
      rintro base2 ⟨h2, hkeeps2⟩
      exact ⟨rfl, h2, hkeeps2⟩
    rintro ⟨base2, result⟩ ⟨hresult, h2, hkeeps2⟩
    obtain rfl : result = .failed := hresult
    have hkeeps1 : Keeps env permits 0 base ctx (base.startSend ns) { ctx with fresh := none } :=
      ⟨hframe1, (Change.fail h hdue hchoked hsend).path⟩
    obtain ⟨h3, hkeeps3⟩ := noteTried_frame env permits h2 (hid1.keep hkeeps2.toFrame)
    exact ⟨h3, (hkeeps1.trans hkeeps2 rfl).trans hkeeps3 rfl⟩

/-- A request that may be the one that is about to be sent. -/
theorem evdnsRequestTransmit_due (h : base.Inv ctx) (hid : base.Flying ctx.loose id)
    (hdue : DueOnly ctx id) :
    Yields ctx.Tolerates (base.evdnsRequestTransmit env id) fun base' =>
      base'.Inv { ctx with fresh := none } ∧
        Keeps env permits 0 base ctx base' { ctx with fresh := none } := by
  rw [evdnsRequestTransmit, h.assertValid hid, yields_ok_bind]
  obtain ⟨h1, hkeeps1⟩ := markReq_frame env permits h hid
  have hid1 := hid.keep hkeeps1.toFrame
  obtain ⟨hloose, ns, t, hplace⟩ := hid1
  obtain ⟨req, hreq, hns, ht⟩ := exists_req_of_place hplace
  obtain ⟨-, -, -, -, hmax⟩ := h1.rings.mem_head hplace hloose
  have hflies := h1.fliesTo hloose hplace
  dsimp only
  rw [getReq_eq hreq, yields_ok_bind, if_neg (ht ▸ hmax), hns]
  refine h1.getNameserver_bind hflies.server ?_
  split
  · next hchoked =>
    exact ⟨h1.marks none, hkeeps1.toFrame, hkeeps1.path.change (.skip hflies hdue hchoked)⟩
  next hchoked =>
  refine (evdnsRequestTransmitTo_bind env permits hflies hloose hdue
    (Bool.eq_false_iff.mpr hchoked)).mono ?_
  rintro base2 ⟨h2, hkeeps2⟩
  exact ⟨h2, hkeeps1.trans hkeeps2 rfl⟩

section
variable (h : base.Inv ctx) (hfresh : ctx.fresh = none)
include h hfresh

theorem evdnsRequestTransmit_spec (hid : base.Flying ctx.loose id) :
    Yields ctx.Tolerates (base.evdnsRequestTransmit env id) (Kept env permits ctx base) := by
  have hspec := evdnsRequestTransmit_due env permits h hid (.inl hfresh)
  rw [DnsCtx.settle hfresh] at hspec
  exact hspec

theorem transmitIfMarked_spec (hid : base.Flying ctx.loose id) :
    Yields ctx.Tolerates (transmitIfMarked env base id) (Kept env permits ctx base) := by
  obtain ⟨ns, t, hplace⟩ := hid.2
  obtain ⟨req, hreq, -⟩ := exists_req_of_place hplace
  rw [transmitIfMarked, getReq_eq hreq, yields_ok_bind]
  split
  · exact evdnsRequestTransmit_spec env permits h hfresh hid
  · exact ⟨h, .refl _ _⟩

theorem evdnsTransmit_spec :
    Yields ctx.Tolerates (base.evdnsTransmit env) (Kept env permits ctx base) :=
  foldlM_spec env permits (fun _ _ h hid => transmitIfMarked_spec env permits h hfresh hid) h
    fun _ hid =>
    h.flying_of_mem hid

end

/-! ### The pump -/

section
variable (hvalid : base.assertValidRequest id = .ok ())
include hvalid

theorem evdnsRequestRemove_waiting : base.evdnsRequestRemove id .waiting =
      .ok { base with reqWaitingHead := base.reqWaitingHead.erase id } := by
  rw [evdnsRequestRemove, hvalid]
  rfl

theorem evdnsRequestRemove_head (k : Nat) : base.evdnsRequestRemove id (.head k) =
      .ok { base with reqHeads := base.reqHeads.modify k (·.erase id) } := by
  rw [evdnsRequestRemove, hvalid]
  rfl

theorem evdnsRequestInsert_waiting : base.evdnsRequestInsert id .waiting =
      .ok { base with reqWaitingHead := base.reqWaitingHead ++ [id] } := by
  rw [evdnsRequestInsert, hvalid]
  rfl

theorem evdnsRequestInsert_head (k : Nat) : base.evdnsRequestInsert id (.head k) =
      .ok { base with reqHeads := base.reqHeads.modify k (· ++ [id]) } := by
  rw [evdnsRequestInsert, hvalid]
  rfl

end

/-- No request is waiting that could be sent. -/
def Pumped (base : EvdnsBase) : Prop :=
  base.servers ≠ [] →
    base.reqWaitingHead = [] ∨ base.globalMaxRequestsInflight ≤ base.globalRequestsInflight

section
variable (base id ns)

/-- The rings after a request has been put into flight. -/
theorem rings_launchReq (t : Nat) : (base.launchReq id ns t).rings = base.rings.launch id ns t := by
  have hview := congrArg DnsRings.load (rings_modifyNs base ns Nameserver.more)
  exact DnsRings.ext rfl rfl rfl rfl rfl rfl hview rfl rfl

theorem links_launchReq (t : Nat) : (base.launchReq id ns t).links = base.links :=
  links_modifyNs_eq base ns (f := Nameserver.more) fun _ => rfl

theorem goods_launchReq (t : Nat) : (base.launchReq id ns t).goods = base.goods :=
  goods_modifyNs_eq base ns (f := Nameserver.more) fun _ => rfl

end

section
variable (h : base.Inv ctx) (hwaiting : base.reqWaitingHead = id :: rest) (hns : ns ∈ base.servers)
include h hwaiting hns

/-- The first request that waits is put into flight. -/
theorem moveReq_frame (ht : t ≠ 0xffff) :
    (base.moveReq id ns t).Inv ctx ∧ Frame ctx.loose 1 base (base.moveReq id ns t) ∧
      (base.moveReq id ns t).Flying ctx.loose id := by
  obtain ⟨hmem, t0, req, hplace0, hreq, -⟩ := h.first_waits hwaiting
  have hout := h.rings.unwait hmem
  have hloose := hout.not_mem_rings.2.2
  have hrings : (base.moveReq id ns t).rings =
      ((base.rings.unwait id).setPlace id (some (some ns, t))).launch id ns t := by
    rw [moveReq, rings_launchReq]
    have hview := rings_modifyReq_place base hreq (f := assigned ns t) rfl
    exact congrArg (fun v : DnsRings => (v.unwait id).launch id ns t) hview
  have hlinks : (base.moveReq id ns t).links = base.links := by
    rw [moveReq, links_launchReq]
    exact links_modifyReq_eq base id (f := assigned ns t) fun _ => ⟨rfl, rfl, rfl⟩
  have hgoods : (base.moveReq id ns t).goods = base.goods := by
    rw [moveReq, goods_launchReq]
    rfl
  have hself : (base.moveReq id ns t).rings.place id = some (some ns, t) := by
    rw [hrings]
    exact update_self ..
  have hsame : ∀ {x}, x ≠ id → (base.moveReq id ns t).rings.place x = base.rings.place x := by
    intro x hx
    rw [hrings]
    exact update_of_ne hx _ _
  refine ⟨h.of_links ?_ hlinks (hgoods ▸ h.goods) (by rw [hgoods]), ?_, hloose, ns, t, hself⟩
  · rw [hrings]
    exact hout.setLoose.launch (update_self ..) hns ht
  exact {
    count := by
      rw [hwaiting, List.length_cons]
      omega
    links := hlinks
    handle := rfl
    max := rfl
    servers := .refl _
    waiting := by
      show base.reqWaitingHead.erase id = _
      rw [hwaiting, List.erase_cons_head]
      rfl
    inflight := rfl
    flying := by
      intro x ns' t' hx
      by_cases hxid : x = id
      · subst hxid
        cases hplace0.symm.trans hx
      · exact ⟨ns', (hsame hxid).trans hx⟩
    origin := by
      intro x ns' t' hx
      by_cases hxid : x = id
      · subst hxid
        exact .inr (by rw [hwaiting]; exact List.mem_cons_self)
      · exact .inl ⟨ns', (hsame hxid).symm.trans hx⟩
    aside := fun x hx => hsame fun heq => hloose (heq ▸ hx)
    down := fun _ hup => hgoods ▸ hup }

/-- A waiting request is moved into flight, under an unused transaction id. -/
theorem moveWaiting_spec : Yields ctx.Tolerates
      ((base.modifyReq id fun req => { req with ns := some ns }).moveWaiting env id ns)
      fun base' => ∃ t, base' = base.moveReq id ns t ∧ base.Unused t ∧ t ≠ 0xffff := by
  obtain ⟨hmem, t0, req, hplace, hreq, -⟩ := h.first_waits hwaiting
  have hloose : id ∉ ctx.loose := fun hid =>
    (List.nodup_append.mp h.rings.nodup).2.2 id (List.mem_append_left _ hmem) id hid rfl
  obtain ⟨hd, hhd⟩ := h.owner hreq hloose
  have howner := owner_of_req hreq hhd
  -- the request stays valid, since the links do not change
  have hvalid : ∀ {base' : EvdnsBase}, base'.links = base.links →
      base'.assertValidRequest id = .ok () := fun hlinks =>
    assertValidRequest_eq (hlinks ▸ h.links) (by rw [hlinks]; exact howner)
  have hlinks0 : (base.modifyReq id fun req => { req with ns := some ns }).links = base.links :=
    links_modifyReq_eq base id fun _ => ⟨rfl, rfl, rfl⟩
  refine h.useNameserver_bind hns rfl ?_
  dsimp only
  generalize hb1 : modifyNs (modifyReq base id _) ns _ = base1
  have hlinks1 : base1.links = base.links := by
    rw [← hb1, links_modifyNs_eq]
    · exact hlinks0
    · exact fun _ => rfl
  rw [evdnsRequestRemove_waiting (hvalid hlinks1)]
  refine (transactionIdPick_spec env _).bind ?_
  rintro ⟨base2, t⟩ ⟨rfl, ht⟩
  -- the request that is moved is in no ring, so it does not matter to the pick
  have ht' : base.idUnused t = true := by
    refine (idUnused_congr ?_ (fun x => ?_) t).symm.trans ht
    · rw [← hb1]
      rfl
    rw [← hb1]
    by_cases hx : x = id
    · subst hx
      simp only [modifyNs, modifyReq, update_self, Option.map_map, Function.comp_def]
    · simp only [modifyNs, modifyReq, update_of_ne hx]
  obtain ⟨hunused, hmax⟩ := unused_of_idUnused h.rings ht'
  generalize hb3 : requestTransIdSet _ id t = base3
  have hlinks3 : base3.links = base.links := by
    rw [← hb3, requestTransIdSet, links_modifyReq_eq]
    · exact hlinks1
    · exact fun _ => ⟨rfl, rfl, rfl⟩
  rw [reqHead, evdnsRequestInsert_head (hvalid hlinks3)]
  refine ⟨t, ?_, hunused, hmax⟩
  rw [← hb3, ← hb1]
  simp only [requestTransIdSet, modifyReq, modifyNs, update_idem, update_self, Option.map_map]
  rfl

end

/-- One turn of the loop: the first request that waits is sent. -/
theorem pumpTurn_spec (h : base.Inv ctx) (hfresh : ctx.fresh = none)
    (hwaiting : base.reqWaitingHead = id :: rest) (hns : ns ∈ base.servers) :
    Yields ctx.Tolerates (do
        let base ← (base.modifyReq id fun req => { req with ns := some ns }).moveWaiting env id ns
        let base ← base.evdnsRequestTransmit env id
        base.evdnsTransmit env) fun base' =>
      base'.Inv ctx ∧ Keeps env permits 1 base ctx base' ctx := by
  refine (moveWaiting_spec env h hwaiting hns).bind ?_
  rintro base1 ⟨t, rfl, hunused, ht⟩
  obtain ⟨h1, hframe1, hid1⟩ := moveReq_frame h hwaiting hns ht
  have hkeeps1 :
      Keeps env permits 1 base ctx (base.moveReq id ns t) { ctx with fresh := some id } :=
    ⟨hframe1, (Change.move h hfresh hwaiting hunused).path⟩
  have hspec := evdnsRequestTransmit_due env permits (h1.marks (some id)) hid1 (.inr rfl)
  rw [DnsCtx.settle hfresh] at hspec
  refine Yields.bind (P := fun base2 : EvdnsBase => base2.Inv ctx ∧
    Keeps env permits 0 (base.moveReq id ns t) { ctx with fresh := some id } base2 ctx) hspec ?_
  rintro base2 ⟨h2, hkeeps2⟩
  refine (evdnsTransmit_spec env permits h2 hfresh).mono ?_
  rintro base3 ⟨h3, hkeeps3⟩
  exact ⟨h3, (hkeeps1.trans hkeeps2 rfl).trans hkeeps3 rfl⟩

/-- With fuel for each waiting request, the pump ends when no other one can be sent. -/
theorem pumpLoop_spec (hfresh : ctx.fresh = none) : ∀ (n : Nat) (base : EvdnsBase), base.Inv ctx →
    base.reqWaitingHead.length ≤ n →
    Yields ctx.Tolerates (pumpLoop env n base) fun base' =>
      base'.Inv ctx ∧ (∃ m, Keeps env permits m base ctx base' ctx) ∧ base'.Pumped := by
  intro n
  induction n with
  | zero =>
    intro base h hlen
    exact ⟨h, ⟨0, .refl _ _⟩, fun _ => .inl (List.length_eq_zero_iff.mp (Nat.le_zero.mp hlen))⟩
  | succ n ih =>
    intro base h hlen
    have hcount : base.globalRequestsWaiting = base.reqWaitingHead.length := h.rings.waitingCount
    rw [pumpLoop]
    split
    · next hgo =>
      cases hwaiting : base.reqWaitingHead with
      | nil =>
        rw [hwaiting] at hcount
        exact absurd hcount hgo.2
      | cons id rest =>
        refine (nameserverPick_spec h).bind ?_
        rintro ⟨base1, picked⟩ hpick
        obtain ⟨h1, hkeeps1⟩ := hpick.keeps env permits h
        have hwaiting1 : base1.reqWaitingHead = id :: rest := hkeeps1.waiting.trans hwaiting
        cases picked with
        | none =>
          -- there is no nameserver, and the request has none already
          have hempty : base1.servers = [] := by
            have hperm := hkeeps1.servers
            rw [hpick.none rfl] at hperm
            exact List.perm_nil.mp hperm
          obtain ⟨-, -, req, -, hreq, hns⟩ := h1.first_waits hwaiting1
          have hsame : (base1.modifyReq id fun req => { req with ns := none }) = base1 := by
            have hupdate : update base1.req id
                ((base1.req id).map fun req => { req with ns := none }) = base1.req := by
              refine update_eq_self_iff.mpr ?_
              rw [hreq, Option.map_some, ← hns]
            rw [modifyReq, hupdate]
          dsimp only
          rw [hsame]
          exact ⟨h1, ⟨0, hkeeps1⟩, fun hne => absurd hempty hne⟩
        | some ns =>
          have hturn := (pumpTurn_spec env permits h1 hfresh hwaiting1 (hpick.mem ns rfl)).bind
            (f := pumpLoop env n) (Q := fun base' => base'.Inv ctx ∧
              (∃ m, Keeps env permits m base ctx base' ctx) ∧ base'.Pumped) fun base2 h2 => by
            obtain ⟨h2, hkeeps2⟩ := h2
            have hkeeps := hkeeps1.trans hkeeps2 rfl
            have hlen2 : base2.reqWaitingHead.length ≤ n := by
              rw [hkeeps.waiting, List.length_drop]
              omega
            refine (ih base2 h2 hlen2).mono ?_
            rintro base3 ⟨h3, ⟨m, hkeeps3⟩, hpumped⟩
            exact ⟨h3, ⟨_, hkeeps.trans hkeeps3 rfl⟩, hpumped⟩
          simpa only [bind_assoc] using hturn
    · next hstop =>
      refine ⟨h, ⟨0, .refl _ _⟩, fun _ => ?_⟩
      by_cases hmax : base.globalMaxRequestsInflight ≤ base.globalRequestsInflight
      · exact .inr hmax
      · exact .inl (List.length_eq_zero_iff.mp (by omega))

theorem evdnsRequestsPumpWaitingQueue_spec (h : base.Inv ctx) (hfresh : ctx.fresh = none) :
    Yields ctx.Tolerates (base.evdnsRequestsPumpWaitingQueue env) fun base' =>
      base'.Inv ctx ∧ (∃ m, Keeps env permits m base ctx base' ctx) ∧ base'.Pumped :=
  pumpLoop_spec env permits hfresh base.reqWaitingHead.length base h (Nat.le_refl _)

end EvdnsBase

end Libevent
