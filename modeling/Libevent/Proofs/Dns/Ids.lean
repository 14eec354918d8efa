import Libevent.Proofs.Dns.Bookkeeping

/-!
# `Libevent.Proofs.Dns.Ids`: transaction ids

`transaction_id_pick` compares the number it has drawn with the ids of the requests in flight. The
id is still free when the request is sent, except in one place: `search_try_next` picks the id of
the next request, then finishes the old one, and that pumps the waiting queue. A request that was
waiting may draw the same id and be sent before the new one is. This takes a base in which a request
waits although it could be sent, as there is one after the maximum has been raised or a nameserver
has been added to an empty ring (`searchTryNext_same_id`). `dnsRun_unique` is for the other runs.
-/

namespace Libevent

open Lib

namespace EvdnsBase

variable {base base' : EvdnsBase} {ctx ctx' : DnsCtx} {env : DnsEnv} {permits : DnsPermits}
  {id : Nat} {action : DnsAction}

/-- The ids of the requests in flight are distinct, and every packet starts with the id of its
request. -/
structure Unique (base : EvdnsBase) : Prop where
  distinct : ∀ x ∈ base.reqHeads.flatten, ∀ y ∈ base.reqHeads.flatten, ∀ nx ny t,
    base.rings.place x = some (nx, t) → base.rings.place y = some (ny, t) → x = y
  packet : ∀ id req, base.req id = some req → req.packetId = htons req.transId

section
variable (h : base.Unique) {f : DnsRequest → DnsRequest}
include h

/-- No request enters a ring, and none changes its id. -/
theorem Unique.mono (hheads : ∀ x ∈ base'.reqHeads.flatten, x ∈ base.reqHeads.flatten) (hreq : ∀ id
      req', base'.req id = some req' → ∃ req, base.req id = some req ∧ req'.transId = req.transId ∧
      req'.packetId = req.packetId) : base'.Unique where
  distinct := by
    intro x hx y hy nx ny t hxt hyt
    obtain ⟨rx', hrx', -, hx'⟩ := exists_req_of_place hxt
    obtain ⟨ry', hry', -, hy'⟩ := exists_req_of_place hyt
    obtain ⟨rx, hrx, htx, -⟩ := hreq x rx' hrx'
    obtain ⟨ry, hry, hty, -⟩ := hreq y ry' hry'
    refine h.distinct x (hheads x hx) y (hheads y hy) rx.ns ry.ns t ?_ ?_
    · rw [place_of_req hrx rfl, ← htx, hx']
    · rw [place_of_req hry rfl, ← hty, hy']
  packet := by
    intro id req' hreq'
    obtain ⟨req, hold, ht, hp⟩ := hreq id req' hreq'
    rw [hp, ht]
    exact h.packet id req hold

theorem Unique.congr (hheads : base'.reqHeads = base.reqHeads) (hreq : base'.req = base.req) :
    base'.Unique :=
  h.mono (fun _ hx => hheads ▸ hx) fun _ req' hreq' => ⟨req', hreq ▸ hreq', rfl, rfl⟩

/-- One request changes, and keeps its id and its packet. -/
theorem Unique.modifyReq
    (hf : ∀ req, (f req).transId = req.transId ∧ (f req).packetId = req.packetId) :
    (base.modifyReq id f).Unique := by
  refine h.mono (fun x hx => hx) fun x req' hreq' => ?_
  rcases modifyReq_cases hreq' with ⟨rfl, old, hold, rfl⟩ | ⟨-, hold⟩
  · exact ⟨old, hold, hf old⟩
  · exact ⟨req', hold, rfl, rfl⟩

theorem Unique.swapNs (id old ns : Nat) : (base.swapNs id old ns).Unique := by
  refine Unique.modifyReq (f := fun req => { req with ns := some ns }) ?_ fun _ => ⟨rfl, rfl⟩
  exact h.congr rfl rfl

theorem Unique.noteSent (id ns : Nat) : (base.noteSent id ns).Unique := by
  refine Unique.modifyReq (f := fun req => { req with sentTo := some ns }) ?_ fun _ => ⟨rfl, rfl⟩
  exact h.modifyReq fun _ => ⟨rfl, rfl⟩

/-- A request that is in no ring changes. -/
theorem Unique.modifyAside (hid : id ∉ base.reqHeads.flatten)
    (hf : ∀ req, base.req id = some req → (f req).packetId = htons (f req).transId) :
    (base.modifyReq id f).Unique where
  distinct := by
    intro x hx y hy nx ny t hxt hyt
    have hne : ∀ {z}, z ∈ base.reqHeads.flatten → (base.modifyReq id f).rings.place z =
        base.rings.place z := by
      intro z hz
      have hzid : z ≠ id := fun heq => hid (heq ▸ hz)
      have hsame : (base.modifyReq id f).req z = base.req z := Function.update_of_ne hzid _ _
      exact congrArg (Option.map fun req => (req.ns, req.transId)) hsame
    rw [hne hx] at hxt
    rw [hne hy] at hyt
    exact h.distinct x hx y hy nx ny t hxt hyt
  packet := by
    intro x req' hreq'
    rcases modifyReq_cases hreq' with ⟨rfl, old, hold, rfl⟩ | ⟨-, hold⟩
    · exact hf old hold
    · exact h.packet x req' hold

/-- A request with a free id is put into flight. -/
theorem Unique.launchReq (hpos : 0 < base.reqHeads.length) {ns t : Nat} {n : Option Nat}
    (hplace : base.rings.place id = some (n, t)) (ht : base.Unused t) :
    (base.launchReq id ns t).Unique where
  distinct := by
    have hperm := flatten_modify_append base.reqHeads (Nat.mod_lt t hpos) id
    intro x hx y hy nx ny u hxu hyu
    have hx' : base.rings.place x = some (nx, u) := hxu
    have hy' : base.rings.place y = some (ny, u) := hyu
    -- the new request is the only one with its id
    rcases List.mem_cons.mp (hperm.mem_iff.mp hx) with rfl | hxold
    · rcases List.mem_cons.mp (hperm.mem_iff.mp hy) with rfl | hyold
      · rfl
      rw [hplace] at hx'
      cases hx'
      exact absurd hy' (ht y hyold ny)
    rcases List.mem_cons.mp (hperm.mem_iff.mp hy) with rfl | hyold
    · rw [hplace] at hy'
      cases hy'
      exact absurd hx' (ht x hxold nx)
    · exact h.distinct x hxold y hyold nx ny u hx' hy'
  packet := h.packet

/-- A request that is made is in no ring. -/
theorem Unique.newReq (hinv : base.Inv ctx) {req : DnsRequest}
    (hpacket : req.packetId = htons req.transId) : (base.newReq req).1.Unique := by
  have hheads : (base.newReq req).1.reqHeads = base.reqHeads := by
    rw [EvdnsBase.newReq]
    split <;> rfl
  have hold : ∀ {x n u}, x ∈ base.reqHeads.flatten →
      (base.newReq req).1.rings.place x = some (n, u) → base.rings.place x = some (n, u) := by
    intro x n u hx hp
    obtain ⟨rx, hrx, hns, ht⟩ := exists_req_of_place hp
    rcases newReq_cases hrx with ⟨rfl, -⟩ | ⟨-, hrx⟩
    · -- the new request was not there before
      obtain ⟨-, ns, t, hplace⟩ := hinv.flying_of_mem hx
      rw [hinv.rings.fresh base.nextReq (Nat.le_refl _)] at hplace
      cases hplace
    · rw [place_of_req hrx rfl, hns, ht]
  refine ⟨fun x hx y hy nx ny t hxt hyt => ?_, fun x rx hrx => ?_⟩
  · rw [hheads] at hx hy
    exact h.distinct x hx y hy nx ny t (hold hx hxt) (hold hy hyt)
  rcases newReq_cases hrx with ⟨-, rfl⟩ | ⟨-, hrx⟩
  · exact hpacket
  · exact h.packet x rx hrx

/-- The first request that waits is put into flight with a free id. -/
theorem Unique.moveReq (hinv : base.Inv ctx) {ns t : Nat} {rest : List Nat}
    (hwaiting : base.reqWaitingHead = id :: rest) (ht : base.Unused t) :
    (base.moveReq id ns t).Unique := by
  obtain ⟨-, t0, req, hplace, hreq, -⟩ := hinv.first_waits hwaiting
  have hid : id ∉ base.reqHeads.flatten := by
    intro hflying
    obtain ⟨-, ns', t', hplace'⟩ := hinv.flying_of_mem hflying
    rw [hplace] at hplace'
    cases hplace'
  have h1 : (base.modifyReq id (assigned ns t)).Unique :=
    h.modifyAside hid fun _ _ => rfl
  have hreq1 := modifyReq_self hreq (assigned ns t)
  have ht1 : (base.modifyReq id (assigned ns t)).Unused t := by
    intro x hx n hxt
    have hne : x ≠ id := fun heq => hid (heq ▸ hx)
    obtain ⟨rx, hrx, hns, hxt'⟩ := exists_req_of_place hxt
    rcases modifyReq_cases hrx with ⟨rfl, -⟩ | ⟨-, hrx⟩
    · exact hne rfl
    · exact ht x hx n (by rw [place_of_req hrx rfl, hns, hxt'])
  have hpos : 0 < base.reqHeads.length := hinv.rings.heads_pos
  refine Unique.launchReq (n := some ns) ?_ ?_ ?_ ?_
  · exact h1.congr rfl rfl
  · exact hpos
  · exact place_of_req hreq1 rfl
  · exact ht1

end

/-- Transaction ids stay unique when only unused ones are given out. -/
theorem Change.unique (hstale : ¬ permits.stale) (h : Change env permits base ctx base' ctx')
    (hu : base.Unique) : base'.Unique := by
  cases h with
  | rotate | nsDetails | down | fail | hidden | raise | unchoke => exact hu.congr rfl rfl
  | skip | hide | due => exact hu
  | unhide hctx =>
    subst hctx
    exact hu
  | aside h | enqueue h => exact hu.congr h.reqHeads h.req
  | reqDetails id hf => exact hu.modifyReq fun req => ⟨(hf req).2.1, (hf req).2.2.1⟩
  | reassign | retry => exact hu.swapNs _ _ _
  | sent =>
    refine Unique.noteSent ?_ _ _
    exact hu.congr rfl rfl
  | choke => exact hu.congr (heads_noteChoked _ _) (req_noteChoked _ _)
  | move h hfresh hwaiting ht => exact hu.moveReq h hwaiting ht
  | unlink h =>
    refine hu.mono h.flying fun x req' hreq' => ?_
    exact ⟨req', h.live hreq', rfl, rfl⟩
  | make h hpacket => exact hu.newReq h hpacket
  | assign h hid hpacket hf =>
    refine hu.modifyAside (fun hmem => (h.flying_of_mem hmem).1 hid) fun req hreq => ?_
    rcases hpacket req with hset | ⟨hsame, ht⟩
    · exact hset
    · rw [hsame, ht]
      exact hu.packet _ req hreq
  | launch h hloose hreq hplace hnew ht =>
    have hplaced := place_of_req hreq rfl
    rw [hplace.2] at hplaced
    exact hu.launchReq h.rings.heads_pos hplaced (ht.resolve_right hstale)
  | reissue _ h hne hns hf =>
    exact (hu.swapNs _ _ _).modifyReq fun req => ⟨(hf req).2.1, (hf req).2.2.1⟩
  | writeWaiting ns waiting =>
    exact hu.congr (heads_nameserverWriteWaiting _ _ _) (req_nameserverWriteWaiting _ _ _)

/-! ### Runs -/

/-- The step frees no nameserver, and a packet that makes a search go on comes when no request is
waiting that could be sent. -/
def Timely (base : EvdnsBase) : DnsAction → Prop
  | .suspend => False
  | .packet _ transId flags reply => ∀ id error, base.requestFindFromTransId transId = some id →
      replyError flags (replyGiven flags reply) = some error → error ≠ .serverfailed →
        base.Succeeded id → base.Pumped
  | _ => True

/-- In such a step no id is used that was picked before others were sent. -/
theorem Timely.allows (h : base.Timely action) : base.Allows { stale := False } action := by
  cases action with
  | packet ns transId flags reply =>
    exact fun id hfind => ⟨fun _ _ _ _ => trivial,
      fun error herror hne hsucceeded => .inr (h id error hfind herror hne hsucceeded),
      fun _ => trivial⟩
  | callback => exact fun _ _ _ _ _ _ _ => trivial
  | _ => exact trivial

theorem Unique.step (hintact : base.Intact) (h : base.Unique) (haction : base.Timely action) :
    Yields (· = .spins) (dnsStep env base action) fun base' => base'.Intact ∧ base'.Unique := by
  have hne : action ≠ .suspend := by
    rintro rfl
    exact haction
  refine hintact.preserves (P := fun s _ => s.Unique) hne haction.allows ?_ (fun _ h => h) ?_ ?_ h
  · exact fun hchange hunique => hchange.unique not_false hunique
  · exact fun hunique => hunique.congr rfl rfl
  · intro heads max hperm hunique
    exact hunique.mono (fun x hx => hperm.mem_iff.mp hx) fun _ req' hreq' => ⟨req', hreq', rfl, rfl⟩

theorem unique_new (options : DnsOptions) : (evdnsBaseNew options).Unique := by
  have hnone : ∀ base : EvdnsBase, (base.req = fun _ => none) → base.Unique := by
    intro base hreq
    refine ⟨fun x _ y _ nx ny t hxt _ => ?_, fun x req hx => ?_⟩
    · obtain ⟨rx, hrx, -⟩ := exists_req_of_place hxt
      rw [hreq] at hrx
      cases hrx
    · rw [hreq] at hx
      cases hx
  have hadded := iterate_nameserverAdd (P := Unique) (fun _ h => h.congr rfl rfl)
    options.nameservers
  exact (hadded _ (hnone _ (by rfl))).congr rfl rfl

end EvdnsBase

/-- In every run that frees no nameserver, and in which no packet makes a search go on while a
request waits that could be sent, the requests in flight have distinct ids, none of them `0xffff`,
and each packet starts with the id of its request in network order. -/
theorem dnsRun_unique (env : DnsEnv) {options : EvdnsBase.DnsOptions} {actions : List DnsAction}
    (hactions : Meets (dnsStep env) EvdnsBase.Timely (EvdnsBase.evdnsBaseNew options) actions) :
    Yields (· = .spins) (run (dnsStep env) (EvdnsBase.evdnsBaseNew options) actions) fun base =>
      (∀ x ∈ base.reqHeads.flatten, ∀ y ∈ base.reqHeads.flatten, ∀ rx ry, base.req x = some rx →
        base.req y = some ry → rx.transId = ry.transId → x = y) ∧
      ∀ x ∈ base.reqHeads.flatten, ∀ r, base.req x = some r →
        r.transId ≠ 0xffff ∧ r.packetId = htons r.transId := by
  refine (Yields.run (I := fun base => base.Intact ∧ base.Unique) (fun base action h haction => ?_)
    ⟨EvdnsBase.intact_new options, EvdnsBase.unique_new options⟩ hactions).mono ?_
  · exact h.2.step h.1 haction
  rintro base ⟨hintact, h⟩
  refine ⟨fun x hx y hy rx ry hrx hry ht => ?_, fun x hx r hr => ⟨?_, h.packet x r hr⟩⟩
  · refine h.distinct x hx y hy rx.ns ry.ns rx.transId (EvdnsBase.place_of_req hrx rfl) ?_
    rw [ht]
    exact EvdnsBase.place_of_req hry rfl
  · obtain ⟨-, ns, t, hplace⟩ := hintact.inv.flying_of_mem hx
    obtain ⟨-, -, -, -, hmax⟩ := hintact.inv.rings.mem_head hplace List.not_mem_nil
    rw [EvdnsBase.place_of_req hr rfl, Option.some.injEq, Prod.mk.injEq] at hplace
    exact hplace.2 ▸ hmax

/-- A search that goes on to its second name while another request is in flight. -/
theorem dnsRun_unique_search :
    let env := steadyEnv
    let options := searchOptions
    let actions : List DnsAction :=
      [.resolve .a [120] false, .resolve .a [121] true, .packet 0 1 0x8183 none]
    ((run (dnsStep env) (EvdnsBase.evdnsBaseNew options) actions).toOption.map fun base =>
        base.reqHeads.flatten.map fun id => (base.req id).map (·.transId)) =
        some [some 2, some 3] ∧
      Yields (· = .spins) (run (dnsStep env) (EvdnsBase.evdnsBaseNew options) actions) fun base =>
        (∀ x ∈ base.reqHeads.flatten, ∀ y ∈ base.reqHeads.flatten, ∀ rx ry, base.req x = some rx →
          base.req y = some ry → rx.transId = ry.transId → x = y) ∧
        ∀ x ∈ base.reqHeads.flatten, ∀ r, base.req x = some r →
          r.transId ≠ 0xffff ∧ r.packetId = htons r.transId := by
  refine ⟨rfl, dnsRun_unique _ ?_⟩
  refine Meets.cons trivial rfl (Meets.cons trivial rfl (Meets.cons ?_ rfl trivial))
  exact fun _ _ _ _ _ _ _ => .inl rfl

/-- The maximum is raised while a request waits. The next request of a search has drawn the id 7,
and so does the one that was waiting. -/
theorem searchTryNext_same_id :
    let env : DnsEnv :=
      { random := fun n => if n = 0 then [1] else [7], sendto := fun _ => .sent }
    let options := searchOptions
    let actions : List DnsAction := [.setMaxInflight 1, .resolve .a [120] false,
      .resolve .a [121] true, .setMaxInflight 2, .packet 0 1 0x8183 none]
    ((run (dnsStep env) (EvdnsBase.evdnsBaseNew options) actions).toOption.map fun base =>
      base.reqHeads.flatten.map fun id => (base.req id).map (·.transId)) = some [some 7, some 7] :=
        rfl

end Libevent
