import Libevent.Dns.Request
import Libevent.Lib.Buckets

/-!
# `Libevent.Proofs.Dns.Rings`: the rings of requests and their counters

`DnsRings` is the part of a base that the bookkeeping of requests is about: the rings, the counters,
and for each request that is allocated its nameserver and its transaction id. `DnsRings.Ok` says
that they belong together. Requests that are allocated and in no ring are listed as `loose`: one
that has been made and not yet submitted, or one that is on its way from one ring to another.

The functions of `evdns.c` change the rings in a few ways only, and there is one lemma for each: a
request is made or freed, it leaves a ring or enters one, it gets another nameserver, the ring of
nameservers is rotated, the heads are rebuilt.
-/

namespace Libevent

open Lib Function

/-- The part of a base that the bookkeeping of requests is about. -/
@[ext]
structure DnsRings where
  heads : List (List Nat)
  waiting : List Nat
  servers : List Nat
  inflight : Int
  waitingCount : Int
  /-- The nameserver and the transaction id of a request. -/
  place : Nat → Option (Option Nat × Nat)
  /-- `requests_inflight` of a nameserver. -/
  load : Nat → Int
  next : Nat
  /-- The timer of a request is pending. -/
  timer : Nat → Bool

def EvdnsBase.rings (base : EvdnsBase) : DnsRings where
  heads := base.reqHeads
  waiting := base.reqWaitingHead
  servers := base.servers
  inflight := base.globalRequestsInflight
  waitingCount := base.globalRequestsWaiting
  place id := (base.req id).map fun req => (req.ns, req.transId)
  load ns := (base.nameserver ns).requestsInflight
  next := base.nextReq
  timer id := (base.req id).any (·.timer)

namespace DnsRings

/-- All requests. -/
def all (v : DnsRings) (loose : List Nat) : List Nat := v.waiting ++ v.heads.flatten ++ loose

/-- The request is one of the nameserver. -/
def onServer (place : Nat → Option (Option Nat × Nat)) (ns id : Nat) : Bool :=
  (place id).any fun p => p.1 = some ns

/-- The rings, the counters and the requests belong together. -/
structure Ok (v : DnsRings) (loose : List Nat) : Prop where
  heads_pos : 0 < v.heads.length
  nodup : (v.all loose).Nodup
  live : ∀ id, (v.place id).isSome ↔ id ∈ v.all loose
  waiting : ∀ id ∈ v.waiting, ∀ p, v.place id = some p → p.1 = none
  inflight : ∀ (k : Nat) (ids : List Nat), v.heads[k]? = some ids → ∀ id ∈ ids, ∀ p,
    v.place id = some p →
      (∃ ns ∈ v.servers, p.1 = some ns) ∧ p.2 % v.heads.length = k ∧ p.2 ≠ 0xffff
  waitingCount : v.waitingCount = v.waiting.length
  inflightCount : v.inflight = v.heads.flatten.length
  load : ∀ ns ∈ v.servers, v.load ns = v.heads.flatten.countP (onServer v.place ns)
  fresh : ∀ id, v.next ≤ id → v.place id = none
  timer : ∀ id, v.timer id = true → ∃ ns t, v.place id = some (some ns, t)

variable {v : DnsRings} {loose : List Nat} {id ns t : Nat} {place : Nat → Option (Option Nat × Nat)}
  {servers : List Nat}

theorem onServer_of_place (h : place id = some (some ns, t))
    (ns' : Nat) : onServer place ns' id = decide (ns = ns') := by
  simp [onServer, h]

/-- A request that is not loose is in the waiting ring when it has no nameserver. -/
theorem Ok.mem_waiting (h : v.Ok loose) (hplace : v.place id = some (none, t))
    (hloose : id ∉ loose) : id ∈ v.waiting := by
  have hmem : id ∈ v.all loose := (h.live id).mp (by rw [hplace]; rfl)
  simp only [all, List.mem_append] at hmem
  rcases hmem with (hwaiting | hflying) | hmem
  · exact hwaiting
  · obtain ⟨k, ids, hk, hid⟩ := mem_flatten_iff_getElem?.mp hflying
    obtain ⟨⟨ns, -, hns⟩, -⟩ := h.inflight k ids hk id hid _ hplace
    cases hns
  · exact absurd hmem hloose

/-- A request that is not loose is in the ring of its transaction id when it has a nameserver. -/
theorem Ok.mem_head (h : v.Ok loose) (hplace : v.place id = some (some ns, t))
    (hloose : id ∉ loose) :
    ∃ ids, v.heads[t % v.heads.length]? = some ids ∧ id ∈ ids ∧ ns ∈ v.servers ∧ t ≠ 0xffff := by
  have hmem : id ∈ v.all loose := (h.live id).mp (by rw [hplace]; rfl)
  simp only [all, List.mem_append] at hmem
  rcases hmem with (hwaiting | hflying) | hmem
  · cases h.waiting id hwaiting _ hplace
  · obtain ⟨k, ids, hk, hid⟩ := mem_flatten_iff_getElem?.mp hflying
    obtain ⟨⟨ns', hmem', hns⟩, hmod, hmax⟩ := h.inflight k ids hk id hid _ hplace
    obtain rfl : ns = ns' := Option.some.inj hns
    exact ⟨ids, hmod ▸ hk, hid, hmem', hmax⟩
  · exact absurd hmem hloose

theorem Ok.place_of_mem_waiting (h : v.Ok loose) (hid : id ∈ v.waiting) :
    ∃ t, v.place id = some (none, t) := by
  have hsome : (v.place id).isSome := (h.live id).mpr (by simp [all, hid])
  obtain ⟨⟨ns, t⟩, hplace⟩ := Option.isSome_iff_exists.mp hsome
  obtain rfl : ns = none := h.waiting id hid _ hplace
  exact ⟨t, hplace⟩

theorem Ok.place_of_mem_flatten (h : v.Ok loose) (hid : id ∈ v.heads.flatten) :
    ∃ ns t, v.place id = some (some ns, t) := by
  have hsome : (v.place id).isSome := (h.live id).mpr (by simp [all, hid])
  obtain ⟨⟨ns, t⟩, hplace⟩ := Option.isSome_iff_exists.mp hsome
  obtain ⟨k, ids, hk, hmem⟩ := mem_flatten_iff_getElem?.mp hid
  obtain ⟨⟨ns', -, rfl⟩, -⟩ := h.inflight k ids hk id hmem _ hplace
  exact ⟨ns', t, hplace⟩

/-! ### Leaving and entering a ring -/

/-- A request leaves the waiting ring. -/
def unwait (v : DnsRings) (id : Nat) : DnsRings :=
  { v with waiting := v.waiting.erase id, waitingCount := v.waitingCount - 1 }

/-- A request leaves the ring `k` of its nameserver `ns`. -/
def ground (v : DnsRings) (id k ns : Nat) : DnsRings :=
  { v with
    heads := v.heads.modify k (·.erase id)
    inflight := v.inflight - 1
    load := update v.load ns (v.load ns - 1) }

/-- A request enters the waiting ring. -/
def enqueue (v : DnsRings) (id : Nat) : DnsRings :=
  { v with waiting := v.waiting ++ [id], waitingCount := v.waitingCount + 1 }

/-- A request enters the ring of its transaction id `t`, and counts for its nameserver. -/
def launch (v : DnsRings) (id ns t : Nat) : DnsRings :=
  { v with
    heads := v.heads.modify (t % v.heads.length) (· ++ [id])
    inflight := v.inflight + 1
    load := update v.load ns (v.load ns + 1) }

/-- The request is made, changed, or freed. -/
def setPlace (v : DnsRings) (id : Nat) (p : Option (Option Nat × Nat)) : DnsRings :=
  { v with place := update v.place id p }

theorem Ok.unwait (h : v.Ok loose) (hid : id ∈ v.waiting) : (v.unwait id).Ok (id :: loose) := by
  have hperm : ((v.unwait id).all (id :: loose)).Perm (v.all loose) := by
    have hw : v.waiting.Perm (id :: v.waiting.erase id) := List.perm_cons_erase hid
    simp only [all]
    refine List.perm_middle.trans ?_
    rw [List.append_assoc, List.append_assoc]
    exact hw.symm.append_right _
  exact { h with
    nodup := hperm.nodup_iff.mpr h.nodup
    live := fun x => (h.live x).trans hperm.mem_iff.symm
    waiting := fun x hx => h.waiting x (List.mem_of_mem_erase hx)
    waitingCount := by
      have hpos : 0 < v.waiting.length := List.length_pos_of_mem hid
      simp only [DnsRings.unwait, h.waitingCount, List.length_erase_of_mem hid]
      omega }

/-- A request in flight becomes loose. -/
theorem Ok.ground (h : v.Ok loose) {k : Nat} {ids : List Nat}
    (hplace : v.place id = some (some ns, t)) (hk : v.heads[k]? = some ids) (hid : id ∈ ids) :
    (v.ground id k ns).Ok (id :: loose) := by
  have hflat := flatten_modify_erase hk hid
  have hperm : ((v.ground id k ns).all (id :: loose)).Perm (v.all loose) := by
    simp only [all]
    refine List.perm_middle.trans ?_
    rw [List.append_assoc, List.append_assoc]
    refine List.perm_middle.symm.trans (List.Perm.append_left _ ?_)
    exact hflat.symm.append_right _
  have hlen : v.heads.flatten.length = (v.heads.modify k (·.erase id)).flatten.length + 1 := by
    rw [hflat.length_eq, List.length_cons]
  exact { h with
    heads_pos := by simpa [DnsRings.ground] using h.heads_pos
    nodup := hperm.nodup_iff.mpr h.nodup
    live := fun x => (h.live x).trans hperm.mem_iff.symm
    inflight := by
      intro j ids' hj x hx p hp
      simp only [DnsRings.ground, List.length_modify]
      simp only [DnsRings.ground, List.getElem?_modify] at hj
      obtain ⟨old, hold, rfl⟩ := Option.map_eq_some_iff.mp hj
      refine h.inflight j old hold x ?_ p hp
      split at hx
      · exact List.mem_of_mem_erase hx
      · exact hx
    inflightCount := by
      simp only [DnsRings.ground, h.inflightCount]
      omega
    load := by
      intro ns' hns'
      have hcount := hflat.countP_eq (onServer v.place ns')
      simp only [List.countP_cons, onServer_of_place hplace, decide_eq_true_eq] at hcount
      have hload := h.load ns' hns'
      simp only [DnsRings.ground, update_apply]
      split_ifs at hcount ⊢ <;> subst_vars <;> omega }

theorem Ok.enqueue (h : v.Ok (id :: loose)) (hplace : v.place id = some (none, t)) :
    (v.enqueue id).Ok loose := by
  have hperm : ((v.enqueue id).all loose).Perm (v.all (id :: loose)) := by
    simp only [all, DnsRings.enqueue]
    refine List.Perm.trans ?_ List.perm_middle.symm
    rw [List.append_assoc, List.append_assoc, List.append_assoc]
    exact List.perm_middle
  exact { h with
    nodup := hperm.nodup_iff.mpr h.nodup
    live := fun x => (h.live x).trans hperm.mem_iff.symm
    waiting := by
      intro x hx p hp
      rcases List.mem_append.mp hx with hx | hx
      · exact h.waiting x hx p hp
      obtain rfl := List.mem_singleton.mp hx
      have hp' : some p = some (none, t) := hp.symm.trans hplace
      cases hp'
      rfl
    waitingCount := by simp [DnsRings.enqueue, h.waitingCount] }

/-- A loose request gets into flight. -/
theorem Ok.launch (h : v.Ok (id :: loose)) (hplace : v.place id = some (some ns, t))
    (hns : ns ∈ v.servers) (ht : t ≠ 0xffff) : (v.launch id ns t).Ok loose := by
  have hk : t % v.heads.length < v.heads.length := Nat.mod_lt t h.heads_pos
  have hflat := flatten_modify_append v.heads hk id
  have hperm : ((v.launch id ns t).all loose).Perm (v.all (id :: loose)) := by
    simp only [all]
    refine List.Perm.trans ?_ List.perm_middle.symm
    rw [List.append_assoc, List.append_assoc]
    refine (List.Perm.append_left _ (hflat.append_right _)).trans ?_
    exact List.perm_middle
  exact { h with
    heads_pos := by simpa [DnsRings.launch] using h.heads_pos
    nodup := hperm.nodup_iff.mpr h.nodup
    live := fun x => (h.live x).trans hperm.mem_iff.symm
    inflight := by
      intro j ids hj x hx p hp
      simp only [DnsRings.launch, List.length_modify]
      simp only [DnsRings.launch, List.getElem?_modify] at hj
      obtain ⟨old, hold, rfl⟩ := Option.map_eq_some_iff.mp hj
      split at hx
      · next hkj =>
        rcases List.mem_append.mp hx with hx | hx
        · exact h.inflight j old hold x hx p hp
        obtain rfl := List.mem_singleton.mp hx
        cases hp.symm.trans hplace
        exact ⟨⟨ns, hns, rfl⟩, hkj, ht⟩
      · exact h.inflight j old hold x hx p hp
    inflightCount := by
      simp only [DnsRings.launch, h.inflightCount, hflat.length_eq, List.length_cons]
      omega
    load := by
      intro ns' hmem
      have hcount := hflat.countP_eq (onServer v.place ns')
      simp only [List.countP_cons, onServer_of_place hplace, decide_eq_true_eq] at hcount
      have hload := h.load ns' hmem
      simp only [DnsRings.launch, update_apply]
      split_ifs at hcount ⊢ <;> subst_vars <;> omega }

/-! ### Requests that are in no ring -/

/-- A loose request is in no ring. -/
theorem Ok.not_mem_rings (h : v.Ok (id :: loose)) :
    id ∉ v.waiting ∧ id ∉ v.heads.flatten ∧ id ∉ loose := by
  have hnodup : (id :: (v.waiting ++ v.heads.flatten ++ loose)).Nodup :=
    List.perm_middle.nodup_iff.mp h.nodup
  have hid := (List.nodup_cons.mp hnodup).1
  simp only [List.mem_append, not_or] at hid
  exact ⟨hid.1.1, hid.1.2, hid.2⟩

/-- A request that is in no ring may change. -/
theorem Ok.outside (h : v.Ok loose) (hwaiting : id ∉ v.waiting) (hflying : id ∉ v.heads.flatten)
    (hsame : ∀ x, x ≠ id → place x = v.place x) :
    (∀ x ∈ v.waiting, ∀ p, place x = some p → p.1 = none) ∧
    (∀ (k : Nat) (ids : List Nat), v.heads[k]? = some ids → ∀ x ∈ ids, ∀ p, place x = some p →
      (∃ ns ∈ v.servers, p.1 = some ns) ∧ p.2 % v.heads.length = k ∧ p.2 ≠ 0xffff) ∧
    ∀ ns ∈ v.servers, v.load ns = v.heads.flatten.countP (onServer place ns) := by
  refine ⟨fun x hx p hp => ?_, fun k ids hk x hx p hp => ?_, fun ns hns => ?_⟩
  · rw [hsame x fun heq => hwaiting (heq ▸ hx)] at hp
    exact h.waiting x hx p hp
  · have hmem : x ∈ v.heads.flatten := mem_flatten_iff_getElem?.mpr ⟨k, ids, hk, hx⟩
    rw [hsame x fun heq => hflying (heq ▸ hmem)] at hp
    exact h.inflight k ids hk x hx p hp
  · rw [h.load ns hns]
    refine congrArg Nat.cast (List.countP_congr fun x hx => ?_)
    rw [onServer, onServer, hsame x fun heq => hflying (heq ▸ hx)]

theorem Ok.setLoose (h : v.Ok (id :: loose)) :
    (v.setPlace id (some (some ns, t))).Ok (id :: loose) := by
  obtain ⟨hwaiting, hflying, -⟩ := h.not_mem_rings
  have hsame : ∀ {x : Nat}, x ≠ id → (v.setPlace id (some (some ns, t))).place x = v.place x :=
    fun hx =>
    update_of_ne hx _ _
  obtain ⟨hw, hf, hl⟩ := h.outside hwaiting hflying fun _ => hsame
  exact { h with
    live := by
      intro x
      by_cases hx : x = id
      · subst hx
        simp [setPlace, all]
      · rw [hsame hx]
        exact h.live x
    waiting := hw
    inflight := hf
    load := hl
    fresh := by
      intro x hx
      have hne : x ≠ id := by
        rintro rfl
        have hlive := (h.live x).mpr (by simp [all])
        rw [h.fresh x hx] at hlive
        cases hlive
      rw [hsame hne]
      exact h.fresh x hx
    timer := by
      intro x hx
      by_cases hne : x = id
      · subst hne
        exact ⟨ns, t, update_self ..⟩
      · rw [hsame hne]
        exact h.timer x hx }

/-- A request is freed. -/
def free (v : DnsRings) (id : Nat) : DnsRings :=
  { v.setPlace id none with timer := update v.timer id false }

/-- Only a loose request is freed. -/
theorem Ok.free (h : v.Ok (id :: loose)) : (v.free id).Ok loose := by
  obtain ⟨hwaiting, hflying, hloose⟩ := h.not_mem_rings
  have hsame : ∀ {x : Nat}, x ≠ id → (v.free id).place x = v.place x := fun hx =>
    update_of_ne hx _ _
  have hperm : (v.all (id :: loose)).Perm (id :: v.all loose) := List.perm_middle
  have hnodup := List.nodup_cons.mp (hperm.nodup_iff.mp h.nodup)
  obtain ⟨hw, hf, hl⟩ := h.outside hwaiting hflying fun _ => hsame
  exact { h with
    nodup := hnodup.2
    live := by
      intro x
      by_cases hx : x = id
      · subst hx
        exact iff_of_false (by simp [DnsRings.free, setPlace]) hnodup.1
      · rw [hsame hx, h.live x, hperm.mem_iff, List.mem_cons]
        exact or_iff_right hx
    waiting := hw
    inflight := hf
    load := hl
    fresh := by
      intro x hx
      by_cases hne : x = id
      · subst hne
        exact update_self ..
      · rw [hsame hne]
        exact h.fresh x hx
    timer := by
      intro x hx
      by_cases hne : x = id
      · subst hne
        cases (update_self ..).symm.trans hx
      · rw [hsame hne]
        exact h.timer x ((update_of_ne hne _ _).symm.trans hx) }

/-- A request is made. -/
def make (v : DnsRings) (p : Option Nat × Nat) : DnsRings :=
  { v.setPlace v.next (some p) with
    next := v.next + 1
    timer := update v.timer v.next false }

/-- A new request is loose: in no ring. -/
theorem Ok.make (h : v.Ok loose) (p : Option Nat × Nat) : (v.make p).Ok (v.next :: loose) := by
  have hnone : v.place v.next = none := h.fresh v.next (Nat.le_refl _)
  have hnot : v.next ∉ v.all loose := fun hmem => by
    have hlive := (h.live v.next).mpr hmem
    rw [hnone] at hlive
    cases hlive
  have hperm : (v.all (v.next :: loose)).Perm (v.next :: v.all loose) := List.perm_middle
  have hrings := hnot
  simp only [all, List.mem_append, not_or] at hrings
  have hsame : ∀ {x : Nat}, x ≠ v.next → (v.make p).place x = v.place x := fun hx =>
    update_of_ne hx _ _
  obtain ⟨hw, hf, hl⟩ := h.outside hrings.1.1 hrings.1.2 fun _ => hsame
  exact { h with
    nodup := hperm.nodup_iff.mpr (List.nodup_cons.mpr ⟨hnot, h.nodup⟩)
    live := by
      intro x
      by_cases hx : x = v.next
      · subst hx
        simp [DnsRings.make, setPlace, all]
      rw [hsame hx]
      refine (h.live x).trans ?_
      show _ ↔ x ∈ v.all (v.next :: loose)
      rw [hperm.mem_iff, List.mem_cons]
      exact (or_iff_right hx).symm
    waiting := hw
    inflight := hf
    load := hl
    fresh := by
      intro x hx
      have hx' : v.next + 1 ≤ x := hx
      rw [hsame (by omega)]
      exact h.fresh x (by omega)
    timer := by
      intro x hx
      by_cases hne : x = v.next
      · subst hne
        cases (update_self ..).symm.trans hx
      · rw [hsame hne]
        exact h.timer x ((update_of_ne hne _ _).symm.trans hx) }

/-! ### Nameservers and heads -/

/-- The ring of nameservers is rotated. -/
theorem Ok.rotate (h : v.Ok loose) (hperm : servers.Perm v.servers) :
    { v with servers := servers }.Ok loose :=
  { h with
    inflight := by
      intro k ids hk x hx p hp
      obtain ⟨⟨ns, hns, heq⟩, hrest⟩ := h.inflight k ids hk x hx p hp
      exact ⟨⟨ns, hperm.mem_iff.mpr hns, heq⟩, hrest⟩
    load := fun ns hns => h.load ns (hperm.mem_iff.mp hns) }

/-- No request in flight is one of a nameserver that is not in the ring. -/
theorem Ok.countP_of_not_mem (h : v.Ok loose) (hns : ns ∉ v.servers) :
    v.heads.flatten.countP (onServer v.place ns) = 0 := by
  refine List.countP_eq_zero.mpr fun id hid hon => hns ?_
  obtain ⟨k, ids, hk, hmem⟩ := mem_flatten_iff_getElem?.mp hid
  obtain ⟨p, hp, hpns⟩ : ∃ p, v.place id = some p ∧ p.1 = some ns := by
    simpa [onServer, Option.any_eq_true] using hon
  obtain ⟨⟨ns', hns', heq⟩, -⟩ := h.inflight k ids hk id hmem p hp
  cases hpns.symm.trans heq
  exact hns'

/-- A nameserver is added. -/
def addServer (v : DnsRings) (servers : List Nat) (ns : Nat) : DnsRings :=
  { v with servers := servers, load := update v.load ns 0 }

theorem Ok.addServer (h : v.Ok loose) (hperm : servers.Perm (ns :: v.servers))
    (hns : ns ∉ v.servers) :
    (v.addServer servers ns).Ok loose :=
  { h with
    inflight := by
      intro k ids hk x hx p hp
      obtain ⟨⟨ns', hns', heq⟩, hrest⟩ := h.inflight k ids hk x hx p hp
      exact ⟨⟨ns', hperm.mem_iff.mpr (List.mem_cons_of_mem ns hns'), heq⟩, hrest⟩
    load := by
      intro ns' hns'
      by_cases hne : ns' = ns
      · subst hne
        have hzero := h.countP_of_not_mem hns
        show update v.load ns' 0 ns' = (v.heads.flatten.countP (onServer v.place ns') : Nat)
        rw [update_self, hzero]
        rfl
      · have hmem : ns' ∈ v.servers :=
          (List.mem_cons.mp (hperm.mem_iff.mp hns')).resolve_left hne
        exact (update_of_ne hne _ _).trans (h.load ns' hmem) }

/-- The heads are rebuilt. -/
theorem Ok.rehash (h : v.Ok loose) {heads : List (List Nat)} (hpos : 0 < heads.length)
    (hperm : heads.flatten.Perm v.heads.flatten)
    (hplaced : ∀ (k : Nat) (ids : List Nat), heads[k]? = some ids → ∀ id ∈ ids, ∀ p,
      v.place id = some p → p.2 % heads.length = k) :
    { v with heads := heads }.Ok loose := by
  have hall : ({ v with heads := heads }.all loose).Perm (v.all loose) :=
    (hperm.append_left v.waiting).append_right loose
  exact { h with
    heads_pos := hpos
    nodup := hall.nodup_iff.mpr h.nodup
    live := fun x => (h.live x).trans hall.mem_iff.symm
    inflight := by
      intro k ids hk x hx p hp
      have hmem : x ∈ v.heads.flatten :=
        hperm.mem_iff.mp (mem_flatten_iff_getElem?.mpr ⟨k, ids, hk, hx⟩)
      obtain ⟨k', ids', hk', hx'⟩ := mem_flatten_iff_getElem?.mp hmem
      obtain ⟨hns, -, hmax⟩ := h.inflight k' ids' hk' x hx' p hp
      exact ⟨hns, hplaced k ids hk x hx p hp, hmax⟩
    inflightCount := by rw [h.inflightCount, hperm.length_eq]
    load := fun ns hns => by rw [h.load ns hns, hperm.countP_eq] }

/-- A request that is in flight gets another nameserver. -/
def swap (v : DnsRings) (id old ns t : Nat) : DnsRings :=
  let load := update v.load old (v.load old - 1)
  { v.setPlace id (some (some ns, t)) with load := update load ns (load ns + 1) }

/-- The counts follow the request from the old nameserver to the new one. -/
theorem Ok.swap (h : v.Ok loose) {old : Nat} (hid : id ∈ v.heads.flatten)
    (hplace : v.place id = some (some old, t)) (hne : old ≠ ns) (hns : ns ∈ v.servers) :
    (v.swap id old ns t).Ok loose := by
  have hwaiting : id ∉ v.waiting := fun hw => by
    cases h.waiting id hw _ hplace
  have hsame : ∀ {x : Nat}, x ≠ id → (v.swap id old ns t).place x = v.place x := fun hx =>
    update_of_ne hx _ _
  have hself : (v.swap id old ns t).place id = some (some ns, t) := update_self ..
  exact { h with
    live := by
      intro x
      by_cases hx : x = id
      · subst hx
        rw [hself]
        exact iff_of_true rfl ((h.live x).mp (by rw [hplace]; rfl))
      · rw [hsame hx]
        exact h.live x
    waiting := by
      intro x hx q hq
      rw [hsame fun heq => hwaiting (heq ▸ hx)] at hq
      exact h.waiting x hx q hq
    inflight := by
      intro k ids hk x hx q hq
      by_cases hxid : x = id
      · subst hxid
        obtain ⟨-, hmod, hmax⟩ := h.inflight k ids hk x hx _ hplace
        cases hself.symm.trans hq
        exact ⟨⟨ns, hns, rfl⟩, hmod, hmax⟩
      · rw [hsame hxid] at hq
        exact h.inflight k ids hk x hx q hq
    load := by
      intro ns' hns'
      -- only the request itself is counted differently
      obtain ⟨rest, hrest⟩ : ∃ rest, v.heads.flatten.Perm (id :: rest) :=
        ⟨_, List.perm_cons_erase hid⟩
      have hnodup : (id :: rest).Nodup := by
        have hall : (v.waiting ++ v.heads.flatten).Nodup := (List.nodup_append.mp h.nodup).1
        exact hrest.nodup_iff.mp (List.nodup_append.mp hall).2.1
      have hagree : ∀ x ∈ rest, onServer v.place ns' x =
          onServer (v.swap id old ns t).place ns' x := by
        intro x hx
        have hxid : x ≠ id := fun heq => (List.nodup_cons.mp hnodup).1 (heq ▸ hx)
        rw [onServer, onServer, hsame hxid]
      have hcount := countP_cons_congr (a := id) hagree
      rw [← hrest.countP_eq, ← hrest.countP_eq] at hcount
      have hload := h.load ns' hns'
      rw [onServer_of_place hplace, onServer_of_place hself] at hcount
      simp only [decide_eq_true_eq] at hcount
      show (v.swap id old ns t).load ns' =
        (v.heads.flatten.countP (onServer (v.swap id old ns t).place ns') : Nat)
      generalize v.heads.flatten.countP (onServer (v.swap id old ns t).place ns') =
        after at hcount ⊢
      simp only [DnsRings.swap, update_apply]
      split_ifs at hcount ⊢ <;> subst_vars <;> omega
    fresh := by
      intro x hx
      have hxid : x ≠ id := by
        rintro rfl
        rw [h.fresh x hx] at hplace
        cases hplace
      rw [hsame hxid]
      exact h.fresh x hx
    timer := by
      intro x hx
      by_cases hxid : x = id
      · subst hxid
        exact ⟨ns, t, hself⟩
      · rw [hsame hxid]
        exact h.timer x hx }

/-- The timer of a request is started or stopped. -/
def setTimer (v : DnsRings) (id : Nat) (timer : Bool) : DnsRings :=
  { v with timer := update v.timer id timer }

theorem Ok.setTimer (h : v.Ok loose) {timer : Bool}
    (htimer : timer = true → ∃ ns t, v.place id = some (some ns, t)) :
    (v.setTimer id timer).Ok loose :=
  { h with
    timer := by
      intro x hx
      by_cases hxid : x = id
      · subst hxid
        exact htimer ((update_self ..).symm.trans hx)
      · exact h.timer x ((update_of_ne hxid _ _).symm.trans hx) }

end DnsRings

end Libevent
