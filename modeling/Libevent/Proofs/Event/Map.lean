import Libevent.Proofs.Event.Queues

/-!
# `Libevent.Proofs.Event.Map`: entering events in the map

`event_add_nolock_` enters an event in the map and then sets `EVLIST_INSERTED`; `event_del_nolock_`
clears the flag and then takes the event out. Either pair keeps the invariant
(`eventAddInserted_spec`, `eventDelInserted_spec`). The backends may refuse an event (they return
-1), but they do not fault (`EventOp.NoFault`).
-/

namespace Libevent

/-- The calls of the backend end. -/
structure EventOp.NoFault {β : Type} (op : EventOp β) : Prop where
  add : ∀ b fd old events fdinfo, ∃ r, op.add b fd old events fdinfo = .ok r
  del : ∀ b fd old events fdinfo, ∃ r, op.del b fd old events fdinfo = .ok r

variable {l : List EvId}

section
variable {β : Type} {evs : EvId → Event} {m m' : Evmap β} {ev : EvId} {fl : EvFlags}

/-! ### One list of the map changes -/

section
variable {lists lists' : Nat → List EvId} {kind : Bool}
  (h : ∀ (k : Nat) x, x ∈ lists k ↔ (evs x).evFlags.inserted = true ∧
    isIo (evs x).evEvents = kind ∧ (evs x).evFd = k)
include h

/-- The flag of `ev` does not matter for lists that it cannot be in. -/
private theorem mem_lists_other
    (hno : ∀ k : Nat, ¬ (isIo (evs ev).evEvents = kind ∧ (evs ev).evFd = k)) (k : Nat) (x : EvId) :
    x ∈ lists k ↔ (updFlags evs ev fl x).evFlags.inserted = true ∧
      isIo (updFlags evs ev fl x).evEvents = kind ∧
      (updFlags evs ev fl x).evFd = k := by
  rw [h]
  by_cases hx : x = ev
  · subst hx
    rw [updFlags, upd_self]
    exact ⟨fun hi => absurd hi.2 (hno k), fun hi => absurd hi.2 (hno k)⟩
  · rw [updFlags, upd_ne _ _ hx]

/-- One of the lists changes with the flag of `ev`. -/
private theorem mem_lists_set {k0 : Nat} (hkind : isIo (evs ev).evEvents = kind)
    (hfd : (evs ev).evFd = k0) (hlists : ∀ k, lists' k = if k = k0 then l else lists k)
    (hmem : ∀ x, x ∈ l ↔ if x = ev then fl.inserted = true else x ∈ lists k0) (k : Nat) (x : EvId) :
    x ∈ lists' k ↔ (updFlags evs ev fl x).evFlags.inserted = true ∧
      isIo (updFlags evs ev fl x).evEvents = kind ∧
      (updFlags evs ev fl x).evFd = k := by
  rw [hlists]
  by_cases hx : x = ev
  · subst hx
    rw [updFlags, upd_self]
    by_cases hk : k = k0
    · subst hk
      rw [if_pos rfl, hmem, if_pos rfl]
      exact ⟨fun hi => ⟨hi, hkind, hfd⟩, fun hi => hi.1⟩
    · have hne : (evs x).evFd ≠ k := fun heq => hk (by omega)
      rw [if_neg hk, h]
      exact ⟨fun hi => absurd hi.2.2 hne, fun hi => absurd hi.2.2 hne⟩
  · rw [updFlags, upd_ne _ _ hx, ← h]
    by_cases hk : k = k0
    · subst hk
      rw [if_pos rfl, hmem, if_neg hx]
    · rw [if_neg hk]

end

section
variable (h : MapInv evs m) {ctx' : EvmapIo}
include h

/-- The list of one fd changes with the flag of `ev`. -/
theorem MapInv.entrySet {fd : Nat} {b : β} (hset : EntrySet m fd ctx' b m')
    (hio : isIo (evs ev).evEvents = true) (hfd : (evs ev).evFd = fd) (hnodup : ctx'.events.Nodup)
    (hcounts : CountsOk evs ctx')
    (hmem : ∀ x, x ∈ ctx'.events ↔ if x = ev then fl.inserted = true else x ∈ (m.io fd).events) :
    MapInv (updFlags evs ev fl) m' where
  mm := hset.mm h.mm
  io_mem := mem_lists_set h.io_mem hio hfd
    (fun k => by rw [hset.io]; exact apply_ite EvmapIo.events _ _ _) hmem
  io_nodup := fun k => by
    rw [hset.io]
    split
    · exact hnodup
    · exact h.io_nodup k
  counts := fun k => (hset.counts h.counts hcounts k).congr fun x _ =>
    upd_congr Event.evEvents (by rfl) x
  io_bound := hset.bound h.io_bound
  sig_mem := by
    simp only [Evmap.sig, hset.sigEntries]
    exact mem_lists_other h.sig_mem fun _ hev => by cases hio.symm.trans hev.1
  sig_nodup := fun k => by rw [Evmap.sig, hset.sigEntries]; exact h.sig_nodup k
  sig_bound := by rw [hset.sigEntries, hset.sigNentries]; exact h.sig_bound

/-- The list of one signal changes with the flag of `ev`. -/
theorem MapInv.sigSet {sig : Nat} (hset : SigSet m sig l m') (hio : isIo (evs ev).evEvents = false)
    (hfd : (evs ev).evFd = sig) (hnodup : l.Nodup)
    (hmem : ∀ x, x ∈ l ↔ if x = ev then fl.inserted = true else x ∈ m.sig sig) :
    MapInv (updFlags evs ev fl) m' where
  mm := hset.mm
  io_mem := by
    simp only [Evmap.io, hset.entries]
    exact mem_lists_other h.io_mem fun _ hev => by cases hio.symm.trans hev.1
  io_nodup := fun k => by rw [Evmap.io, hset.entries]; exact h.io_nodup k
  counts := fun k => by
    rw [Evmap.io, hset.entries]
    exact (h.counts k).congr fun x _ => upd_congr Event.evEvents (by rfl) x
  io_bound := by rw [hset.entries, hset.nentries]; exact h.io_bound
  sig_mem := mem_lists_set h.sig_mem hio hfd hset.sig hmem
  sig_nodup := fun k => by
    rw [hset.sig]
    split
    · exact hnodup
    · exact h.sig_nodup k
  sig_bound := hset.bound h.sig_bound

/-- An event without an fd is in no list, whatever its flag. -/
theorem MapInv.noFd (hfd : (evs ev).evFd < 0) : MapInv (updFlags evs ev fl) m :=
  { h with
    io_mem := mem_lists_other h.io_mem fun _ hev => by omega
    counts := fun k => (h.counts k).congr fun x _ => upd_congr Event.evEvents (by rfl) x
    sig_mem := mem_lists_other h.sig_mem fun _ hev => by omega }

/-- A map with the same lists. -/
theorem MapInv.sameLists (hmm : m'.mm.Reliable) (hio : ∀ fd, (m'.io fd).events = (m.io fd).events)
    (hcounts : ∀ fd, CountsOk evs (m'.io fd))
    (hbound : ∀ fd, (m'.entries fd).isSome → fd < m'.nentries)
    (hsig : ∀ sig, m'.sig sig = m.sig sig)
    (hsbound : ∀ sig, (m'.sigEntries sig).isSome → sig < m'.sigNentries) : MapInv evs m' where
  mm := hmm
  io_mem := fun fd => by rw [hio]; exact h.io_mem fd
  io_nodup := fun fd => by rw [hio]; exact h.io_nodup fd
  counts := hcounts
  io_bound := hbound
  sig_mem := fun sig => by rw [hsig]; exact h.sig_mem sig
  sig_nodup := fun sig => by rw [hsig]; exact h.sig_nodup sig
  sig_bound := hsbound

/-- The entry of one fd changes in its `fdinfo` only. -/
theorem MapInv.entrySet_same {fd : Nat} {b : β} (hset : EntrySet m fd ctx' b m')
    (hevents : ctx'.events = (m.io fd).events) (hcounts : CountsOk evs ctx') : MapInv evs m' := by
  refine h.sameLists (hset.mm h.mm) (fun k => ?_) (hset.counts h.counts hcounts)
    (hset.bound h.io_bound) (fun k => by rw [Evmap.sig, hset.sigEntries]; rfl)
    (by rw [hset.sigEntries, hset.sigNentries]; exact h.sig_bound)
  rw [hset.io]
  split
  · next hk => rw [hk, hevents]
  · rfl

/-- The list of one signal is written again as it was. -/
theorem MapInv.sigSet_same {sig : Nat} (hset : SigSet m sig l m') (hl : l = m.sig sig) :
    MapInv evs m' := by
  have hio : ∀ fd, m'.io fd = m.io fd := fun fd => by rw [Evmap.io, hset.entries]; rfl
  refine h.sameLists hset.mm (fun k => by rw [hio]) (fun k => by rw [hio]; exact h.counts k)
    (by rw [hset.entries, hset.nentries]; exact h.io_bound) (fun k => ?_)
    (hset.bound h.sig_bound)
  rw [hset.sig]
  split
  · next hk => rw [hk, hl]
  · rfl

end

end

/-! ### `evmap_io_add_` and its relatives -/

section
variable {β : Type} {debugMode : Bool} {op : EventOp β} {evs : EvId → Event} {m : Evmap β}
  {ev : EvId} {fl : EvFlags}

/-- A new list of the map: `ev` and the old one. -/
private theorem mem_cons_iff_of_inserted (hfl : fl.inserted = true)
    (x : EvId) : x ∈ ev :: l ↔ if x = ev then fl.inserted = true else x ∈ l := by
  by_cases hx : x = ev
  · simp [hx, hfl]
  · simp [hx]

/-- A new list of the map: the old one without `ev`. -/
private theorem mem_erase_iff_of_not_inserted (hl : l.Nodup) (hfl : fl.inserted = false)
    (x : EvId) :
    x ∈ l.erase ev ↔ if x = ev then fl.inserted = true else x ∈ l := by
  rw [hl.mem_erase_iff]
  by_cases hx : x = ev
  · simp [hfl]
  · simp [hx]

section
variable (hop : op.NoFault) (h : MapInv evs m) (hio : isIo (evs ev).evEvents = true)
include hop h hio

/-- `evmap_io_add_` of an event that is not in the map. -/
theorem evmapIoAdd_spec (hins : (evs ev).evFlags.inserted = false) :
    ∃ r m', evmapIoAdd debugMode op evs m (evs ev).evFd ev = .ok (r, m') ∧
      (r = -1 → MapInv evs m') ∧ (r ≠ -1 → ∀ fl : EvFlags, fl.inserted = true →
        MapInv (updFlags evs ev fl) m') := by
  have hcases := evmapIoAdd_cases debugMode op evs m ev
  generalize evmapIoAdd debugMode op evs m (evs ev).evFd ev = r at hcases ⊢
  -- the entry with the event in front, however the backend was told
  have hnew : ∀ {m' : Evmap β} {b : β} {fdinfo : Nat}, 0 ≤ (evs ev).evFd →
      EntrySet m (evs ev).evFd.toNat
        { (m.io (evs ev).evFd.toNat).joined evs ev with fdinfo := fdinfo } b m' →
      ∀ fl : EvFlags, fl.inserted = true → MapInv (updFlags evs ev fl) m' := by
    intro m' b fdinfo hfd hset fl hfl
    have hout : ev ∉ (m.io (evs ev).evFd.toNat).events := fun hm => by
      have := ((h.io_mem _ ev).mp hm).1
      cases hins.symm.trans this
    exact h.entrySet hset hio (Int.toNat_of_nonneg hfd).symm
      (List.nodup_cons.mpr ⟨hout, h.io_nodup _⟩) ((h.counts _).insert ev fdinfo)
      (mem_cons_iff_of_inserted hfl)
  cases hcases with
  | noFd hfd => exact ⟨0, m, rfl, by omega, fun _ fl _ => h.noFd hfd⟩
  | noMemory hmm => exact absurd h.mm hmm
  | refused hrej hset =>
    exact ⟨-1, _, rfl, fun _ => h.entrySet_same hset rfl (h.counts _), fun hr => absurd rfl hr⟩
  | quiet hfd hrej hres hset => exact ⟨0, _, rfl, by omega, fun _ => hnew hfd hset⟩
  | told hfd hrej hres hset =>
    generalize hadd : op.add m.evbase _ _ _ _ = res
    obtain ⟨⟨r, b, fdinfo⟩, rfl⟩ : ∃ r, res = .ok r := hadd ▸ hop.add ..
    by_cases hr : r = -1
    · refine ⟨-1, _, if_pos hr, fun _ => ?_, fun hr => absurd rfl hr⟩
      exact h.entrySet_same (hset b _) rfl { h.counts _ with }
    · exact ⟨1, _, if_neg hr, by omega, fun _ => hnew hfd (hset b _)⟩

/-- `evmap_io_del_` of an event of the map, whose flag is cleared already. -/
theorem evmapIoDel_spec (hins : (evs ev).evFlags.inserted = true) (hfl : fl.inserted = false) :
    ∃ r m', evmapIoDel op (updFlags evs ev fl) m (evs ev).evFd ev =
        .ok (r, m') ∧ MapInv (updFlags evs ev fl) m' := by
  have hfd' : (updFlags evs ev fl ev).evFd = (evs ev).evFd := by
    rw [updFlags, upd_self]
  have hmask : ∀ x, (updFlags evs ev fl x).evEvents = (evs x).evEvents :=
    upd_congr Event.evEvents (by rfl)
  have hmem : 0 ≤ (evs ev).evFd → ev ∈ (m.io (evs ev).evFd.toNat).events := fun hfd =>
    (h.io_mem _ ev).mpr ⟨hins, hio, (Int.toNat_of_nonneg hfd).symm⟩
  have hcases := evmapIoDel_cases op (updFlags evs ev fl) m ev
    (by rwa [hfd']) ((h.counts _).congr fun x _ => hmask x) h.io_bound
  rw [hfd'] at hcases
  generalize evmapIoDel op _ m (evs ev).evFd ev = r at hcases ⊢
  have hnew : ∀ {m' : Evmap β} {b : β} {fdinfo : Nat}, 0 ≤ (evs ev).evFd →
      EntrySet m (evs ev).evFd.toNat { (m.io (evs ev).evFd.toNat).left (updFlags evs ev fl) ev with
        fdinfo := fdinfo } b m' → MapInv (updFlags evs ev fl) m' := by
    intro m' b fdinfo hfd hset
    have hcounts := (h.counts _).erase (hmem hfd) fdinfo
    rw [← hmask] at hcounts
    exact h.entrySet hset hio (Int.toNat_of_nonneg hfd).symm ((h.io_nodup _).erase ev) hcounts
      (mem_erase_iff_of_not_inserted (h.io_nodup _) hfl)
  cases hcases with
  | noFd hfd => exact ⟨0, m, rfl, h.noFd (hfd' ▸ hfd)⟩
  | quiet hfd hres hset => exact ⟨0, _, rfl, hnew (hfd' ▸ hfd) hset⟩
  | told hfd hres hset =>
    generalize hdel : op.del m.evbase _ _ _ _ = res
    obtain ⟨⟨r, b, fdinfo⟩, rfl⟩ : ∃ r, res = .ok r := hdel ▸ hop.del ..
    exact ⟨_, _, rfl, hnew (hfd' ▸ hfd) (hset b _)⟩

end

section
variable (hop : op.NoFault) (h : MapInv evs m) (hio : isIo (evs ev).evEvents = false)
  (hsig : 0 ≤ (evs ev).evFd)
include hop h hio hsig

/-- `evmap_signal_add_` of an event that is not in the map. -/
theorem evmapSignalAdd_spec (hins : (evs ev).evFlags.inserted = false) :
    ∃ r m', evmapSignalAdd op evs m (evs ev).evFd ev = .ok (r, m') ∧
      (r = -1 → MapInv evs m') ∧ (r ≠ -1 → ∀ fl : EvFlags, fl.inserted = true →
        MapInv (updFlags evs ev fl) m') := by
  obtain ⟨m1, hslot, hset⟩ := getSignalSlotAndCtor_eq h.mm (evs ev).evFd.toNat
  have hout : ev ∉ m.sig (evs ev).evFd.toNat := fun hm => by
    have := ((h.sig_mem _ ev).mp hm).1
    cases hins.symm.trans this
  have hnew : ∀ (evbase : β) (fl : EvFlags), fl.inserted = true → MapInv (updFlags evs ev fl)
        (({ m1 with evbase := evbase } : Evmap β).setSig (evs ev).evFd.toNat
          (ev :: m.sig (evs ev).evFd.toNat)) :=
    fun evbase fl hfl => h.sigSet (hset.write evbase _) hio (Int.toNat_of_nonneg hsig).symm
      (List.nodup_cons.mpr ⟨hout, h.sig_nodup _⟩) (mem_cons_iff_of_inserted hfl)
  unfold evmapSignalAdd
  rw [if_neg (by omega), hslot]
  cases hl : m.sig (evs ev).evFd.toNat with
  | nil =>
    obtain ⟨⟨r, evbase, fdinfo⟩, hadd⟩ := hop.add m1.evbase (evs ev).evFd.toNat 0 EV_SIGNAL 0
    simp only [hadd]
    split
    · refine ⟨-1, _, rfl, fun _ => ?_, fun hr => absurd rfl hr⟩
      exact h.sigSet_same { hset with } rfl
    refine ⟨1, _, rfl, by omega, fun _ fl hfl => ?_⟩
    have := hnew evbase fl hfl
    rwa [hl] at this
  | cons x l =>
    refine ⟨1, _, rfl, by omega, fun _ fl hfl => ?_⟩
    have := hnew m1.evbase fl hfl
    rwa [hl] at this

/-- `evmap_signal_del_` of an event of the map, whose flag is cleared already. -/
theorem evmapSignalDel_spec (hins : (evs ev).evFlags.inserted = true) (hfl : fl.inserted = false)
    (evs' : EvId → Event) :
    ∃ r m', evmapSignalDel op evs' m (evs ev).evFd ev = .ok (r, m') ∧
      MapInv (updFlags evs ev fl) m' := by
  have hfd : (evs ev).evFd = ((evs ev).evFd.toNat : Int) := by omega
  have hmem : ev ∈ m.sig (evs ev).evFd.toNat := (h.sig_mem _ ev).mpr ⟨hins, hio, hfd⟩
  obtain ⟨l, hl⟩ : ∃ l, m.sigEntries (evs ev).evFd.toNat = some l := by
    cases hs : m.sigEntries (evs ev).evFd.toNat with
    | some l => exact ⟨l, rfl⟩
    | none => simp [Evmap.sig, hs] at hmem
  have hlt := h.sig_bound _ (by rw [hl]; rfl)
  have hls : m.sig (evs ev).evFd.toNat = l := by simp [Evmap.sig, hl]
  have hnew : ∀ evbase : β, MapInv (updFlags evs ev fl)
      (({ m with evbase := evbase } : Evmap β).setSig (evs ev).evFd.toNat (l.erase ev)) := by
    intro evbase
    have hnodup := h.sig_nodup (evs ev).evFd.toNat
    rw [← hls]
    exact h.sigSet ((SigSet.self h.mm hlt).write evbase _) hio hfd (hnodup.erase ev)
      (mem_erase_iff_of_not_inserted hnodup hfl)
  rw [hls] at hmem
  unfold evmapSignalDel
  rw [if_neg (by omega), if_neg (by omega)]
  simp only [hl, if_neg (not_not.mpr hmem)]
  split
  · next hnil =>
    obtain ⟨⟨r, evbase, fdinfo⟩, hdel⟩ := hop.del m.evbase (evs' ev).evFd.toNat 0 EV_SIGNAL 0
    rw [hdel]
    refine ⟨_, _, rfl, ?_⟩
    have := hnew evbase
    rwa [hnil] at this
  · exact ⟨1, _, rfl, hnew m.evbase⟩

end

end

/-! ### `EVLIST_INSERTED` and the map together -/

section
variable {β : Type} {debugMode : Bool} {evsel evsigsel : EventOp β} {s : EventBase β} {ev : EvId}

namespace EventBase

/-- The base after the event was entered in the map, which is `m` now. -/
def pushInserted (s : EventBase β) (ev : EvId) (m : Evmap β) : EventBase β :=
  { (s.incrEventCount ev).setFlags ev { (s.evs ev).evFlags with inserted := true } with
    evmap := m }

/-- The base after the event was taken out of the map, which is `m` now. -/
def dropInserted (s : EventBase β) (ev : EvId) (m : Evmap β) : EventBase β :=
  { (s.decrEventCount ev).setFlags ev { (s.evs ev).evFlags with inserted := false } with
    evmap := m }

section
variable (s ev) (m : Evmap β)

@[simp] theorem pushInserted_evs : (s.pushInserted ev m).evs =
      upd s.evs ev { s.evs ev with evFlags := { (s.evs ev).evFlags with inserted := true } } := rfl

@[simp] theorem dropInserted_evs : (s.dropInserted ev m).evs =
      upd s.evs ev { s.evs ev with evFlags := { (s.evs ev).evFlags with inserted := false } } :=
  rfl

end

end EventBase

/-- Another map for the same events. -/
theorem Inv.setMap (h : Inv s) {m : Evmap β} (hm : MapInv s.evs m) : Inv { s with evmap := m } :=
  { h with map := hm }

/-- `evmap_io_add_` or `evmap_signal_add_` of an event that is not in the map. -/
theorem evmapAdd_spec (debugMode : Bool) (hsel : evsel.NoFault) (hsig : evsigsel.NoFault)
    (h : Inv s) (hins : (s.evs ev).evFlags.inserted = false)
    (hkind : isIo (s.evs ev).evEvents = true ∨ 0 ≤ (s.evs ev).evFd) :
    ∃ r m, evmapAdd debugMode evsel evsigsel s ev = .ok (r, m) ∧
      (r = -1 → MapInv s.evs m) ∧ (r ≠ -1 → ∀ fl : EvFlags, fl.inserted = true →
        MapInv (updFlags s.evs ev fl) m) := by
  unfold evmapAdd
  cases hio : isIo (s.evs ev).evEvents with
  | true => exact evmapIoAdd_spec hsel h.map hio hins
  | false =>
    have hfd : 0 ≤ (s.evs ev).evFd := hkind.resolve_left (by rw [hio]; decide)
    exact evmapSignalAdd_spec hsig h.map hio hfd hins

/-- The test of `event_add_nolock_` before it enters the event in the map. -/
def Event.enters (e : Event) : Bool :=
  (isIo e.evEvents || isSignal e.evEvents) &&
    !(e.evFlags.inserted || e.evFlags.active || e.evFlags.activeLater)

/-- The event enters the map, unless the backend refuses it. -/
theorem eventAddInserted_spec (hsel : evsel.NoFault) (hsig : evsigsel.NoFault) (h : Inv s)
    (hfin : (s.evs ev).evFlags.finalizing = false)
    (hkind : KindOk (s.evs ev)) :
    ∃ r s', eventAddInserted debugMode evsel evsigsel s ev = .ok (r, s') ∧ Inv s' ∧
      (r ≠ -1 → (s'.evs ev).evFlags.inserted = ((s.evs ev).evFlags.inserted || (s.evs ev).enters)) ∧
      ∃ m, s' = { s with evmap := m } ∨ s' = s.pushInserted ev m := by
  unfold eventAddInserted
  dsimp only
  split
  · next hcond =>
    have henters : (s.evs ev).enters = true := hcond
    simp only [Bool.and_eq_true, Bool.or_eq_true, Bool.not_eq_true', Bool.or_eq_false_iff] at hcond
    obtain ⟨hwants, ⟨hins, -⟩, -⟩ := hcond
    have hkind' : isIo (s.evs ev).evEvents = true ∨ 0 ≤ (s.evs ev).evFd :=
      hwants.imp_right fun hs => (hkind hs).2
    obtain ⟨r, m, hadd, hno, hyes⟩ := evmapAdd_spec debugMode hsel hsig h hins hkind'
    rw [hadd]
    by_cases hr : r = -1
    · refine ⟨r, { s with evmap := m }, ?_, h.setMap (hno hr), fun hne => absurd hr hne, m,
        .inl rfl⟩
      subst hr
      rfl
    refine ⟨if r = 1 then 0 else r, s.pushInserted ev m, ?_, ?_, fun _ => ?_, m, .inr rfl⟩
    · show (do
        let s ← if r ≠ -1 then eventQueueInsertInserted { s with evmap := m } ev
          else pure { s with evmap := m }
        pure (if r = 1 then 0 else r, s)) = _
      rw [if_pos hr, eventQueueInsertInserted, if_neg (by simp [hins])]
      rfl
    · refine h.setFlags (s.pushInserted_evs ev m) ?_ (h.time.setFlags rfl)
        (h.act.setFlags rfl rfl) (hyes hr _ rfl) ?_ (h.timers.setFlags rfl) rfl
      · exact (h.ev ev).setFlags rfl rfl rfl (fun hf => by cases hfin.symm.trans hf)
          (fun _ => hwants) hkind (fun hi => ((h.ev ev).internal hi).2.2.2.2.1) (.inl rfl)
      show s.eventCount + s.counted ev = _
      unfold EventBase.counted weight
      cases (s.evs ev).evFlags.internal <;> simp [hins]; ring
    · rw [henters, Bool.or_true, EventBase.pushInserted_evs, upd_self]
  · next hcond =>
    have henters : (s.evs ev).enters = false := Bool.eq_false_iff.mpr hcond
    exact ⟨0, s, rfl, h, fun _ => by rw [henters, Bool.or_false], s.evmap, .inl rfl⟩

/-- The event leaves the map. -/
theorem eventDelInserted_spec (hsel : evsel.NoFault) (hsig : evsigsel.NoFault) (h : Inv s)
    (hins : (s.evs ev).evFlags.inserted = true) :
    ∃ r m, (do
      let s ← eventQueueRemoveInserted s ev
      let (res, evmap) ← evmapDel evsel evsigsel s ev
      pure (if res = 1 then 0 else res, { s with evmap := evmap })) =
        (.ok (r, s.dropInserted ev m) : Except Fault _) ∧ Inv (s.dropInserted ev m) := by
  set s1 := (s.decrEventCount ev).setFlags ev { (s.evs ev).evFlags with inserted := false }
  have hself : s1.evs ev = { s.evs ev with
      evFlags := { (s.evs ev).evFlags with inserted := false } } := upd_self _ _ _
  have hdel : ∃ r m, evmapDel evsel evsigsel s1 ev = .ok (r, m) ∧ MapInv s1.evs m := by
    unfold evmapDel
    rw [hself]
    cases hio : isIo (s.evs ev).evEvents with
    | true => exact evmapIoDel_spec hsel h.map hio hins rfl
    | false =>
      have hs : isSignal (s.evs ev).evEvents = true :=
        ((h.ev ev).inserted hins).resolve_left (by rw [hio]; decide)
      have hq : (s.evs ev).queued = true := by simp [Event.queued, hins]
      exact evmapSignalDel_spec hsig h.map hio ((h.ev ev).kind hq hs).2 hins rfl s1.evs
  obtain ⟨r, m, hdel, hm⟩ := hdel
  refine ⟨if r = 1 then 0 else r, m, ?_, ?_⟩
  · rw [eventQueueRemoveInserted, if_neg (by simp [hins])]
    show (do
      let (res, evmap) ← evmapDel evsel evsigsel s1 ev
      pure (if res = 1 then 0 else res, { s1 with evmap := evmap })) = _
    rw [hdel]
    rfl
  refine h.setFlags (s.dropInserted_evs ev m)
    ((h.ev ev).clear rfl rfl rfl id (by rintro ⟨⟩) id id) (h.time.setFlags rfl)
    (h.act.setFlags rfl rfl) hm ?_ (h.timers.setFlags rfl) rfl
  show s.eventCount - s.counted ev = _
  unfold EventBase.counted weight
  cases (s.evs ev).evFlags.internal <;> simp [hins]; ring

end

end Libevent
