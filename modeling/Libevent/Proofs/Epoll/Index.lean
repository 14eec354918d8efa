import Libevent.Proofs.Epoll.Changelist

/-!
# `Libevent.Proofs.Epoll.Index`: the changelist and the map point at each other

`event_changelist_get_or_construct` trusts the `idxplus1` of an fd, and
`event_changelist_remove_all_` trusts the fd of a change. Both are right in every run: an fd has at
most one change, and its `idxplus1` is the number of that change (`changelistRun_indexed`). This
holds with any masks and any old events, and also when an allocation fails: a list that could not
grow, or a record that could not be made, leaves everything as it was.
-/

namespace Libevent

open Lib

/-- The counters count, and the `fdinfo` of every fd points at its change. -/
structure IndexOk (evs : EvId → Event) (m : Evmap EpollBase) : Prop where
  counts : ∀ fd, CountsOk evs (m.io fd)
  bound : ∀ fd, (m.entries fd).isSome → fd < m.nentries
  changes : ChangesAt m.evbase.changelist fun fd => (m.io fd).fdinfo

section
variable {evs : EvId → Event} {m m' : Evmap EpollBase} {fd : Nat} {ctx' : EvmapIo} {b : EpollBase}
  {f : EventChange → EventChange}

section
variable (h : IndexOk evs m) (hset : EntrySet m fd ctx' b m') (hcounts : CountsOk evs ctx')
include h hset hcounts

/-- The entry of `fd` is written together with the changelist. -/
theorem IndexOk.set
    (hat : ChangesAt b.changelist fun x => if x = fd then ctx'.fdinfo else (m.io x).fdinfo) :
    IndexOk evs m' where
  counts := hset.counts h.counts hcounts
  bound := hset.bound h.bound
  changes := by
    rw [hset.evbase, hset.field EvmapIo.fdinfo]
    exact hat

/-- The entry of `fd` is written, and its `fdinfo` stays. -/
theorem IndexOk.set_same (hcl : b.changelist = m.evbase.changelist)
    (hinfo : ctx'.fdinfo = (m.io fd).fdinfo) : IndexOk evs m' := by
  refine h.set hset hcounts ?_
  rw [hcl, hinfo, write_self fun x => (m.io x).fdinfo]
  exact h.changes

end

/-- The map grows, but the record of the fd cannot be made. -/
theorem IndexOk.grown (h : IndexOk evs m) (mm : Mm) {n : Nat} (hn : m.nentries ≤ n) :
    IndexOk evs { m with mm := mm, nentries := n } :=
  { h with bound := fun fd hfd => Nat.lt_of_lt_of_le (h.bound fd hfd) hn }

/-- A call of the changelist for `fd`: the change of the fd is updated, or the call fails and
nothing has changed. -/
theorem IndexOk.call (h : IndexOk evs m) (hf : KeepsFd f) (fd old : Nat) :
    ∃ r b' idx, m.evbase.ofChangelist (eventChangelistUpdate f m.evbase.changelist m.evbase.mm fd
        old (m.io fd).fdinfo) = .ok (r, b', idx) ∧
      (r = -1 → b'.changelist = m.evbase.changelist ∧ idx = (m.io fd).fdinfo) ∧
      (r ≠ -1 → ChangesAt b'.changelist fun x => if x = fd then idx else (m.io x).fdinfo) := by
  rcases h.changes.update hf m.evbase.mm fd old with ⟨-, mm', hup⟩ | ⟨cl', mm', idx, hup, -, hat, -⟩
  · rw [hup]
    exact ⟨-1, _, _, rfl, fun _ => ⟨rfl, rfl⟩, fun hr => absurd rfl hr⟩
  · rw [hup]
    exact ⟨0, _, idx, rfl, fun hr => by omega, fun _ => hat⟩

/-- What `evmap_io_add_` and `evmap_io_del_` tell the changelist is no signal. -/
private theorem hasAny_told_signal (ctx : EvmapIo) (events : Nat) :
    hasAny ((events &&& EV_ET) ||| ctx.resUp events) EV_SIGNAL = false :=
  (standsFor_et events (ctx.newInterest events)).signal

/-- `evmap_io_add_`, whatever the allocator does. -/
theorem IndexOk.ioAdd (h : IndexOk evs m) (debugMode : Bool) (ev : EvId) :
    ∃ m', (evmapIoAdd debugMode epollopsChangelist evs m (evs ev).evFd ev).map Prod.snd = .ok m' ∧
      IndexOk evs m' := by
  have hcases := evmapIoAdd_cases debugMode epollopsChangelist evs m ev
  generalize evmapIoAdd debugMode epollopsChangelist evs m (evs ev).evFd ev = r at hcases ⊢
  cases hcases with
  | noFd hfd => exact ⟨m, rfl, h⟩
  | noMemory hmm mm hn => exact ⟨_, rfl, h.grown mm hn⟩
  | refused hrej hset => exact ⟨_, rfl, h.set_same hset (h.counts _) rfl rfl⟩
  | quiet hfd hrej hres hset =>
    exact ⟨_, rfl, h.set_same hset ((h.counts _).insert ev _) rfl rfl⟩
  | told hfd hrej hres hset =>
    generalize (evs ev).evFd.toNat = fd at hset
    obtain ⟨r, b', idx, hcall, hfail, hok⟩ :=
      h.call (EventChange.keepsFd_add (hasAny_told_signal (m.io fd) (evs ev).evEvents)) fd
        (m.io fd).old
    rw [show epollopsChangelist.add m.evbase fd .. = _ from hcall]
    by_cases hr : r = -1
    · simp only [if_pos hr]
      exact ⟨_, rfl, h.set_same (hset b' _) { h.counts fd with } (hfail hr).1 (hfail hr).2⟩
    · simp only [if_neg hr]
      exact ⟨_, rfl, h.set (hset b' _) ((h.counts fd).insert ev _) (hok hr)⟩

/-- `evmap_io_del_` of an event of the map. -/
theorem IndexOk.ioDel (h : IndexOk evs m) {ev : EvId}
    (hmem : 0 ≤ (evs ev).evFd → ev ∈ (m.io (evs ev).evFd.toNat).events) :
    ∃ m', (evmapIoDel epollopsChangelist evs m (evs ev).evFd ev).map Prod.snd = .ok m' ∧
      IndexOk evs m' := by
  have hcases := evmapIoDel_cases epollopsChangelist evs m ev hmem (h.counts _) h.bound
  generalize evmapIoDel epollopsChangelist evs m (evs ev).evFd ev = r at hcases ⊢
  cases hcases with
  | noFd hfd => exact ⟨m, rfl, h⟩
  | quiet hfd hres hset =>
    exact ⟨_, rfl, h.set_same hset ((h.counts _).erase (hmem hfd) _) rfl rfl⟩
  | told hfd hres hset =>
    replace hmem := hmem hfd
    generalize (evs ev).evFd.toNat = fd at hset hmem
    obtain ⟨r, b', idx, hcall, hfail, hok⟩ :=
      h.call (EventChange.keepsFd_del ((m.io fd).resDown (evs ev).evEvents)) fd (m.io fd).old
    rw [show epollopsChangelist.del m.evbase fd .. = _ from hcall]
    refine ⟨_, rfl, ?_⟩
    have hcounts := (h.counts fd).erase hmem idx
    by_cases hr : r = -1
    · exact h.set_same (hset b' _) hcounts (hfail hr).1 (hfail hr).2
    · exact h.set (hset b' _) hcounts (hok hr)

/-- A direct call of `event_changelist_add_` or `event_changelist_del_`. -/
theorem IndexOk.directCall (h : IndexOk evs m)
    {call : EpollBase → (fd old events fdinfo : Nat) → Except Fault (Int × EpollBase × Nat)}
    (hf : KeepsFd f) (fd old events : Nat) (hsome : (m.entries fd).isSome) (hcall : ∀ fdinfo, call
      m.evbase fd old events fdinfo = m.evbase.ofChangelist (eventChangelistUpdate f
      m.evbase.changelist m.evbase.mm fd old fdinfo)) :
    ∃ m', changelistCall call m fd old events = .ok m' ∧ IndexOk evs m' := by
  obtain ⟨ctx, hctx⟩ := Option.isSome_iff_exists.mp hsome
  have hio : m.io fd = ctx := by simp [Evmap.io, hctx]
  obtain ⟨r, b', idx, heq, hfail, hok⟩ := h.call hf fd old
  rw [← hcall, hio] at heq
  have hset := (EntrySet.self hctx (h.bound fd hsome)).write b' { ctx with fdinfo := idx }
  simp only [changelistCall, hctx, heq]
  refine ⟨_, rfl, ?_⟩
  have hcounts : CountsOk evs { ctx with fdinfo := idx } := { hio ▸ h.counts fd with }
  by_cases hr : r = -1
  · exact h.set_same hset hcounts (hfail hr).1 (hfail hr).2
  · exact h.set hset hcounts (hok hr)

/-- Every legal action succeeds: no assertion of the changelist fails. -/
theorem IndexOk.step (h : IndexOk evs m) (debugMode : Bool) {a : ChangelistAction}
    (hlegal : ChangelistLegal evs m a) :
    ∃ m', changelistStep debugMode evs m a = .ok m' ∧ IndexOk evs m' := by
  cases a with
  | ioAdd ev => exact h.ioAdd debugMode ev
  | ioDel ev =>
    refine h.ioDel fun hfd => ?_
    rw [← Evmap.ioEvents_eq]
    exact hlegal hfd
  | add fd old events =>
    exact h.directCall (EventChange.keepsFd_add hlegal.2) fd old events hlegal.1 fun _ => rfl
  | del fd old events =>
    exact h.directCall (EventChange.keepsFd_del events) fd old events hlegal fun _ => rfl
  | removeAll =>
    obtain ⟨m1, hrun, hbase, -, hn, hsome, hio⟩ := h.changes.removeAll
    let m2 : Evmap EpollBase := { m1 with
      evbase := { m1.evbase with changelist := { m1.evbase.changelist with changes := [] } } }
    have hio2 : ∀ fd, m2.io fd = { m.io fd with fdinfo := 0 } := hio
    refine ⟨m2, by simp only [changelistStep, hrun, m2], fun fd => ?_, fun fd hfd => ?_, ?_⟩
    · rw [hio2]
      exact { h.counts fd with }
    · show fd < m1.nentries
      rw [hn]
      exact h.bound fd ((hsome fd).symm.trans hfd)
    · have hpos : (fun fd => (m2.io fd).fdinfo) = fun _ => 0 := funext fun fd => by rw [hio2]
      rw [hpos]
      exact ChangesAt.empty _
  | grow fd =>
    rcases getIoSlotAndCtor_cases m fd with ⟨-, mm, n, hn, hslot⟩ | ⟨m1, hslot, hset⟩
    · exact ⟨_, rfl, by rw [hslot]; exact h.grown mm hn⟩
    · exact ⟨_, rfl, by rw [hslot]; exact h.set_same hset (h.counts fd) rfl rfl⟩

/-- The changes have different fds, the `idxplus1` of an fd is `i + 1` exactly when change number
`i` is the one of the fd, and 0 when no change is. The counters are the numbers of the listed
events that want each condition. -/
structure ChangelistIndexed (evs : EvId → Event) (m : Evmap EpollBase) : Prop where
  distinct : (m.evbase.changelist.changes.map EventChange.fd).Nodup
  index : ∀ fd i, (m.io fd).fdinfo = i + 1 ↔
    ∃ ch, m.evbase.changelist.changes[i]? = some ch ∧ ch.fd = fd
  absent : ∀ fd, (m.io fd).fdinfo = 0 ↔ ∀ ch ∈ m.evbase.changelist.changes, ch.fd ≠ fd
  nread : ∀ fd, (m.io fd).nread = (m.ioEvents fd).countP fun e => hasAny (evs e).evEvents EV_READ
  nwrite : ∀ fd, (m.io fd).nwrite = (m.ioEvents fd).countP fun e => hasAny (evs e).evEvents EV_WRITE
  nclose : ∀ fd, (m.io fd).nclose =
    (m.ioEvents fd).countP fun e => hasAny (evs e).evEvents EV_CLOSED

theorem IndexOk.indexed (h : IndexOk evs m) : ChangelistIndexed evs m where
  distinct := h.changes.nodup
  index := by
    intro fd i
    constructor
    · intro hpos
      obtain ⟨hlt, hkey⟩ := h.changes.index.found fd i hpos
      exact ⟨_, EventChangelist.entry_of_lt hlt, hkey⟩
    · rintro ⟨ch, hch, rfl⟩
      obtain ⟨hlt, -⟩ := List.getElem?_eq_some_iff.mp hch
      have hlisted := h.changes.index.listed i hlt
      rwa [EventChangelist.entry, hch] at hlisted
  absent := by
    intro fd
    have hmem := h.changes.mem_iff fd
    rw [List.mem_map] at hmem
    rw [← not_iff_not, ← ne_eq, ← hmem]
    push Not
    rfl
  nread := fun fd => by rw [Evmap.ioEvents_eq]; exact (h.counts fd).nread
  nwrite := fun fd => by rw [Evmap.ioEvents_eq]; exact (h.counts fd).nwrite
  nclose := fun fd => by rw [Evmap.ioEvents_eq]; exact (h.counts fd).nclose

end

/-- After any run of calls of the changelist, with any events, growth of the map and of the list,
and any failures of the allocator, the changelist and the map point at each other and the counters
count. No action of the run stops at an assertion. -/
theorem changelistRun_indexed (debugMode : Bool) (evs : EvId → Event) (mapMm listMm : Mm)
    (actions : List ChangelistAction)
    (hlegal : Meets (changelistStep debugMode evs) (ChangelistLegal evs)
      { evbase := { mm := listMm }, mm := mapMm } actions) :
    ∃ m, run (changelistStep debugMode evs) { evbase := { mm := listMm }, mm := mapMm } actions =
      .ok m ∧ ChangelistIndexed evs m := by
  have hstart : IndexOk evs { evbase := { mm := listMm }, mm := mapMm } :=
    ⟨fun _ => CountsOk.empty evs, fun _ h => by simp at h, ChangesAt.empty 0⟩
  obtain ⟨m, hrun, hm⟩ := run_total (fun _ _ h hl => h.step debugMode hl) hstart hlegal
  exact ⟨m, hrun, hm.indexed⟩

/-- Two fds get a change, one of them from an edge-triggered event, and the list is emptied in
between. -/
theorem changelistRun_indexed_two_fds :
    let evs : EvId → Event := fun ev => { evFd := 3 + ev, evEvents := EV_READ ||| EV_ET }
    let actions : List ChangelistAction :=
      [.ioAdd 0, .ioAdd 1, .removeAll, .grow 40, .add 40 0 EV_WRITE, .ioDel 1]
    ∃ m, run (changelistStep false evs) { evbase := {} } actions = .ok m ∧
      ChangelistIndexed evs m := by
  refine changelistRun_indexed false _ {} {} _ ?_
  refine .cons trivial rfl (.cons trivial rfl (.cons trivial rfl (.cons trivial rfl
    (.cons ⟨rfl, rfl⟩ rfl (.cons ?_ rfl trivial)))))
  intro _
  decide

end Libevent
