import Libevent.Lib.Indexed
import Libevent.Proofs.Epoll.Immediate

/-!
# `Libevent.Proofs.Epoll.Changelist`: the backend that waits for the dispatch

The changelist is an indexed array: the `fdinfo` of an fd points at its change (`ChangesAt`).
`event_changelist_add_` and `event_changelist_del_` update that change or make a fresh one
(`ChangesAt.update`), and `event_changelist_remove_all_` takes all the changes off
(`ChangesAt.removeAll`).

`Pending ep ch goal`: applied to what the kernel has, the change `ch` leads to the interest
`goal`. `ChangelistSet` says that the change of every fd is pending for what is wanted of the fd;
an fd without a change counts as one with a fresh change, which does nothing. Adds and deletes keep
it, and a dispatch applies all the changes.
-/

namespace Libevent

open Lib

/-- From what the kernel has for its fd, the change leads to the interest `goal`. -/
structure Pending (ep : Epollop) (ch : EventChange) (goal : Interest) : Prop where
  from_kernel : ∃ k : Interest, ep.interest ch.fd = k.registered ∧ ch.oldEvents = k.ev ∧
    Consistent k ch.readChange ch.writeChange ch.closeChange ∧
    k.change ch.readChange ch.writeChange ch.closeChange = goal

/-- Replacing the change of one condition by an add, when `b` holds. -/
private theorem applyBit_add (k b : Bool) (r : Nat) :
    applyBit k (if b then EV_CHANGE_ADD else r) = applyBit (applyBit k r) (addCode b) := by
  cases b <;> rfl

private theorem CodeOk.add {k : Bool} {r : Nat} (h : CodeOk k r) (b : Bool) :
    CodeOk k (if b then EV_CHANGE_ADD else r) := by
  cases b with
  | false => exact h
  | true => exact codeOk_addCode k true

/-- Replacing the change of one condition by a delete, when `b` holds; of a condition that
is not there, this is no change. -/
private theorem applyBit_del (k b : Bool) (r : Nat) :
    applyBit k (if b then (if k then EV_CHANGE_DEL else 0) else r) =
      applyBit (applyBit k r) (delCode b) := by
  cases b with
  | false => rfl
  | true => cases k <;> rfl

private theorem CodeOk.delete {k : Bool} {r : Nat} (h : CodeOk k r) (b : Bool) :
    CodeOk k (if b then (if k then EV_CHANGE_DEL else 0) else r) := by
  cases b with
  | false => exact h
  | true => cases k <;> constructor <;> simp [EV_CHANGE_DEL]

/-- `event_changelist_add_` with level-triggered events. -/
theorem EventChange.add_ev (ch : EventChange) (i : Interest) : ch.add i.ev = { ch with
          readChange := if i.read then EV_CHANGE_ADD else ch.readChange
          writeChange := if i.write then EV_CHANGE_ADD else ch.writeChange
          closeChange := if i.closed then EV_CHANGE_ADD else ch.closeChange } := by
  obtain ⟨a, b, c⟩ := i
  cases a <;> cases b <;> cases c <;>
    simp [EventChange.add, Interest.ev, hasAny, EV_READ, EV_WRITE, EV_CLOSED, EV_ET,
      EV_PERSIST, EV_SIGNAL]

theorem EventChange.del_ev (ch : EventChange) (i k : Interest) (hold : ch.oldEvents = k.ev) :
    ch.del i.ev = { ch with
          readChange := if i.read then (if k.read then EV_CHANGE_DEL else 0) else ch.readChange
          writeChange := if i.write then (if k.write then EV_CHANGE_DEL else 0) else ch.writeChange
          closeChange :=
            if i.closed then (if k.closed then EV_CHANGE_DEL else 0) else ch.closeChange } := by
  have hread : ∀ j : Interest, hasAny j.ev (EV_READ ||| EV_SIGNAL) = j.read := by
    rintro ⟨a, b, c⟩; cases a <;> cases b <;> cases c <;> rfl
  have hwrite : ∀ j : Interest, hasAny j.ev EV_WRITE = j.write := by
    rintro ⟨a, b, c⟩; cases a <;> cases b <;> cases c <;> rfl
  have hclosed : ∀ j : Interest, hasAny j.ev EV_CLOSED = j.closed := by
    rintro ⟨a, b, c⟩; cases a <;> cases b <;> cases c <;> rfl
  simp only [EventChange.del, hold, hread, hwrite, hclosed]

variable {ep : Epollop} {ch : EventChange} {goal : Interest} {f : EventChange → EventChange}

/-- An add on top of a pending change. -/
theorem Pending.add (h : Pending ep ch goal)
    (i : Interest) : Pending ep (ch.add i.ev) (goal.or i) := by
  obtain ⟨k, hk, hold, hcons, rfl⟩ := h.from_kernel
  rw [EventChange.add_ev]
  refine ⟨k, hk, hold, ⟨hcons.read.add _, hcons.write.add _, hcons.closed.add _⟩, ?_⟩
  rw [← Interest.change_addCode]
  simp only [Interest.change, applyBit_add]

/-- A delete on top of a pending change. -/
theorem Pending.del (h : Pending ep ch goal)
    (i : Interest) : Pending ep (ch.del i.ev) (goal.diff i) := by
  obtain ⟨k, hk, hold, hcons, rfl⟩ := h.from_kernel
  rw [EventChange.del_ev ch i k hold]
  refine ⟨k, hk, hold, ⟨hcons.read.delete _, hcons.write.delete _, hcons.closed.delete _⟩, ?_⟩
  rw [← Interest.change_delCode]
  simp only [Interest.change, applyBit_del]

/-- A fresh change does nothing yet. -/
theorem Pending.fresh {fd : Nat} {k : Interest} (h : ep.interest fd = k.registered) :
    Pending ep { fd := fd, oldEvents := k.ev } k :=
  ⟨k, h, rfl, consistent_addCode k Interest.empty, rfl⟩

/-- A pending change, applied: the call succeeds (if there is one), and the kernel has the
goal. -/
theorem Pending.apply (h : Pending ep ch goal) (hcalls : ∀ c ∈ ep.calls, c.errno = none) :
    ∃ ep', epollApplyOneChange ep ch = .ok (0, ep') ∧
      (∀ x, ep'.interest x = if x = ch.fd then goal.registered else ep.interest x) ∧
      ∀ c ∈ ep'.calls, c.errno = none := by
  obtain ⟨k, hk, hold, hcons, rfl⟩ := h.from_kernel
  have hlow : ∀ x < 3, x &&& 3 = x := by decide
  have het : ∀ x < 3, ∀ y < 3, hasAny (x ||| y) EV_CHANGE_ET = false := by decide
  rcases epollApplyOneChange_run_eq ep ch k hold (hlow _ hcons.read.lt) (hlow _ hcons.write.lt)
    (hlow _ hcons.closed.lt) hcons (by rw [hk]) with ⟨hr, hw, hc, happ⟩ | ⟨-, op, events, happ⟩
  · refine ⟨ep, happ, fun x => ?_, hcalls⟩
    have hsame : k.change ch.readChange ch.writeChange ch.closeChange = k := by
      rw [hr, hw, hc]; rfl
    split
    · next hx => rw [hx, hsame, hk]
    · rfl
  have hreg := registeredBy_level (het _ hcons.read.lt _ hcons.write.lt)
  refine ⟨_, happ, fun x => by rw [hreg], fun c hc => ?_⟩
  rcases List.mem_cons.mp hc with rfl | hc
  · rfl
  · exact hcalls c hc

/-- A pending change does not look at the other fds. -/
theorem Pending.congr {ep' : Epollop} (h : Pending ep ch goal)
    (hep : ep'.interest ch.fd = ep.interest ch.fd) :
    Pending ep' ch goal := by
  obtain ⟨k, hk, hrest⟩ := h.from_kernel
  exact ⟨k, hep.trans hk, hrest⟩

/-! ### The dispatch -/

/-- `epoll_apply_changes` on pending changes of distinct fds. -/
theorem epollApplyChanges_run_eq (goal : Nat → Interest) :
    ∀ (chs : List EventChange) (ep : Epollop), (chs.map EventChange.fd).Nodup →
      (∀ ch ∈ chs, Pending ep ch (goal ch.fd)) → (∀ c ∈ ep.calls, c.errno = none) →
      ∃ ep', epollApplyChanges chs ep = .ok (0, ep') ∧ (∀ fd, ep'.interest fd =
          if fd ∈ chs.map EventChange.fd then (goal fd).registered else ep.interest fd) ∧
        ∀ c ∈ ep'.calls, c.errno = none := by
  intro chs
  induction chs with
  | nil => intro ep _ _ hcalls; exact ⟨ep, rfl, fun _ => by simp, hcalls⟩
  | cons ch chs ih =>
    intro ep hnodup hpend hcalls
    rw [List.map_cons, List.nodup_cons] at hnodup
    obtain ⟨ep1, happ, hint, hcalls1⟩ := (hpend ch (by simp)).apply hcalls
    have hpend1 : ∀ c ∈ chs, Pending ep1 c (goal c.fd) := by
      intro c hc
      refine (hpend c (by simp [hc])).congr ?_
      rw [hint, if_neg]
      intro heq
      exact hnodup.1 (heq ▸ List.mem_map_of_mem hc)
    obtain ⟨ep', hrest, hint', hcalls'⟩ := ih ep1 hnodup.2 hpend1 hcalls1
    refine ⟨ep', by simp [epollApplyChanges, happ, hrest], fun fd => ?_, hcalls'⟩
    rw [hint', hint]
    by_cases hfd : fd = ch.fd
    · simp [hfd]
    · simp [hfd]

/-- `event_changelist_remove_all_` on changes that the map points back at. -/
theorem eventChangelistRemoveAll_run_eq {β : Type} :
    ∀ (chs : List EventChange) (i : Nat) (m : Evmap β), (chs.map EventChange.fd).Nodup →
      (∀ ch ∈ chs, hasAny ch.readChange EV_CHANGE_SIGNAL = false) →
      (∀ n ch, chs[n]? = some ch → (m.io ch.fd).fdinfo = i + n + 1) →
      ∃ m', eventChangelistRemoveAll chs i m = .ok m' ∧ m'.evbase = m.evbase ∧ m'.mm = m.mm ∧
        m'.nentries = m.nentries ∧ (∀ fd, (m'.entries fd).isSome = (m.entries fd).isSome) ∧
        ∀ fd, m'.io fd =
          if fd ∈ chs.map EventChange.fd then { m.io fd with fdinfo := 0 } else m.io fd := by
  intro chs
  induction chs with
  | nil => intro i m _ _ _; exact ⟨m, rfl, rfl, rfl, rfl, fun _ => rfl, fun _ => by simp⟩
  | cons ch chs ih =>
    intro i m hnodup hsig hback
    rw [List.map_cons, List.nodup_cons] at hnodup
    rw [List.forall_mem_cons] at hsig
    have hidx : (m.io ch.fd).fdinfo = i + 1 := hback 0 ch rfl
    obtain ⟨ctx, hctx⟩ : ∃ ctx, m.entries ch.fd = some ctx := by
      cases h : m.entries ch.fd with
      | some ctx => exact ⟨ctx, rfl⟩
      | none => simp [Evmap.io, h] at hidx
    have hio : m.io ch.fd = ctx := by simp [Evmap.io, hctx]
    have hback1 : ∀ n c, chs[n]? = some c →
        ((m.setIo ch.fd { ctx with fdinfo := 0 }).io c.fd).fdinfo = i + 1 + n + 1 := by
      intro n c hc
      have hne : c.fd ≠ ch.fd := by
        intro heq
        exact hnodup.1 (heq ▸ List.mem_map_of_mem (List.mem_of_getElem? hc))
      rw [Evmap.setIo_io_ne _ _ hne, hback (n + 1) c (by simpa using hc)]
      omega
    obtain ⟨m', hrun, hbase, hmm, hn, hsome, hent⟩ := ih (i + 1) _ hnodup.2 hsig.2 hback1
    refine ⟨m', ?_, hbase, hmm, hn, fun fd => ?_, fun fd => ?_⟩
    · rw [hio] at hidx
      simpa [eventChangelistRemoveAll, eventChangeGetFdinfo, hsig.1, hctx, hidx] using hrun
    · rw [hsome]
      by_cases hfd : fd = ch.fd
      · simp [hfd, hctx]
      · rw [Evmap.setIo_entries_ne _ _ hfd]
    · rw [hent]
      by_cases hfd : fd = ch.fd
      · simp [hfd, hio]
      · simp [hfd, Evmap.setIo_io_ne _ _ hfd]

/-! ### The array -/

/-- The change number `i`. -/
def EventChangelist.entry (cl : EventChangelist) (i : Nat) : EventChange :=
  cl.changes[i]?.getD { fd := 0, oldEvents := 0 }

/-- The positions `pos` point at the changes, none of which is one of a signal. -/
structure ChangesAt (cl : EventChangelist) (pos : Nat → Nat) : Prop where
  index : Indexed cl.changes.length cl.entry EventChange.fd pos
  size : cl.changes.length ≤ cl.changesSize
  io : ∀ ch ∈ cl.changes, hasAny ch.readChange EV_CHANGE_SIGNAL = false

/-- An update of a change keeps what `ChangesAt` looks at. -/
structure KeepsFd (f : EventChange → EventChange) : Prop where
  fd : ∀ ch, (f ch).fd = ch.fd
  io : ∀ ch, hasAny ch.readChange EV_CHANGE_SIGNAL = false →
    hasAny (f ch).readChange EV_CHANGE_SIGNAL = false

theorem EventChange.keepsFd_add {events : Nat} (h : hasAny events EV_SIGNAL = false) :
    KeepsFd fun ch => ch.add events where
  fd := fun _ => rfl
  io := fun ch hch => by
    have hmask : EV_SIGNAL &&& (EV_ET ||| EV_PERSIST ||| EV_SIGNAL) = EV_SIGNAL := by decide
    have hand : (events &&& (EV_ET ||| EV_PERSIST ||| EV_SIGNAL)) &&& EV_SIGNAL =
        events &&& EV_SIGNAL := by
      rw [Nat.and_assoc, Nat.and_comm _ EV_SIGNAL, hmask]
    show hasAny (if _ then _ else _) EV_CHANGE_SIGNAL = false
    split
    · rw [hasAny_or]
      simpa [hasAny, EV_CHANGE_SIGNAL, hand, show EV_CHANGE_ADD &&& EV_SIGNAL = 0 by decide] using h
    · exact hch

theorem EventChange.keepsFd_del (events : Nat) : KeepsFd fun ch => ch.del events where
  fd := fun _ => rfl
  io := fun ch hch => by
    show hasAny (if _ then if _ then EV_CHANGE_DEL else 0 else _) EV_CHANGE_SIGNAL = false
    split
    · split <;> rfl
    · exact hch

section
variable {cl : EventChangelist} {pos : Nat → Nat}

theorem EventChangelist.entry_of_lt {i : Nat} (hi : i < cl.changes.length) :
    cl.changes[i]? = some (cl.entry i) := by
  rw [entry, List.getElem?_eq_getElem hi]
  rfl

theorem ChangesAt.empty (size : Nat) : ChangesAt { changesSize := size } fun _ => 0 :=
  ⟨Indexed.empty fun _ => rfl, Nat.zero_le _, fun _ h => by simp at h⟩

/-- A change of the list is the one that its fd finds. -/
theorem ChangesAt.lookup_of_mem (h : ChangesAt cl pos) (hch : ch ∈ cl.changes) :
    lookup cl.entry pos ch.fd = some ch := by
  obtain ⟨i, hi, rfl⟩ := List.getElem_of_mem hch
  have hentry : cl.entry i = cl.changes[i] := by simp [EventChangelist.entry, hi]
  rw [← hentry]
  exact h.index.lookup_entry hi

/-- No fd has two changes. -/
theorem ChangesAt.nodup (h : ChangesAt cl pos) : (cl.changes.map EventChange.fd).Nodup := by
  rw [List.nodup_iff_getElem?_ne_getElem?]
  intro i j hij hj heq
  rw [List.length_map] at hj
  simp only [List.getElem?_map, EventChangelist.entry_of_lt hj,
    EventChangelist.entry_of_lt (hij.trans hj), Option.map_some, Option.some.injEq] at heq
  exact absurd (h.index.key_injective (hij.trans hj) hj heq) (Nat.ne_of_lt hij)

/-- The fds that have a change are those whose position is not zero. -/
theorem ChangesAt.mem_iff (h : ChangesAt cl pos) (fd : Nat) :
    fd ∈ cl.changes.map EventChange.fd ↔ pos fd ≠ 0 := by
  constructor
  · intro hmem
    obtain ⟨ch, hch, rfl⟩ := List.mem_map.mp hmem
    intro hz
    have hnone : lookup cl.entry pos ch.fd = none := lookup_eq_none_iff.mpr hz
    rw [h.lookup_of_mem hch] at hnone
    cases hnone
  intro hne
  obtain ⟨i, hi⟩ := Nat.exists_eq_succ_of_ne_zero hne
  obtain ⟨hlt, hkey⟩ := h.index.found fd i hi
  rw [← hkey]
  exact List.mem_map_of_mem (List.mem_of_getElem? (EventChangelist.entry_of_lt hlt))

private theorem modify_length_append {α : Type} (f : α → α) (l : List α) (a : α) :
    (l ++ [a]).modify l.length f = l ++ [f a] := by
  induction l with
  | nil => rfl
  | cons b l ih => simp [ih]

/-- The list has room for one more change, unless it cannot grow. -/
private theorem ChangesAt.room (h : ChangesAt cl pos) (mm : Mm) :
    (¬ mm.Reliable ∧ (if cl.changes.length = cl.changesSize then eventChangelistGrow cl mm
        else (some cl, mm)) = (none, mm.alloc.2)) ∨
      ∃ size mm', (if cl.changes.length = cl.changesSize then eventChangelistGrow cl mm
          else (some cl, mm)) = (some { cl with changesSize := size }, mm') ∧
        (mm.Reliable → mm'.Reliable) ∧ cl.changes.length < size := by
  by_cases hfull : cl.changes.length = cl.changesSize
  · rw [if_pos hfull, eventChangelistGrow]
    cases halloc : mm.alloc.1 with
    | false =>
      refine .inl ⟨fun hmm => ?_, rfl⟩
      cases hmm.alloc_fst.symm.trans halloc
    | true =>
      refine .inr ⟨_, mm.alloc.2, rfl, id, ?_⟩
      split <;> omega
  · rw [if_neg hfull]
    exact .inr ⟨cl.changesSize, mm, rfl, id, Nat.lt_of_le_of_ne h.size hfull⟩

/-- What `event_changelist_add_` and `event_changelist_del_` do to the changelist: `f` is applied
to the change of the fd, which is a fresh one when the fd has none. They fail when the list cannot
grow. -/
theorem ChangesAt.update (h : ChangesAt cl pos) (hf : KeepsFd f) (mm : Mm) (fd old : Nat) :
    (¬ mm.Reliable ∧ ∃ mm', eventChangelistUpdate f cl mm fd old (pos fd) =
        .ok (-1, cl, mm', pos fd)) ∨
      ∃ cl' mm' idx, eventChangelistUpdate f cl mm fd old (pos fd) = .ok (0, cl', mm', idx) ∧
        (mm.Reliable → mm'.Reliable) ∧ ChangesAt cl' (fun x => if x = fd then idx else pos x) ∧
        ∀ x, lookup cl'.entry (fun x => if x = fd then idx else pos x) x = if x = fd
          then some (f ((lookup cl.entry pos fd).getD { fd := fd, oldEvents := old }))
          else lookup cl.entry pos x := by
  cases hpos : pos fd with
  | zero =>
    -- a fresh change at the end of the list
    rw [eventChangelistUpdate, eventChangelistGetOrConstruct, if_pos rfl,
      if_neg (Nat.not_lt.mpr h.size)]
    rcases h.room mm with ⟨hmm, hgrow⟩ | ⟨size, mm', hgrow, hmm, hlt⟩
    · exact .inl ⟨hmm, mm.alloc.2, by rw [hgrow]⟩
    let cl' : EventChangelist :=
      { changes := cl.changes ++ [f { fd := fd, oldEvents := old }], changesSize := size }
    have hold : ∀ i, i < cl.changes.length → cl'.entry i = cl.entry i := by
      intro i hi
      simp [EventChangelist.entry, cl', List.getElem?_append_left hi]
    have hlast : cl'.entry cl.changes.length = f { fd := fd, oldEvents := old } := by
      simp [EventChangelist.entry, cl']
    have hpush := h.index.push (by rw [hf.fd]; exact hpos) hold hlast fun x => by rw [hf.fd]
    refine .inr ⟨cl', mm', cl.changes.length + 1, ?_, hmm, ⟨?_, ?_, ?_⟩, ?_⟩
    · rw [hgrow]
      simp [cl', modify_length_append]
    · rw [List.length_append]
      exact hpush.1
    · rw [List.length_append]
      exact hlt
    · intro ch hch
      rcases List.mem_append.mp hch with hch | hch
      · exact h.io ch hch
      · rw [List.mem_singleton.mp hch]
        exact hf.io _ (by simp [hasAny])
    · rw [lookup_eq_none_iff.mpr hpos]
      simpa [hf.fd] using hpush.2
  | succ i =>
    -- the change that the position points at
    obtain ⟨hlt, hkey⟩ := h.index.found fd i hpos
    let cl' : EventChangelist := { cl with changes := cl.changes.modify i f }
    have hentry : ∀ j, j < cl.changes.length →
        cl'.entry j = if j = i then f (cl.entry i) else cl.entry j := by
      intro j hj
      rw [EventChangelist.entry, List.getElem?_modify, EventChangelist.entry_of_lt hj]
      by_cases hij : j = i
      · simp [hij]
      · simp [hij, Ne.symm hij]
    have hset := h.index.set hpos ((hf.fd _).trans hkey) hentry
    have hsame : (fun x => if x = fd then i + 1 else pos x) = pos := by
      funext x
      split
      · next hx => rw [hx, hpos]
      · rfl
    refine .inr ⟨cl', mm, i + 1, ?_, id, ?_, ?_⟩
    · simp [eventChangelistUpdate, eventChangelistGetOrConstruct, EventChangelist.entry_of_lt hlt,
        hkey, cl']
    · rw [hsame]
      refine ⟨by rw [List.length_modify]; exact hset.1, by rw [List.length_modify]; exact h.size,
        ?_⟩
      intro ch hch
      obtain ⟨j, hj⟩ := List.mem_iff_getElem?.mp hch
      rw [List.getElem?_modify, Option.map_eq_map, Option.map_eq_some_iff] at hj
      obtain ⟨ch0, hch0, rfl⟩ := hj
      have hold := h.io ch0 (List.mem_of_getElem? hch0)
      split
      · exact hf.io ch0 hold
      · exact hold
    · rw [hsame, lookup_of_pos hpos]
      exact hset.2

end

/-- `event_changelist_remove_all_`: no fd has a change afterwards. The lists do not change. -/
theorem ChangesAt.removeAll {β : Type} {m : Evmap β} {cl : EventChangelist}
    (h : ChangesAt cl fun fd => (m.io fd).fdinfo) :
    ∃ m', eventChangelistRemoveAll cl.changes 0 m = .ok m' ∧ m'.evbase = m.evbase ∧ m'.mm = m.mm ∧
      m'.nentries = m.nentries ∧ (∀ fd, (m'.entries fd).isSome = (m.entries fd).isSome) ∧
      ∀ fd, m'.io fd = { m.io fd with fdinfo := 0 } := by
  obtain ⟨m', hrun, hbase, hmm, hn, hsome, hio⟩ := eventChangelistRemoveAll_run_eq cl.changes 0 m
    h.nodup h.io fun n ch hch => by
      obtain ⟨hn, rfl⟩ := List.getElem?_eq_some_iff.mp hch
      have hlisted := h.index.listed n hn
      rw [EventChangelist.entry, hch, Option.getD_some] at hlisted
      omega
  refine ⟨m', hrun, hbase, hmm, hn, hsome, fun fd => ?_⟩
  rw [hio fd]
  by_cases hfd : fd ∈ cl.changes.map EventChange.fd
  · rw [if_pos hfd]
  · have hz : (m.io fd).fdinfo = 0 := not_not.mp fun hne => hfd ((h.mem_iff fd).mpr hne)
    rw [if_neg hfd, ← hz]

/-! ### The invariant -/

/-- What a base on `epollops_changelist` keeps. -/
structure ChangelistSet (b : EpollBase) (pos : Nat → Nat) (want : Nat → Interest) : Prop where
  changes : ChangesAt b.changelist pos
  mm : b.mm.Reliable
  calls : ∀ c ∈ b.epollop.calls, c.errno = none
  pending : ∀ fd, Pending b.epollop ((lookup b.changelist.entry pos fd).getD
    { fd := fd, oldEvents := (want fd).ev }) (want fd)

section
variable {b : EpollBase} {pos : Nat → Nat} {want : Nat → Interest}

/-- The change of `fd` is updated with `f`, and is then pending for the interest `i`. -/
theorem ChangelistSet.update (h : ChangelistSet b pos want) (hf : KeepsFd f) {fd : Nat}
    {i : Interest} (hpend : ∀ ch, Pending b.epollop ch (want fd) → Pending b.epollop (f ch) i) :
    ∃ b' idx, b.ofChangelist
        (eventChangelistUpdate f b.changelist b.mm fd (want fd).ev (pos fd)) = .ok (0, b', idx) ∧
      ChangelistSet b' (fun x => if x = fd then idx else pos x)
        (fun x => if x = fd then i else want x) := by
  obtain ⟨cl, mm, idx, hup, hmm, hat, hlookup⟩ :=
    (h.changes.update hf b.mm fd (want fd).ev).resolve_left fun hno => hno.1 h.mm
  refine ⟨{ b with changelist := cl, mm := mm }, idx, by rw [hup]; rfl, hat, hmm h.mm, h.calls,
    fun x => ?_⟩
  show Pending b.epollop ((lookup cl.entry _ x).getD _) _
  rw [hlookup]
  by_cases hx : x = fd
  · simp only [hx]
    exact hpend _ (h.pending fd)
  · simp only [if_neg hx]
    exact h.pending x

theorem epollopsChangelist_addKeeps : AddKeeps epollopsChangelist 0 ChangelistSet := by
  intro b pos want i h _ fd
  rw [Nat.zero_or]
  exact h.update (EventChange.keepsFd_add (standsFor_ev i).signal) fun _ hch => hch.add i

theorem ChangelistSet.del (h : ChangelistSet b pos want) (i : Interest) (fd : Nat) :
    ∃ b' idx, epollopsChangelist.del b fd (want fd).ev i.ev (pos fd) = .ok (0, b', idx) ∧
      ChangelistSet b' (fun x => if x = fd then idx else pos x)
        (fun x => if x = fd then (want fd).diff i else want x) :=
  h.update (EventChange.keepsFd_del i.ev) fun _ hch => hch.del i

/-- Once all the changes are applied, the kernel has the interest of every fd. -/
theorem ChangelistSet.apply (h : ChangelistSet b pos want) :
    ∃ ep', epollApplyChanges b.changelist.changes b.epollop = .ok (0, ep') ∧
      (∀ fd, ep'.interest fd = (want fd).registered) ∧ ∀ c ∈ ep'.calls, c.errno = none := by
  have hpend : ∀ ch ∈ b.changelist.changes, Pending b.epollop ch (want ch.fd) := by
    intro ch hch
    have := h.pending ch.fd
    rwa [h.changes.lookup_of_mem hch] at this
  obtain ⟨ep', happ, hint, hcalls⟩ := epollApplyChanges_run_eq want
    b.changelist.changes b.epollop h.changes.nodup hpend h.calls
  refine ⟨ep', happ, fun fd => ?_, hcalls⟩
  rw [hint]
  by_cases hfd : fd ∈ b.changelist.changes.map EventChange.fd
  · rw [if_pos hfd]
  rw [if_neg hfd]
  have hpos : pos fd = 0 := not_not.mp fun hne => hfd ((h.changes.mem_iff fd).mpr hne)
  have hfresh := h.pending fd
  rw [lookup_eq_none_iff.mpr hpos] at hfresh
  obtain ⟨k, hk, -, -, hgoal⟩ := hfresh.from_kernel
  rw [← hgoal]
  exact hk

end

section
variable {evs : EvId → Event} {m : Evmap EpollBase}

/-- The dispatch applies every change: afterwards the kernel has the interest of every fd,
and no fd has a change. The lists do not change. -/
theorem MapOk.dispatch (h : MapOk ChangelistSet evs m) :
    ∃ m', epollDispatch m = .ok m' ∧ MapOk ChangelistSet evs m' ∧
      (∀ fd, (m'.io fd).bare = (m.io fd).bare) ∧
      ∀ fd, m'.evbase.epollop.interest fd = (m.io fd).interest.registered := by
  obtain ⟨ep', happ, hint, hcalls⟩ := h.backend.apply
  obtain ⟨m1, hrun, hbase, hmm, hn, hsome, hio⟩ := ChangesAt.removeAll
    (m := { m with evbase := { m.evbase with epollop := ep' } }) h.backend.changes
  let m2 : Evmap EpollBase := { m1 with
    evbase := { m1.evbase with changelist := { m1.evbase.changelist with changes := [] } } }
  have hio2 : ∀ fd, m2.io fd = { m.io fd with fdinfo := 0 } := hio
  have hep : m2.evbase.epollop = ep' := by
    show m1.evbase.epollop = ep'
    rw [hbase]
  refine ⟨m2, by simp only [epollDispatch, happ, hrun, m2],
    ⟨hmm.symm ▸ h.mm, fun fd => ?_, fun fd hfd => ?_, ?_⟩, fun fd => ?_, fun fd => ?_⟩
  · rw [hio2]
    exact ⟨(h.counts fd).nread, (h.counts fd).nwrite, (h.counts fd).nclose⟩
  · show fd < m1.nentries
    rw [hn]
    exact h.bound fd ((hsome fd).symm.trans hfd)
  · have hpos : (fun fd => (m2.io fd).fdinfo) = fun _ => 0 := funext fun fd => by rw [hio2]
    have hwant : (fun fd => (m2.io fd).interest) = fun fd => (m.io fd).interest :=
      funext fun fd => by rw [hio2]; rfl
    have hmm2 : m2.evbase.mm.Reliable := by
      show m1.evbase.mm.Reliable
      rw [hbase]
      exact h.backend.mm
    rw [hpos, hwant]
    exact ⟨ChangesAt.empty _, hmm2, hep ▸ hcalls, fun fd => Pending.fresh (hep ▸ hint fd)⟩
  · rw [hio2]
    rfl
  · rw [hep]
    exact hint fd

end

end Libevent
