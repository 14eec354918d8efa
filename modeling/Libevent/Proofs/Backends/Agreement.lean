import Libevent.Proofs.Backends.Poll
import Libevent.Proofs.Backends.Select

/-!
# `Libevent.Proofs.Backends.Agreement`: poll and select register the same interest

A base with the poll backend and one with the select backend go through the same actions. At all
times both backends have, for every fd, the union of the events on the list of the fd
(`poll_select_register_union`).
-/

namespace Libevent

open Lib

/-- What the first `nfds` entries of `event_set` have for `fd`. -/
def PollOp.registered (pop : PollOp) (fd : Nat) : Option (BitVec 16) :=
  (((List.range pop.nfds).map pop.eventSet).find? (·.fd = fd)).map (·.events)

/-- The poll backend of a base has registered the events of the lists. Every fd has at most one
entry, which its `pollidx` points at, and the `pollidx` of an fd without an entry is zero. -/
structure PollRegisters (evs : EvId → Event) (m : Evmap PollOp) : Prop where
  registered : ∀ fd,
    m.evbase.registered fd = (Interest.ofEv (unionEvents evs (m.ioEvents fd))).polled
  once : ∀ i j, i < m.evbase.nfds → j < m.evbase.nfds →
    (m.evbase.eventSet i).fd = (m.evbase.eventSet j).fd → i = j
  index : ∀ i, i < m.evbase.nfds → (m.io (m.evbase.eventSet i).fd).fdinfo = i + 1
  idle : ∀ fd, m.evbase.registered fd = none → (m.io fd).fdinfo = 0

/-- The select backend of a base has registered the events of the lists. The sets have `event_fdsz`
bytes, and the copies that `select` works on have no more. -/
structure SelectRegisters (evs : EvId → Event) (m : Evmap SelectOp) : Prop where
  read : ∀ fd, m.evbase.eventReadsetIn.has fd = hasAny (unionEvents evs (m.ioEvents fd)) EV_READ
  write : ∀ fd, m.evbase.eventWritesetIn.has fd = hasAny (unionEvents evs (m.ioEvents fd)) EV_WRITE
  bytes : m.evbase.eventReadsetIn.bytes = m.evbase.eventFdsz ∧
    m.evbase.eventWritesetIn.bytes = m.evbase.eventFdsz
  outBytes : m.evbase.eventReadsetOut.bytes ≤ m.evbase.eventFdsz ∧
    m.evbase.eventWritesetOut.bytes ≤ m.evbase.eventFdsz

variable {locking : Bool}

/-- The entry of an fd is the one at its position. -/
theorem PollSet.registered_eq {pop : PollOp} {pos : Nat → Nat} {want : Nat → Interest}
    (h : PollSet locking pop pos want) (fd : Nat) :
    pop.registered fd = (want fd).polled := by
  rw [← h.interest fd, PollOp.registered]
  congr 1
  cases hfind : ((List.range pop.nfds).map pop.eventSet).find? (·.fd = fd) with
  | none =>
    -- an fd with a position has an entry
    rw [List.find?_eq_none] at hfind
    refine (lookup_eq_none_iff.mpr ?_).symm
    by_contra hne
    obtain ⟨k, hk⟩ := Nat.exists_eq_succ_of_ne_zero hne
    obtain ⟨hlt, hkey⟩ := h.index.found fd k hk
    refine hfind (pop.eventSet k) ?_ (decide_eq_true hkey)
    exact List.mem_map_of_mem (List.mem_range.mpr hlt)
  | some pfd =>
    obtain ⟨i, hi, rfl⟩ := List.mem_map.mp (List.mem_of_find?_eq_some hfind)
    have hfd : (pop.eventSet i).fd = fd := by simpa using List.find?_some hfind
    rw [← hfd]
    exact (h.index.lookup_entry (List.mem_range.mp hi)).symm

section
variable {evs : EvId → Event}

theorem MapOk.pollRegisters {m : Evmap PollOp}
    (h : MapOk (PollSet locking) evs m) : PollRegisters evs m where
  registered := by
    intro fd
    rw [h.backend.registered_eq, (h.counts fd).interest_eq_union, Evmap.ioEvents_eq]
  once := fun _ _ hi hj hfd => h.backend.index.key_injective hi hj hfd
  index := h.backend.index.listed
  idle := by
    intro fd hnone
    rw [h.backend.registered_eq, Interest.polled_eq_none_iff] at hnone
    exact (h.backend.pos_eq_zero_iff fd).mpr hnone

theorem MapOk.selectRegisters {m : Evmap SelectOp}
    (h : MapOk (fun sop _ want => SelectSet sop want) evs m) : SelectRegisters evs m where
  read := by
    intro fd
    rw [h.backend.read, (h.counts fd).interest_eq_union, Evmap.ioEvents_eq]
    rfl
  write := by
    intro fd
    rw [h.backend.write, (h.counts fd).interest_eq_union, Evmap.ioEvents_eq]
    rfl
  bytes := ⟨h.backend.readBytes, h.backend.writeBytes⟩
  outBytes := h.backend.outBytes

/-- A base with the poll backend and one with the select backend went through the same actions. -/
abbrev SameActions (locking : Bool) :=
  InStep (PollSet locking) fun sop _ want => SelectSet sop want

/-- One action, on both bases. -/
theorem SameActions.step {p : Evmap PollOp} {s : Evmap SelectOp} (h : SameActions locking evs p s)
    (debugMode : Bool) {a : FdAction} (hlegal : FdLegal locking evs p a) :
    ∃ p' s', pollStep debugMode locking evs p a = .ok p' ∧
      selectStep debugMode evs s a = .ok s' ∧ SameActions locking evs p' s' := by
  obtain ⟨p', hp, hpoll, hpbare⟩ := pollStep_spec h.left debugMode hlegal
  have hmem : ∀ ev, a = .del ev → 0 ≤ (evs ev).evFd → ev ∈ (s.io (evs ev).evFd.toNat).events := by
    rintro ev rfl hfd
    rw [← Evmap.ioEvents_eq, ← h.ioEvents]
    exact hlegal.1 hfd
  obtain ⟨s', hs, hselect, hsbare⟩ := selectStep_spec h.right debugMode hmem
  exact ⟨p', s', hp, hs, h.next hpoll hselect hpbare hsbare⟩

theorem sameActions_start (locking : Bool) (evs : EvId → Event) {sop : SelectOp}
    (h : SelectSet sop fun _ => Interest.empty) :
    SameActions locking evs { evbase := {} } { evbase := sop } where
  left := MapOk.start {
    index := Indexed.empty fun _ => rfl
    interest := fun _ => (show Interest.empty.polled = none by decide).symm
    room := Nat.le_refl 0
    copied := fun _ => rfl
    polling := fun n hn => by cases hn
    moved := rfl
    mm := fun _ => rfl }
  right := MapOk.start h
  same := fun _ => rfl

/-- After any run of adds, deletes and dispatches, the poll backend and the select backend have
registered the union of the events on the list of each fd. No assertion of `poll_del` fails, and no
access is outside the arrays and the sets. -/
theorem poll_select_register_union (debugMode locking : Bool) (evs : EvId → Event)
    (memory : Nat → Bool) (actions : List FdAction)
    (hlegal : Meets (pollStep debugMode locking evs) (FdLegal locking evs) { evbase := {} }
      actions) :
    ∃ sop p s, selectInit memory = .ok (some sop) ∧
      run (pollStep debugMode locking evs) { evbase := {} } actions = .ok p ∧
      run (selectStep debugMode evs) { evbase := sop } actions = .ok s ∧
      PollRegisters evs p ∧ SelectRegisters evs s ∧ ∀ fd, p.ioEvents fd = s.ioEvents fd := by
  obtain ⟨sop, hinit, hset⟩ := selectInit_spec memory
  have hstep : ∀ p s a, SameActions locking evs p s → FdLegal locking evs p a →
      ∃ p' s', pollStep debugMode locking evs p a = .ok p' ∧
        selectStep debugMode evs s a = .ok s' ∧ SameActions locking evs p' s' :=
    fun _ _ _ h hl => h.step debugMode hl
  obtain ⟨p, s, hp, hs, h⟩ := run_sim hstep (sameActions_start locking evs hset) hlegal
  exact ⟨sop, p, s, hinit, hp, hs, h.left.pollRegisters, h.right.selectRegisters, h.ioEvents⟩

end

/-- Events on three fds come and go, and the last entry of the array moves. -/
theorem poll_select_register_union_three_fds :
    let evs : EvId → Event := fun ev => { evFd := 3 * ev, evEvents := EV_READ }
    let actions : List FdAction :=
      [.add 0, .add 1, .add 2, .dispatch, .del 0, .dispatched 5 none none]
    ∃ sop p s, selectInit (fun _ => true) = .ok (some sop) ∧
      run (pollStep false true evs) { evbase := {} } actions = .ok p ∧
      run (selectStep false evs) { evbase := sop } actions = .ok s ∧
      PollRegisters evs p ∧ SelectRegisters evs s ∧ ∀ fd, p.ioEvents fd = s.ioEvents fd := by
  refine poll_select_register_union false true _ _ _ ?_
  refine .cons ⟨?_, .inl rfl⟩ rfl (.cons ⟨?_, .inl rfl⟩ rfl (.cons ⟨?_, .inl rfl⟩ rfl (.cons rfl rfl
    (.cons ⟨?_, .inl rfl⟩ rfl (.cons ?_ rfl trivial)))))
  · intro _; decide
  · intro _; decide
  · intro _; decide
  · intro _; decide
  · exact Option.some_ne_none _

end Libevent
