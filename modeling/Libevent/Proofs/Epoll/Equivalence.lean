import Libevent.Proofs.Epoll.Changelist

/-!
# `Libevent.Proofs.Epoll.Equivalence`: the two epoll backends agree

`Lockstep` relates a base on `epollops` to a base on `epollops_changelist` that went through
the same actions: the lists of events are the same, the first kernel table has the interest of
every fd (`LevelSet`), and the second one will have it after the next dispatch. Level-triggered
events keep it (`Lockstep.step`), and `changelist_refines_immediate` reads it off after a run.
-/

namespace Libevent

/-- With level-triggered events, `epollops` has registered exactly what is wanted. -/
structure LevelSet (b : EpollBase) (want : Nat → Interest) : Prop extends ImmediateSet b want where
  exact_table : ∀ fd, b.epollop.interest fd = (want fd).registered

/-- The base `m` on `epollops` and the base `c` on `epollops_changelist` went through the
same actions. -/
abbrev Lockstep := InStep (fun b _ want => LevelSet b want) ChangelistSet

section
variable {b : EpollBase} {want : Nat → Interest} {i : Interest}

/-- The table after a change without `EV_CHANGE_ET` has the new interest of the fd. -/
theorem LevelSet.set (h : LevelSet b want) {b' : EpollBase} {fd : Nat} {ch : EventChange}
    (hset : ImmediateSet b' fun x => if x = fd then i else want x)
    (het : hasAny (ch.readChange ||| ch.writeChange) EV_CHANGE_ET = false)
    (hint : ∀ x, b'.epollop.interest x =
      if x = fd then registeredBy ch i else b.epollop.interest x) :
    LevelSet b' fun x => if x = fd then i else want x := by
  refine ⟨hset, fun x => ?_⟩
  rw [hint]
  split
  · exact registeredBy_level het i
  · exact h.exact_table x

theorem levelSet_addKeeps {events : Nat} (hlevel : hasAny events EV_ET = false) :
    AddKeeps epollops (events &&& EV_ET) fun b _ want => LevelSet b want := by
  intro b pos want i h hne fd
  obtain ⟨ep', hadd, hset, hint⟩ := h.toImmediateSet.add hne events fd (pos fd)
  exact ⟨_, _, hadd, h.set hset (by rw [nochangelistAddChange_et, hlevel, Bool.false_and]) hint⟩

theorem LevelSet.del (h : LevelSet b want) (hne : i ≠ Interest.empty) {fd : Nat}
    (hsub : i.Sub (want fd)) (fdinfo : Nat) :
    ∃ b' idx, epollops.del b fd (want fd).ev i.ev fdinfo = .ok (0, b', idx) ∧
      LevelSet b' fun x => if x = fd then (want fd).diff i else want x := by
  obtain ⟨ep', hdel, hset, hint⟩ := h.toImmediateSet.del hne hsub fdinfo
  exact ⟨_, _, hdel, h.set hset (nochangelistDelChange_et _ _ _) hint⟩

end

section
variable {evs : EvId → Event} {m c : Evmap EpollBase}

theorem Lockstep.start (evs : EvId → Event) : Lockstep evs Evmap.start Evmap.start where
  left := MapOk.start ⟨⟨fun _ => rfl, fun _ h => by simp at h, rfl⟩, fun _ => rfl⟩
  right := MapOk.start
    ⟨ChangesAt.empty 0, fun _ => rfl, fun _ h => by simp at h, fun _ => Pending.fresh rfl⟩
  same := fun _ => rfl

/-- One action, in both bases. -/
theorem Lockstep.step (h : Lockstep evs m c) (debugMode : Bool)
    (hlevel : ∀ ev, hasAny (evs ev).evEvents EV_ET = false) {a : IoAction}
    (hlegal : IoLegal evs m a) :
    ∃ m' c', ioStep debugMode epollops evs m a = .ok m' ∧
      ioStep debugMode epollopsChangelist evs c a = .ok c' ∧ Lockstep evs m' c' := by
  cases a with
  | add ev =>
    have hzero : (evs ev).evEvents &&& EV_ET = 0 := by simpa [hasAny] using hlevel ev
    obtain ⟨m', hm, hmok, hmio⟩ := h.left.add (levelSet_addKeeps (hlevel ev)) debugMode
    obtain ⟨c', hc, hcok, hcio⟩ := h.right.add (hzero.symm ▸ epollopsChangelist_addKeeps) debugMode
    exact ⟨m', c', hm, hc, h.next hmok hcok hmio hcio⟩
  | del ev =>
    have hcmem : 0 ≤ (evs ev).evFd → ev ∈ (c.io (evs ev).evFd.toNat).events := by
      intro hfd
      rw [← Evmap.ioEvents_eq, ← h.ioEvents]
      exact hlegal hfd
    obtain ⟨m', hm, hmok, hmio⟩ := h.left.del epollops debugMode hlegal.mem id
      fun hne hsub => h.left.backend.del hne hsub _
    obtain ⟨c', hc, hcok, hcio⟩ := h.right.del epollopsChangelist debugMode hcmem id
      fun _ _ => h.right.backend.del _ _
    exact ⟨m', c', hm, hc, h.next hmok hcok hmio hcio⟩
  | dispatch =>
    obtain ⟨c', hc, hcok, hcio, -⟩ := h.right.dispatch
    exact ⟨m, c', ioStep_dispatch_immediate h.left.backend.changes debugMode, hc, h.left, hcok,
      fun x => (h.same x).trans (hcio x).symm⟩

/-- Let every allocation succeed, as in `Evmap.start`. After any run of adds, deletes and dispatches
of level-triggered events, the next dispatch of the base on `epollops_changelist` leaves the kernel
with the interest that the base on `epollops` has there, for every fd: the union of the events on
the list of the fd. No `epoll_ctl` call of either base fails, and no action stops at an impossible
entry of the table. -/
theorem changelist_refines_immediate (debugMode : Bool) (evs : EvId → Event)
    (hlevel : ∀ ev, hasAny (evs ev).evEvents EV_ET = false) (as : List IoAction)
    (hlegal : Lib.Meets (ioStep debugMode epollops evs) (IoLegal evs) Evmap.start as) :
    ∃ m c d, Lib.run (ioStep debugMode epollops evs) Evmap.start as = .ok m ∧
      Lib.run (ioStep debugMode epollopsChangelist evs) Evmap.start as = .ok c ∧
      epollDispatch c = .ok d ∧
      (∀ fd, d.evbase.epollop.interest fd = m.evbase.epollop.interest fd ∧
        m.evbase.epollop.interest fd =
          (Interest.ofEv (unionEvents evs (m.ioEvents fd))).registered ∧
        c.ioEvents fd = m.ioEvents fd ∧ d.ioEvents fd = m.ioEvents fd) ∧
      (∀ call ∈ m.evbase.epollop.calls, call.errno = none) ∧
      ∀ call ∈ d.evbase.epollop.calls, call.errno = none := by
  have hstep : ∀ m c a, Lockstep evs m c → IoLegal evs m a →
      ∃ m' c', ioStep debugMode epollops evs m a = .ok m' ∧
        ioStep debugMode epollopsChangelist evs c a = .ok c' ∧ Lockstep evs m' c' :=
    fun _ _ _ h hl => h.step debugMode hlevel hl
  obtain ⟨m, c, hm, hc, h⟩ := Lib.run_sim hstep (Lockstep.start evs) hlegal
  obtain ⟨d, hd, hdok, hdio, hdint⟩ := h.right.dispatch
  have hd' : Lockstep evs m d := ⟨h.left, hdok, fun x => (h.same x).trans (hdio x).symm⟩
  refine ⟨m, c, d, hm, hc, hd, fun fd => ⟨?_, ?_, (h.ioEvents fd).symm, (hd'.ioEvents fd).symm⟩,
    h.left.backend.calls, hdok.backend.calls⟩
  · rw [hdint, h.left.backend.exact_table]
    exact congrArg (fun ctx => ctx.interest.registered) (h.same fd).symm
  · rw [h.left.backend.exact_table, (h.left.counts fd).interest_eq_union, Evmap.ioEvents_eq]

end

/-- A read and a write event come and go on fd 3, with a dispatch in between. -/
theorem changelist_refines_immediate_two_events :
    let evs : EvId → Event :=
      fun ev => { evFd := 3, evEvents := if ev = 0 then EV_READ else EV_WRITE }
    let as := [IoAction.add 0, .dispatch, .add 1, .del 0]
    ∃ m c d, Lib.run (ioStep false epollops evs) Evmap.start as = .ok m ∧
      Lib.run (ioStep false epollopsChangelist evs) Evmap.start as = .ok c ∧
      epollDispatch c = .ok d ∧
      (∀ fd, d.evbase.epollop.interest fd = m.evbase.epollop.interest fd ∧
        m.evbase.epollop.interest fd =
          (Interest.ofEv (unionEvents evs (m.ioEvents fd))).registered ∧
        c.ioEvents fd = m.ioEvents fd ∧ d.ioEvents fd = m.ioEvents fd) ∧
      (∀ call ∈ m.evbase.epollop.calls, call.errno = none) ∧
      ∀ call ∈ d.evbase.epollop.calls, call.errno = none := by
  refine changelist_refines_immediate false _ (fun ev => ?_) _ ?_
  · by_cases h : ev = 0 <;> simp [h] <;> rfl
  refine .cons ?_ rfl (.cons trivial rfl (.cons ?_ rfl (.cons ?_ rfl trivial)))
  · intro _; decide
  · intro _; decide
  · intro _; decide

end Libevent
