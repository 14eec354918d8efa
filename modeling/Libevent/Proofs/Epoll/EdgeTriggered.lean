import Libevent.Proofs.Epoll.Immediate

/-!
# `Libevent.Proofs.Epoll.EdgeTriggered`: when `epollops` keeps the edge-triggered mode

Let every event on `fd` have `EV_ET`. `epoll_apply_one_change` takes `EPOLLET` from the one
change that it applies: a delete that leaves something registered has no `EV_CHANGE_ET`
(`epoll_nochangelist_del` never sets it), and the close change is not looked at. So the fd
falls back to level-triggered mode after such a step, and only then (`edgeTriggered_iff_keepsEdge`).
-/

namespace Libevent

open Lib

/-- The registration of `fd`, if there is one, has `EPOLLET`. -/
def EdgeTriggered (fd : Nat) (m : Evmap EpollBase) : Prop :=
  ∀ mask, m.evbase.epollop.interest fd = some mask → hasAny mask EPOLLET = true

/-- The events `events` are all that is wanted on an fd with these counters. -/
def EvmapIo.WantsOnly (ctx : EvmapIo) (events : Nat) : Prop :=
  ctx.nread = countUp events EV_READ 0 ∧ ctx.nwrite = countUp events EV_WRITE 0 ∧
    ctx.nclose = countUp events EV_CLOSED 0

/-- The actions that keep the edge-triggered mode of `fd`. An added event does not enable
`EV_CLOSED` alone. A deleted event is not the last one for any condition, or it is the only
one that wants anything. -/
def KeepsEdge (debugMode : Bool) (evs : EvId → Event) (fd : Nat) (m : Evmap EpollBase) :
    IoAction → Prop
  | .add ev => (evs ev).evFd = fd → ¬ addRefused debugMode evs (m.io fd) ev →
      (m.io fd).newInterest (evs ev).evEvents ≠ ⟨false, false, true⟩
  | .del ev => (evs ev).evFd = fd → (m.io fd).lastInterest (evs ev).evEvents = Interest.empty ∨
        (m.io fd).WantsOnly (evs ev).evEvents
  | .dispatch => True

private theorem hasAny_epoll_EPOLLET (i : Interest) : hasAny i.epoll EPOLLET = false := by
  obtain ⟨a, b, c⟩ := i
  cases a <;> cases b <;> cases c <;> decide

variable {i : Interest}

/-- The registration by a change has `EPOLLET` exactly when the read or the write change
has. -/
private theorem registeredBy_edge (ch : EventChange) (hi : i ≠ Interest.empty) :
    (∀ mask, registeredBy ch i = some mask → hasAny mask EPOLLET = true) ↔
      hasAny (ch.readChange ||| ch.writeChange) EV_CHANGE_ET = true := by
  rw [registeredBy, if_neg hi]
  unfold etEvents
  cases hasAny (ch.readChange ||| ch.writeChange) EV_CHANGE_ET with
  | true =>
    have h : hasAny (i.epoll ||| EPOLLET) EPOLLET = true := by
      rw [hasAny_or]
      simp [hasAny, EPOLLET]
    simp [h]
  | false => simp [hasAny_epoll_EPOLLET]

/-- The interest is empty after a delete exactly when the event was all that was wanted. -/
private theorem left_eq_empty_iff {ctx : EvmapIo} {evs : EvId → Event} {ev : EvId}
    (hcounts : CountsOk evs ctx) (hmem : ev ∈ ctx.events) :
    (ctx.left evs ev).interest = Interest.empty ↔ ctx.WantsOnly (evs ev).evEvents := by
  have hbit : ∀ bit n, (hasAny (evs ev).evEvents bit && n == 0) = false →
      ((countDown (evs ev).evEvents bit n != 0) = false ↔ n = countUp (evs ev).evEvents bit 0) := by
    intro bit n h
    unfold countDown countUp
    cases hb : hasAny (evs ev).evEvents bit with
    | false => simp
    | true =>
      have hn : n ≠ 0 := by simpa [hb] using h
      simp only [if_true, bne_eq_false_iff_eq]
      omega
  have hu := hcounts.no_underflow hmem
  rw [Bool.or_eq_false_iff, Bool.or_eq_false_iff] at hu
  simp only [EvmapIo.interest, EvmapIo.left, EvmapIo.down, Interest.empty, Interest.mk.injEq,
    hbit _ _ hu.1.1, hbit _ _ hu.1.2, hbit _ _ hu.2, EvmapIo.WantsOnly]

/-- The mode of `fd` after a change of the fd `x`, read off the table. -/
private theorem edgeTriggered_registeredBy {m m' : Evmap EpollBase} {fd x : Nat} {ch : EventChange}
    (hq : EdgeTriggered fd m) (hint : ∀ y, m'.evbase.epollop.interest y = if y = x then registeredBy
      ch i else m.evbase.epollop.interest y) :
    EdgeTriggered fd m' ↔ (x = fd → i ≠ Interest.empty →
      hasAny (ch.readChange ||| ch.writeChange) EV_CHANGE_ET = true) := by
  unfold EdgeTriggered
  rw [hint]
  by_cases hx : x = fd
  · rw [if_pos hx.symm]
    by_cases hi : i = Interest.empty
    · simp [registeredBy, hi]
    · rw [registeredBy_edge ch hi]
      exact ⟨fun h _ _ => h, fun h => h hx hi⟩
  · rw [if_neg (Ne.symm hx)]
    exact ⟨fun _ h => absurd h hx, fun _ => hq⟩

section
variable {evs : EvId → Event} {m m' : Evmap EpollBase} {fd : Nat}

/-- A step that does not change the table keeps the mode. -/
private theorem EdgeTriggered.of_evbase (hq : EdgeTriggered fd m) (hbase : m'.evbase = m.evbase) :
    EdgeTriggered fd m' := by
  unfold EdgeTriggered
  rw [hbase]
  exact hq

/-- One step keeps the edge-triggered mode exactly when it meets `KeepsEdge`. -/
theorem edgeTriggered_step {debugMode : Bool} (h : ImmediateOk evs m)
    (het : ∀ ev, (evs ev).evFd = fd → hasAny (evs ev).evEvents EV_ET = true)
    (hq : EdgeTriggered fd m) {a : IoAction} (hlegal : IoLegal evs m a)
    (hstep : ioStep debugMode epollops evs m a = .ok m') :
    EdgeTriggered fd m' ↔ KeepsEdge debugMode evs fd m a := by
  cases a with
  | add ev =>
    have hcases := evmapIoAdd_cases debugMode epollops evs m ev
    replace hstep : (evmapIoAdd debugMode epollops evs m (evs ev).evFd ev).map Prod.snd = .ok m' :=
      hstep
    generalize evmapIoAdd debugMode epollops evs m (evs ev).evFd ev = r at hcases hstep
    cases hcases with
    | noFd hfd =>
      cases hstep
      exact ⟨fun _ hev => by omega, fun _ => hq⟩
    | noMemory hmm => exact absurd h.mm hmm
    | refused hrej hset =>
      cases hstep
      refine ⟨fun _ hev hrej' => ?_, fun _ => hq.of_evbase hset.evbase⟩
      rw [hev] at hrej
      exact absurd hrej hrej'
    | quiet hfd hrej hres hset =>
      cases hstep
      refine ⟨fun _ hev _ => ?_, fun _ => hq.of_evbase hset.evbase⟩
      rw [hev, Int.toNat_natCast, EvmapIo.resUp_eq_zero] at hres
      rw [hres]
      decide
    | told hfd hrej hres hset =>
      have hne := mt EvmapIo.resUp_eq_zero.mpr hres
      obtain ⟨ep', hadd, -, hint⟩ := h.backend.add hne (evs ev).evEvents (evs ev).evFd.toNat
        (m.io (evs ev).evFd.toNat).fdinfo
      rw [EvmapIo.old_eq, EvmapIo.resUp_eq, hadd] at hstep
      cases hstep
      rw [edgeTriggered_registeredBy hq (by rw [(hset _ _).evbase]; exact hint),
        nochangelistAddChange_et]
      by_cases hev : (evs ev).evFd = fd
      · rw [hev, Int.toNat_natCast] at hrej hne ⊢
        simp only [KeepsEdge]
        generalize (m.io fd).newInterest (evs ev).evEvents = new at hne ⊢
        constructor
        · rintro hall - - rfl
          have := hall trivial (by simp [Interest.or, Interest.empty])
          simp at this
        · intro hkeep _ _
          obtain ⟨a, b, c⟩ := new
          cases a <;> cases b <;> cases c <;> simp_all [Interest.empty]
      · exact ⟨fun _ hev' => absurd hev' hev, fun _ hx => absurd (by omega) hev⟩
  | del ev =>
    have hcases := evmapIoDel_cases epollops evs m ev hlegal.mem (h.counts _) h.bound
    replace hstep : (evmapIoDel epollops evs m (evs ev).evFd ev).map Prod.snd = .ok m' := hstep
    generalize evmapIoDel epollops evs m (evs ev).evFd ev = r at hcases hstep
    cases hcases with
    | noFd hfd =>
      cases hstep
      exact ⟨fun _ hev => by omega, fun _ => hq⟩
    | quiet hfd hres hset =>
      cases hstep
      refine ⟨fun _ hev => .inl ?_, fun _ => hq.of_evbase hset.evbase⟩
      rw [hev, EvmapIo.resDown_eq_zero] at hres
      exact hres
    | told hfd hres hset =>
      have hne := mt EvmapIo.resDown_eq_zero.mpr hres
      obtain ⟨ep', hdel, -, hint⟩ := h.backend.del hne (EvmapIo.lastInterest_sub _ _)
        (m.io (evs ev).evFd.toNat).fdinfo
      rw [EvmapIo.old_eq, EvmapIo.resDown_eq, hdel] at hstep
      cases hstep
      rw [edgeTriggered_registeredBy hq (by rw [(hset _ _).evbase]; exact hint),
        nochangelistDelChange_et, ← EvmapIo.interest_left (h.counts _) (hlegal.mem hfd)]
      by_cases hev : (evs ev).evFd = fd
      · have hmem := hlegal.mem hfd
        rw [hev, Int.toNat_natCast] at hmem hne ⊢
        simp only [KeepsEdge, ← left_eq_empty_iff (h.counts fd) hmem, Bool.false_eq_true]
        constructor
        · intro hall _
          exact .inr (not_not.mp (hall trivial))
        · intro hor _ hleft
          exact (hor hev).elim hne hleft
      · exact ⟨fun _ hev' => absurd hev' hev, fun _ hx => absurd (by omega) hev⟩
  | dispatch =>
    cases (ioStep_dispatch_immediate h.backend.changes debugMode).symm.trans hstep
    exact ⟨fun _ => trivial, fun _ => hq⟩

/-- Let every event on `fd` have `EV_ET`. Then `fd` is registered with `EPOLLET` (or not
registered) in all the states of a run exactly when every action of the run meets
`KeepsEdge`. -/
theorem edgeTriggered_iff_keepsEdge (debugMode : Bool) (evs : EvId → Event) (fd : Nat)
    (het : ∀ ev, (evs ev).evFd = fd → hasAny (evs ev).evEvents EV_ET = true) (as : List IoAction)
    (hlegal : Meets (ioStep debugMode epollops evs) (IoLegal evs) Evmap.start as) :
    (∀ pre m, pre <+: as → run (ioStep debugMode epollops evs) Evmap.start pre = .ok m →
        EdgeTriggered fd m) ↔
      Meets (ioStep debugMode epollops evs) (KeepsEdge debugMode evs fd) Evmap.start as := by
  refine meets_iff_invariant (fun _ _ h hl => h.step debugMode hl)
    (fun _ _ _ h hl hq hm' => edgeTriggered_step h het hq hl hm') (ImmediateOk.start evs)
    (fun _ hmask => by simp [Evmap.start] at hmask) hlegal

end

/-- Two edge-triggered events on fd 3, one for each of `EV_READ` and `EV_WRITE`. After the
second one is deleted, the first one is registered without `EPOLLET`. And when the second one
is for `EV_CLOSED`, its add already registers both without `EPOLLET`. -/
theorem edgeTriggered_lost :
    let evs : Nat → EvId → Event := fun second ev =>
      { evFd := 3, evEvents := EV_ET ||| if ev = 0 then EV_READ else second }
    (Meets (ioStep false epollops (evs EV_WRITE)) (IoLegal (evs EV_WRITE)) Evmap.start
        [.add 0, .add 1, .del 1] ∧
      ∃ m, run (ioStep false epollops (evs EV_WRITE)) Evmap.start [.add 0, .add 1, .del 1] =
        .ok m ∧ m.ioEvents 3 = [0] ∧ m.evbase.epollop.interest 3 = some EPOLLIN ∧
        hasAny EPOLLIN EPOLLET = false) ∧
    (Meets (ioStep false epollops (evs EV_CLOSED)) (IoLegal (evs EV_CLOSED)) Evmap.start
        [.add 0, .add 1] ∧
      ∃ m, run (ioStep false epollops (evs EV_CLOSED)) Evmap.start [.add 0, .add 1] = .ok m ∧
        m.ioEvents 3 = [1, 0] ∧ m.evbase.epollop.interest 3 = some (EPOLLIN ||| EPOLLRDHUP) ∧
        hasAny (EPOLLIN ||| EPOLLRDHUP) EPOLLET = false) := by
  refine ⟨⟨.cons ?_ rfl (.cons ?_ rfl (.cons ?_ rfl trivial)), _, rfl, rfl, rfl, rfl⟩,
    .cons ?_ rfl (.cons ?_ rfl trivial), _, rfl, rfl, rfl, rfl⟩ <;> intro _ <;> decide

/-- A run that meets `KeepsEdge`: two events for `EV_READ` come and go. -/
theorem edgeTriggered_iff_keepsEdge_two_readers :
    let evs : EvId → Event := fun _ => { evFd := 3, evEvents := EV_ET ||| EV_READ }
    let as := [IoAction.add 0, .add 1, .del 0, .del 1]
    (∀ pre m, pre <+: as → run (ioStep false epollops evs) Evmap.start pre = .ok m →
      EdgeTriggered 3 m) := by
  refine (edgeTriggered_iff_keepsEdge false _ 3 (fun _ _ => rfl) _ ?_).mpr ?_
  · refine .cons ?_ rfl (.cons ?_ rfl (.cons ?_ rfl (.cons ?_ rfl trivial))) <;> intro _ <;> decide
  refine .cons ?_ rfl (.cons ?_ rfl (.cons ?_ rfl (.cons ?_ rfl trivial)))
  · intro _ _; decide
  · intro _ _; decide
  · intro _; exact .inl (by decide)
  · intro _; exact .inr ⟨by decide, by decide, by decide⟩

end Libevent
