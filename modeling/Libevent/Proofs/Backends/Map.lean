import Libevent.Backends
import Libevent.Proofs.Epoll.Interest

/-!
# `Libevent.Proofs.Backends.Map`: what the map tells a backend

A backend is described by a relation `B` between its state, the `fdinfo` of the fds and what is
wanted of each fd. When its `add` and `del` keep `B`, a base with this backend keeps `MapOk B`:
the backend has at all times what the counters of the map stand for. What happens to the lists and
the counters does not depend on the backend (`ioAfter`), so two bases that go through the same
actions keep the same lists (`InStep`).
-/

namespace Libevent

/-- The mask `events` stands for the interest `i`, for a backend that knows no other bits. -/
structure StandsFor (events : Nat) (i : Interest) : Prop where
  signal : hasAny events EV_SIGNAL = false
  read : hasAny events EV_READ = i.read
  write : hasAny events EV_WRITE = i.write

theorem standsFor_ev (i : Interest) : StandsFor i.ev i := by
  obtain ⟨a, b, c⟩ := i
  cases a <;> cases b <;> cases c <;> exact ⟨rfl, rfl, rfl⟩

/-- `EV_ET` says nothing to the backend. -/
theorem standsFor_et (events : Nat) (i : Interest) : StandsFor ((events &&& EV_ET) ||| i.ev) i := by
  have hbit : ∀ bit, EV_ET &&& bit = 0 → hasAny (events &&& EV_ET) bit = false := by
    intro bit h
    simp [hasAny, Nat.and_assoc, h]
  constructor <;> rw [hasAny_or, hbit _ (by decide)]
  · exact (standsFor_ev i).signal
  · exact (standsFor_ev i).read
  · exact (standsFor_ev i).write

theorem StandsFor.readWrite {events : Nat} {i : Interest} (h : StandsFor events i) :
    hasAny events (EV_READ ||| EV_WRITE) = (i.read || i.write) := by
  have hsplit : hasAny events (EV_READ ||| EV_WRITE) =
      (hasAny events EV_READ || hasAny events EV_WRITE) := by
    unfold hasAny
    rw [Nat.and_or_distrib_left, Bool.eq_iff_iff, Bool.or_eq_true, bne_iff_ne, bne_iff_ne,
      bne_iff_ne, ne_eq, Nat.or_eq_zero_iff]
    tauto
  rw [hsplit, h.read, h.write]

/-! ### The lists and the counters -/

/-- The entry without the `fdinfo` of the backend. -/
def EvmapIo.bare (ctx : EvmapIo) : EvmapIo := { ctx with fdinfo := 0 }

/-- The entries after an action. -/
def ioAfter (debugMode : Bool) (evs : EvId → Event) (io : Nat → EvmapIo) : FdAction → Nat → EvmapIo
  | .add ev => fun x =>
    if 0 ≤ (evs ev).evFd ∧ ¬ addRefused debugMode evs (io (evs ev).evFd.toNat) ev ∧
      x = (evs ev).evFd.toNat then (io x).joined evs ev else io x
  | .del ev => fun x =>
    if 0 ≤ (evs ev).evFd ∧ x = (evs ev).evFd.toNat then (io x).left evs ev else io x
  | .dispatch | .dispatched _ _ _ => io

/-- A relation between a backend, the `fdinfo` of the fds and what is wanted of them. -/
abbrev BackendRel (β : Type) := β → (Nat → Nat) → (Nat → Interest) → Prop

section
variable {β : Type} {B C : BackendRel β} {evs : EvId → Event} {m : Evmap β}

/-- The counters count, and the backend has what they stand for. -/
structure MapOk (B : BackendRel β) (evs : EvId → Event) (m : Evmap β) : Prop where
  mm : m.mm.Reliable
  counts : ∀ fd, CountsOk evs (m.io fd)
  bound : ∀ fd, (m.entries fd).isSome → fd < m.nentries
  backend : B m.evbase (fun fd => (m.io fd).fdinfo) fun fd => (m.io fd).interest

/-- A base without events. -/
theorem MapOk.start {b : β} (hb : B b (fun _ => 0) fun _ => Interest.empty) :
    MapOk B evs { evbase := b } where
  mm := fun _ => rfl
  counts := fun _ => CountsOk.empty evs
  bound := fun _ h => by simp at h
  backend := hb

/-- The `add` of a backend keeps `B` when it is told of new conditions, with the bits `et` of the
event that brings them. -/
def AddKeeps (evsel : EventOp β) (et : Nat) (B : BackendRel β) : Prop :=
  ∀ {b : β} {pos : Nat → Nat} {want : Nat → Interest} {i : Interest}, B b pos want →
    i ≠ Interest.empty → ∀ fd, ∃ b' idx,
      evsel.add b fd (want fd).ev (et ||| i.ev) (pos fd) = .ok (0, b', idx) ∧
      B b' (fun x => if x = fd then idx else pos x)
        (fun x => if x = fd then (want fd).or i else want x)

/-- The map and the backend after a step that writes the entry of `fd`. -/
theorem MapOk.set {m' : Evmap β} {fd : Nat} {ctx' : EvmapIo} {b : β} (h : MapOk B evs m)
    (hset : EntrySet m fd ctx' b m') (hcounts : CountsOk evs ctx')
    (hbackend : C b (fun x => if x = fd then ctx'.fdinfo else (m.io x).fdinfo)
      fun x => if x = fd then ctx'.interest else (m.io x).interest) : MapOk C evs m' where
  mm := hset.mm h.mm
  counts := hset.counts h.counts hcounts
  bound := hset.bound h.bound
  backend := by
    rw [hset.evbase, hset.field EvmapIo.fdinfo, hset.field EvmapIo.interest]
    exact hbackend

/-- The map after a step that the backend does not hear of: what is wanted of the fd is the same as
before. -/
theorem MapOk.set_same {m' : Evmap β} {fd : Nat} {ctx' : EvmapIo} (h : MapOk B evs m)
    (hset : EntrySet m fd ctx' m.evbase m') (hcounts : CountsOk evs ctx')
    (hinfo : ctx'.fdinfo = (m.io fd).fdinfo) (hinterest : ctx'.interest = (m.io fd).interest) :
    MapOk B evs m' := by
  refine h.set hset hcounts ?_
  rw [hinfo, hinterest, write_self fun x => (m.io x).fdinfo, write_self fun x => (m.io x).interest]
  exact h.backend

/-- The lists and the counters after a step that does `f` to the entry of `fd`. -/
theorem EntrySet.bare {m' : Evmap β} {fd idx : Nat} {b : β} {f : EvmapIo → EvmapIo} {c : Nat → Prop}
    [DecidablePred c] (hset : EntrySet m fd { f (m.io fd) with fdinfo := idx } b m')
    (hc : ∀ x, c x ↔ x = fd) (hf : ∀ ctx, (f ctx).bare = f ctx.bare) (x : Nat) :
    (m'.io x).bare = if c x then f (m.io x).bare else (m.io x).bare := by
  rw [hset.io]
  by_cases hx : x = fd
  · rw [if_pos hx, if_pos ((hc x).mpr hx), hx]
    exact hf (m.io fd)
  · rw [if_neg hx, if_neg (mt (hc x).mp hx)]

/-- `evmap_io_add_`. -/
theorem MapOk.add (h : MapOk B evs m) {evsel : EventOp β} {ev : EvId}
    (hadd : AddKeeps evsel ((evs ev).evEvents &&& EV_ET) B) (debugMode : Bool) :
    ∃ m', (evmapIoAdd debugMode evsel evs m (evs ev).evFd ev).map Prod.snd = .ok m' ∧
      MapOk B evs m' ∧
      ∀ x, (m'.io x).bare = ioAfter debugMode evs (fun x => (m.io x).bare) (.add ev) x := by
  have hcases := evmapIoAdd_cases debugMode evsel evs m ev
  generalize evmapIoAdd debugMode evsel evs m (evs ev).evFd ev = r at hcases ⊢
  cases hcases with
  | noFd hfd => exact ⟨m, rfl, h, fun x => (if_neg fun hall => absurd hall.1 (by omega)).symm⟩
  | noMemory hmm => exact absurd h.mm hmm
  | refused hrej hset =>
    refine ⟨_, rfl, h.set_same hset (h.counts _) rfl rfl, fun x => ?_⟩
    refine Eq.trans ?_ (if_neg fun hall => hall.2.1 hrej).symm
    rw [hset.io]
    split
    · next hx => rw [hx]
    · rfl
  | quiet hfd hrej hres hset =>
    refine ⟨_, rfl, h.set_same hset ((h.counts _).insert ev _) rfl
      (EvmapIo.interest_joined_of_quiet hres), ?_⟩
    exact hset.bare (f := (·.joined evs ev))
      (fun _ => (and_iff_right hfd).trans (and_iff_right hrej)) fun _ => rfl
  | told hfd hrej hres hset =>
    obtain ⟨b', idx, hbackend, hb'⟩ := hadd h.backend (mt EvmapIo.resUp_eq_zero.mpr hres) _
    rw [EvmapIo.old_eq, EvmapIo.resUp_eq, hbackend]
    rw [← EvmapIo.interest_joined] at hb'
    refine ⟨_, rfl, h.set (hset b' _) ((h.counts _).insert ev _) hb', ?_⟩
    exact (hset b' _).bare (f := (·.joined evs ev))
      (fun _ => (and_iff_right hfd).trans (and_iff_right hrej)) fun _ => rfl

/-- `evmap_io_del_`, for a backend whose `del` leads from `B` to `C`. -/
theorem MapOk.del (h : MapOk B evs m) (evsel : EventOp β) (debugMode : Bool) {ev : EvId}
    (hmem : 0 ≤ (evs ev).evFd → ev ∈ (m.io (evs ev).evFd.toNat).events)
    (hkeep : ∀ {b pos want}, B b pos want → C b pos want)
    (hdel : ∀ {i : Interest} {fd : Nat}, i ≠ Interest.empty → i.Sub (m.io fd).interest → ∃ b' idx,
      evsel.del m.evbase fd (m.io fd).interest.ev i.ev (m.io fd).fdinfo = .ok (0, b', idx) ∧
      C b' (fun x => if x = fd then idx else (m.io x).fdinfo)
        (fun x => if x = fd then (m.io fd).interest.diff i else (m.io x).interest)) :
    ∃ m', (evmapIoDel evsel evs m (evs ev).evFd ev).map Prod.snd = .ok m' ∧ MapOk C evs m' ∧
      ∀ x, (m'.io x).bare = ioAfter debugMode evs (fun x => (m.io x).bare) (.del ev) x := by
  have hweak : MapOk C evs m := ⟨h.mm, h.counts, h.bound, hkeep h.backend⟩
  have hcases := evmapIoDel_cases evsel evs m ev hmem (h.counts _) h.bound
  generalize evmapIoDel evsel evs m (evs ev).evFd ev = r at hcases ⊢
  cases hcases with
  | noFd hfd => exact ⟨m, rfl, hweak, fun x => (if_neg fun hall => absurd hall.1 (by omega)).symm⟩
  | quiet hfd hres hset =>
    refine ⟨_, rfl, hweak.set_same hset ((h.counts _).erase (hmem hfd) _) rfl
      (EvmapIo.interest_left_of_quiet (h.counts _) (hmem hfd) hres), ?_⟩
    exact hset.bare (f := (·.left evs ev)) (fun _ => and_iff_right hfd) fun _ => rfl
  | told hfd hres hset =>
    replace hmem := hmem hfd
    obtain ⟨b', idx, hbackend, hb'⟩ := hdel (mt EvmapIo.resDown_eq_zero.mpr hres)
      (EvmapIo.lastInterest_sub _ _)
    rw [EvmapIo.old_eq, EvmapIo.resDown_eq, hbackend]
    rw [← EvmapIo.interest_left (h.counts _) hmem] at hb'
    refine ⟨_, rfl, h.set (hset b' _) ((h.counts _).erase hmem _) hb', ?_⟩
    exact (hset b' _).bare (f := (·.left evs ev)) (fun _ => and_iff_right hfd) fun _ => rfl

end

/-! ### Two bases -/

/-- Two bases went through the same actions: they have the same lists and counters. -/
structure InStep {β γ : Type} (B : BackendRel β) (C : BackendRel γ) (evs : EvId → Event)
    (m : Evmap β) (c : Evmap γ) : Prop where
  left : MapOk B evs m
  right : MapOk C evs c
  same : ∀ fd, (m.io fd).bare = (c.io fd).bare

section
variable {β γ : Type} {B : BackendRel β} {C : BackendRel γ} {evs : EvId → Event} {m : Evmap β}
  {c : Evmap γ}

theorem InStep.ioEvents (h : InStep B C evs m c) (fd : Nat) : m.ioEvents fd = c.ioEvents fd := by
  rw [Evmap.ioEvents_eq, Evmap.ioEvents_eq]
  have hbare : (m.io fd).bare.events = (c.io fd).bare.events := by rw [h.same]
  exact hbare

/-- Both bases take an action that does the same to their lists. -/
theorem InStep.next (h : InStep B C evs m c) {m' : Evmap β} {c' : Evmap γ} {debugMode : Bool}
    {a : FdAction} (hm : MapOk B evs m') (hc : MapOk C evs c')
    (hmio : ∀ x, (m'.io x).bare = ioAfter debugMode evs (fun x => (m.io x).bare) a x)
    (hcio : ∀ x, (c'.io x).bare = ioAfter debugMode evs (fun x => (c.io x).bare) a x) :
    InStep B C evs m' c' := by
  refine ⟨hm, hc, fun x => ?_⟩
  rw [hmio, hcio, funext h.same]

end

end Libevent
