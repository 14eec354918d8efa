import Libevent.Proofs.Event.Bookkeeping

/-!
# `Libevent.Proofs.Event.Added`: what `event_add` leaves behind

`event_add_nolock_` looks at the flags of the event when it decides whether to enter the event in
the map, and only then takes an event whose timeout has expired out of its active queue.
`eventAdd_pending` says which events are pending after a call that returned 0: all but those that
were active because of a timeout, in no list of the map, and got a new timeout (`Forgotten`).
-/

namespace Libevent

open Lib

variable {β : Type} {s s' : EventBase β} {ev : EvId} {debugMode : Bool} {evsel evsigsel : EventOp β}

/-! ### Re-adding an event whose timeout has expired -/

/-- The event is active because of a timeout and in no list of the map, and gets a new timeout. -/
def Forgotten (s : EventBase β) (ev : EvId) (tv : Option Timeval) : Prop :=
  tv.isSome = true ∧ (s.evs ev).evFlags.active = true ∧
    hasAny (s.evs ev).evRes EV_TIMEOUT = true ∧ (s.evs ev).evFlags.inserted = false

/-- The event is in the list of its fd or signal, or in an active queue. -/
def EventBase.Holds (s : EventBase β) (ev : EvId) : Prop :=
  ev ∈ s.ownMapEntry ev ∨ ev ∈ s.activequeues (s.evs ev).evPri ∨ ev ∈ s.activeLaterQueue

instance (s : EventBase β) (ev : EvId) : Decidable (s.Holds ev) :=
  inferInstanceAs (Decidable (_ ∨ _ ∨ _))

theorem Inv.holds_iff (h : Inv s) (hfd : 0 ≤ (s.evs ev).evFd) :
    s.Holds ev ↔ ((s.evs ev).evFlags.inserted || (s.evs ev).evFlags.active ||
      (s.evs ev).evFlags.activeLater) = true := by
  have hactive : ev ∈ s.activequeues (s.evs ev).evPri ↔ (s.evs ev).evFlags.active = true := by
    rw [h.act.mem]
    exact and_iff_left rfl
  rw [EventBase.Holds, h.mem_ownMapEntry, hactive, h.act.later_mem, and_iff_left hfd]
  simp [or_assoc]

/-- The flags say which events are forgotten. -/
theorem addedFlags_iff {tv : Option Timeval} (h : Inv s)
    (hkind : isIo (s.evs ev).evEvents = true ∨ isSignal (s.evs ev).evEvents = true) :
    (((s.evs ev).addedFlags tv.isSome).inserted || ((s.evs ev).addedFlags tv.isSome).active ||
      ((s.evs ev).addedFlags tv.isSome).activeLater) = true ↔ ¬ Forgotten s ev tv := by
  have hboth := h.act.not_both ev
  rw [Forgotten, Event.addedFlags, Event.enters]
  cases tv.isSome <;> cases (s.evs ev).evFlags.inserted <;>
    cases hactive : (s.evs ev).evFlags.active <;> cases hlater : (s.evs ev).evFlags.activeLater <;>
    simp_all

/-- A call of `event_add` that returns 0, in any state that a legal run reaches. The event has I/O
or signal interest, and it is not being finalized. It is in the list of its fd or signal, or in an
active queue, unless it was active because of a timeout, in no list, and got a new timeout. With a
timeout, it is in the time heap or its common-timeout list, with the deadline `now + tv`. -/
theorem eventAdd_pending (debugMode : Bool) {evsel evsigsel : EventOp β} (hsel : evsel.NoFault)
    (hsig : evsigsel.NoFault) {npriorities : Nat} (hpri : 0 < npriorities) (b : β) {mm : Mm}
    (hmm : mm.Reliable) {as : List EventAction}
    (hlegal : Meets (eventStep debugMode evsel evsigsel) EventLegal
      (EventBase.start npriorities { evbase := b, mm := mm }) as)
    (hrun : run (eventStep debugMode evsel evsigsel)
      (EventBase.start npriorities { evbase := b, mm := mm }) as = .ok s)
    {tv : Option Timeval} (hadd : EventLegal s (.add ev tv))
    (hkind : isIo (s.evs ev).evEvents = true ∨ isSignal (s.evs ev).evEvents = true)
    (hfd : 0 ≤ (s.evs ev).evFd)
    (hok : eventAdd debugMode evsel evsigsel s ev tv = .ok (0, s')) :
    (s'.Holds ev ↔ ¬ Forgotten s ev tv) ∧ ∀ t, tv = some t →
      (s'.evs ev).evTimeout = deadline s t false ∧
        (ev ∈ s'.heapCells ∨ ev ∈ s'.ownCommonTimeout ev) := by
  have h := (eventRun_yields hsel hsig (Sound.start hpri b hmm) hlegal).of_ok hrun
  obtain ⟨hu, htv⟩ := hadd
  have hspec : Yields StaleWrite (eventAddNolock debugMode evsel evsigsel 2 s ev tv false) _ :=
    eventAddNolock_yields hsel hsig 0 h hu.internal hu.init hu.kind fun t ht =>
      timeoutOk_of_legal h.inv (htv t ht) _
  obtain ⟨hsound, hadded, hself⟩ := hspec.of_ok hok
  obtain ⟨hflags, hdeadline⟩ := hself fun hr : (0 : Int) = -1 => by omega
  refine ⟨?_, fun t ht => ⟨hdeadline t ht, ?_⟩⟩
  · rw [hsound.inv.holds_iff (by rw [hadded.fd]; exact hfd), hflags]
    exact addedFlags_iff h.inv hkind
  have hflag : (s'.evs ev).evFlags.timeout = true := by
    rw [hflags, ht]
    exact Bool.or_true _
  rw [EventBase.mem_heapCells, hsound.inv.time.heap_mem, hsound.inv.mem_ownCommonTimeout]
  cases isCommonTimeout (s'.evs ev).evTimeout s'.commonTimeoutQueues.length <;> simp [hflag]

/-- A reader with a timeout that expires. -/
def expiredRun : List EventAction :=
  [.assign 1 3 EV_READ, .add 1 (some ⟨1, 0⟩), .tick ⟨2, 0⟩, .timeoutProcess]

theorem expiredRun_legal : Meets (eventStep false idleBackend idleBackend) EventLegal
    (EventBase.start 1 { evbase := () }) expiredRun := by decide

/-- The reader is added again without a timeout, while it is active. -/
theorem eventAdd_pending_expiredRun :
    ∃ s s' : EventBase Unit, idleRun expiredRun = .ok s ∧
      eventAdd false idleBackend idleBackend s 1 none = .ok (0, s') ∧
      (s'.Holds 1 ↔ ¬ Forgotten s 1 none) :=
  ⟨_, _, rfl, rfl, (eventAdd_pending false idleBackend_noFault idleBackend_noFault
    (show 0 < 1 by decide) () (fun _ => rfl) expiredRun_legal rfl (by decide) (by decide)
      (by decide)
    rfl).1⟩

/-- With a timeout, it is in no list of the map and in no active queue: only the timeout is left. -/
theorem eventAdd_forgets : ∃ s s' : EventBase Unit, idleRun expiredRun = .ok s ∧
      EventLegal s (.add 1 (some ⟨1, 0⟩)) ∧
      eventAdd false idleBackend idleBackend s 1 (some ⟨1, 0⟩) = .ok (0, s') ∧
      ¬ s'.Holds 1 ∧ 1 ∈ s'.heapCells :=
  ⟨_, _, rfl, by decide, rfl, by decide, by decide⟩

end Libevent
