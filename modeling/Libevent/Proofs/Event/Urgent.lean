import Libevent.Event.Process
import Libevent.Lib.Outcome

/-!
# `Libevent.Proofs.Event.Urgent`: what a call can do to the active queues

`Urged s s'`: between `s` and `s'`, an event is entered in an active queue only by its priority, and
when a `struct event` is entered in a queue that is more urgent than the one that is being run,
`event_continue` is set. Nothing else sets or clears `event_continue`.

Every function that a callback can call is `Urged`, except those that initialize an event or set its
priority. To begin with a callback enters no event (`processActive_begun`).
-/

namespace Libevent

open Lib

variable {β : Type} {s s' s'' : EventBase β} {ev : EvId} {r : Except Fault (EventBase β)}

/-- What decides where an event is queued and whether it counts. -/
def Event.face (e : Event) : Bool × Bool × Nat :=
  (e.evFlags.init, e.evFlags.internal, e.evPri)

/-- No event is entered in an active queue, and `event_continue` stays as it is. -/
structure Begun (s s' : EventBase β) : Prop where
  running : s'.eventRunningPriority = s.eventRunningPriority
  cont : s'.eventContinue = s.eventContinue
  face : ∀ e, (s'.evs e).face = (s.evs e).face
  queues : ∀ j, s'.activequeues j ⊆ s.activequeues j

/-- The same, and no callback is called. -/
structure Calm (s s' : EventBase β) : Prop extends Begun s s' where
  log : s'.log = s.log

/-- `event_continue` is not cleared, and it is set only while a queue runs that is not the most
urgent one. -/
structure Heeds (s s' : EventBase β) : Prop where
  running : s'.eventRunningPriority = s.eventRunningPriority
  mono : s.eventContinue = true → s'.eventContinue = true
  calm : s'.eventContinue = true → s.eventContinue = true ∨ 0 < s.eventRunningPriority

theorem Heeds.trans (h : Heeds s s') (h' : Heeds s' s'') : Heeds s s'' where
  running := h'.running.trans h.running
  mono := h'.mono ∘ h.mono
  calm hc := by
    rcases h'.calm hc with hc' | hpos
    · exact h.calm hc'
    · rw [h.running] at hpos
      exact .inr hpos

structure Urged (s s' : EventBase β) : Prop extends Heeds s s' where
  face : ∀ e, (s'.evs e).face = (s.evs e).face
  queued : ∀ j e, e ∈ s'.activequeues j → e ∈ s.activequeues j ∨
    (j = (s.evs e).evPri ∧ ((s.evs e).evFlags.init = true → (j : Int) < s.eventRunningPriority →
      s'.eventContinue = true))
  log : s'.log = s.log

theorem Begun.trans (h : Begun s s') (h' : Begun s' s'') : Begun s s'' :=
  ⟨h'.running.trans h.running, h'.cont.trans h.cont, fun e => (h'.face e).trans (h.face e),
    fun j => List.Subset.trans (h'.queues j) (h.queues j)⟩

/-- The fields at which `Begun` looks. -/
def EventBase.dispatchView (s : EventBase β) :=
  (s.eventRunningPriority, s.eventContinue, s.evs, s.activequeues)

theorem Begun.of_view (h : s'.dispatchView = s.dispatchView) : Begun s s' := by
  simp only [EventBase.dispatchView, Prod.mk.injEq] at h
  obtain ⟨hrun, hcont, hevs, hqueues⟩ := h
  exact ⟨hrun, hcont, fun e => by rw [hevs], fun j => by rw [hqueues]; exact List.Subset.refl _⟩

namespace Calm

theorem refl (s : EventBase β) : Calm s s :=
  ⟨⟨rfl, rfl, fun _ => rfl, fun _ => List.Subset.refl _⟩, rfl⟩

theorem trans (h : Calm s s') (h' : Calm s' s'') : Calm s s'' :=
  ⟨h.toBegun.trans h'.toBegun, h'.log.trans h.log⟩

/-- A change of other fields. -/
theorem of_view (h : s'.dispatchView = s.dispatchView) (hlog : s'.log = s.log) : Calm s s' :=
  ⟨.of_view h, hlog⟩

theorem setEv {e : Event} (h : e.face = (s.evs ev).face) : Calm s (s.setEv ev e) := by
  refine ⟨⟨rfl, rfl, fun x => ?_, fun j => List.Subset.refl _⟩, rfl⟩
  show (if x = ev then e else s.evs x).face = (s.evs x).face
  split
  · next hx => rw [hx, h]
  · rfl

variable {fl : EvFlags}

theorem setFlags (hinit : fl.init = (s.evs ev).evFlags.init)
    (hint : fl.internal = (s.evs ev).evFlags.internal) : Calm s (s.setFlags ev fl) := by
  refine setEv ?_
  unfold Event.face
  rw [hinit, hint]

section
variable (hinit : fl.init = (s.evs ev).evFlags.init)
  (hint : fl.internal = (s.evs ev).evFlags.internal)
include hinit hint

/-- An event is counted, and its flags change. -/
theorem countIn : Calm s ((s.incrEventCount ev).setFlags ev fl) :=
  (of_view (by rfl) (by rfl)).trans (setFlags hinit hint)

theorem countOut : Calm s ((s.decrEventCount ev).setFlags ev fl) :=
  (of_view (by rfl) (by rfl)).trans (setFlags hinit hint)

end

/-- Calm computations one after another. -/
theorem bind {α : Type} {f : EventBase β → Except Fault α} {g : α → EventBase β}
    (h : Partly r (Calm s)) (hf : ∀ s', Partly (f s') fun a => Calm s' (g a)) :
    Partly (r >>= f) fun a => Calm s (g a) :=
  Yields.bind h fun s' hs => (hf s').mono fun _ => hs.trans

/-- An optional calm computation. -/
theorem ite {c : Prop} [Decidable c] (h : Partly r (Calm s)) :
    Partly (if c then r else pure s) (Calm s) := by
  split
  · exact h
  · exact refl s

theorem urged (h : Calm s s') : Urged s s' where
  running := h.running
  mono := by rw [h.cont]; exact id
  calm := by rw [h.cont]; exact Or.inl
  face := h.face
  queued _ _ hmem := .inl (h.queues _ hmem)
  log := h.log

end Calm

namespace Urged

theorem refl (s : EventBase β) : Urged s s :=
  (Calm.refl s).urged

theorem init (h : Urged s s') (e : EvId) : (s'.evs e).evFlags.init = (s.evs e).evFlags.init :=
  congrArg Prod.fst (h.face e)

theorem internal (h : Urged s s') (e : EvId) :
    (s'.evs e).evFlags.internal = (s.evs e).evFlags.internal :=
  congrArg (fun f => f.2.1) (h.face e)

theorem pri (h : Urged s s') (e : EvId) : (s'.evs e).evPri = (s.evs e).evPri :=
  congrArg (fun f => f.2.2) (h.face e)

theorem trans (h : Urged s s') (h' : Urged s' s'') : Urged s s'' where
  toHeeds := h.toHeeds.trans h'.toHeeds
  face e := (h'.face e).trans (h.face e)
  queued j e hmem := by
    rcases h'.queued j e hmem with hmem' | ⟨hj, hurge⟩
    · rcases h.queued j e hmem' with hold | ⟨hj, hurge⟩
      · exact .inl hold
      · exact .inr ⟨hj, fun hinit hlt => h'.mono (hurge hinit hlt)⟩
    · rw [h.pri] at hj
      rw [h.init, h.running] at hurge
      exact .inr ⟨hj, hurge⟩
  log := h'.log.trans h.log

/-- Urged computations one after another. -/
theorem bind {f : EventBase β → Except Fault (EventBase β)} (h : Partly r (Urged s))
    (hf : ∀ s', Partly (f s') (Urged s')) :
    Partly (r >>= f) (Urged s) :=
  Yields.bind h fun s' hs => (hf s').mono fun _ => hs.trans

/-- The same after a deletion. -/
theorem bindDel {γ : Type} {r : Except Fault (γ × EventBase β)}
    {f : γ × EventBase β → Except Fault (EventBase β)}
    (h : Partly r fun p => Calm s p.2)
    (hf : ∀ p : γ × EventBase β, Partly (f p) (Urged p.2)) :
    Partly (r >>= f) (Urged s) :=
  Yields.bind h fun p hp => (hf p).mono fun _ => hp.urged.trans

end Urged

/-! ### The queues -/

theorem eventQueueInsertInserted_calm (s : EventBase β) (ev : EvId) :
    Partly (eventQueueInsertInserted s ev) (Calm s) := by
  unfold eventQueueInsertInserted
  split
  · exact trivial
  · exact Calm.countIn (by rfl) (by rfl)

theorem eventQueueRemoveInserted_calm (s : EventBase β) (ev : EvId) :
    Partly (eventQueueRemoveInserted s ev) (Calm s) := by
  unfold eventQueueRemoveInserted
  split
  · exact trivial
  · exact Calm.countOut (by rfl) (by rfl)

/-- An event that may be entered in its queue: it is no `struct event`, or it is not urgent, or
`event_continue` is set. -/
def MayQueue (s : EventBase β) (ev : EvId) : Prop :=
  (s.evs ev).evFlags.init = true → ((s.evs ev).evPri : Int) < s.eventRunningPriority →
    s.eventContinue = true

theorem MayQueue.urged (h : MayQueue s ev) (hu : Urged s s') : MayQueue s' ev := by
  unfold MayQueue
  rw [hu.init, hu.pri, hu.running]
  exact fun hinit hlt => hu.mono (h hinit hlt)

/-- The event is entered in the queue of its priority. -/
theorem MayQueue.enqueue (h : MayQueue s ev) (hc : Calm s s') :
    Urged s (s'.setQueue (s.evs ev).evPri (s.activequeues (s.evs ev).evPri ++ [ev])) := by
  refine ⟨⟨hc.running, fun hcont => hc.cont.trans hcont, fun hcont => .inl (hc.cont ▸ hcont)⟩,
    hc.face, fun j e hmem => ?_, hc.log⟩
  change e ∈ (if j = (s.evs ev).evPri then s.activequeues (s.evs ev).evPri ++ [ev]
    else s'.activequeues j) at hmem
  split at hmem
  · next hj =>
    subst hj
    rcases List.mem_append.mp hmem with hold | hnew
    · exact .inl hold
    · rw [List.mem_singleton.mp hnew]
      exact .inr ⟨rfl, fun hinit hlt => hc.cont.trans (h hinit hlt)⟩
  · exact .inl (hc.queues j hmem)

theorem eventQueueInsertActive_urged (h : MayQueue s ev) :
    Partly (eventQueueInsertActive s ev) (Urged s) := by
  unfold eventQueueInsertActive
  split
  · exact Urged.refl s
  dsimp only
  split
  · exact trivial
  · exact h.enqueue ((Calm.countIn (by rfl) (by rfl)).trans (Calm.of_view rfl rfl))

section
variable (s ev)

theorem eventQueueRemoveActive_calm : Partly (eventQueueRemoveActive s ev) (Calm s) := by
  unfold eventQueueRemoveActive
  split
  · exact trivial
  dsimp only
  split
  · exact trivial
  have hflags : Calm s ((s.decrEventCount ev).setFlags ev
      { (s.evs ev).evFlags with active := false }).decrActive :=
    (Calm.countOut (by rfl) (by rfl)).trans (Calm.of_view rfl rfl)
  refine ⟨⟨rfl, rfl, hflags.face, fun j => ?_⟩, rfl⟩
  change (if j = (s.evs ev).evPri then (s.activequeues (s.evs ev).evPri).erase ev
    else s.activequeues j) ⊆ _
  split
  · next hj =>
    subst hj
    exact List.erase_subset
  · exact List.Subset.refl _

theorem eventQueueInsertActiveLater_calm : Partly (eventQueueInsertActiveLater s ev) (Calm s) := by
  unfold eventQueueInsertActiveLater
  split
  · exact Calm.refl s
  split
  · exact trivial
  · exact (Calm.countIn (by rfl) (by rfl)).trans (Calm.of_view rfl rfl)

theorem eventQueueRemoveActiveLater_calm : Partly (eventQueueRemoveActiveLater s ev) (Calm s) := by
  unfold eventQueueRemoveActiveLater
  split
  · exact trivial
  split
  · exact trivial
  · exact (Calm.countOut (by rfl) (by rfl)).trans (Calm.of_view rfl rfl)

theorem eventQueueInsertTimeout_calm : Partly (eventQueueInsertTimeout s ev) (Calm s) := by
  unfold eventQueueInsertTimeout
  split
  · exact trivial
  have hflags : Calm s ((s.incrEventCount ev).setFlags ev
      { (s.evs ev).evFlags with timeout := true }) :=
    Calm.countIn (by rfl) (by rfl)
  dsimp only
  split
  · split
    · exact trivial
    split
    · exact trivial
    · exact hflags.trans (Calm.of_view rfl rfl)
  · exact hflags.trans (Calm.of_view rfl rfl)

theorem eventQueueRemoveTimeout_calm : Partly (eventQueueRemoveTimeout s ev) (Calm s) := by
  unfold eventQueueRemoveTimeout
  split
  · exact trivial
  have hflags : Calm s ((s.decrEventCount ev).setFlags ev
      { (s.evs ev).evFlags with timeout := false }) :=
    Calm.countOut (by rfl) (by rfl)
  dsimp only
  split
  · split
    · exact trivial
    split
    · exact trivial
    · exact hflags.trans (Calm.of_view rfl rfl)
  · exact hflags.trans (Calm.of_view rfl rfl)

/-! ### Activating -/

theorem abortSignalLoop_calm : Partly (abortSignalLoop s ev) (Calm s) := by
  unfold abortSignalLoop
  split
  · split
    · exact trivial
    split
    · exact Calm.of_view rfl rfl
    · exact trivial
  · exact Calm.refl s

end

theorem eventCallbackActivateNolock_urged (h : MayQueue s ev) :
    Partly (eventCallbackActivateNolock s ev) fun r => Urged s r.2 := by
  unfold eventCallbackActivateNolock
  dsimp only
  split
  · exact Urged.refl s
  split
  · exact trivial
  split
  · exact Urged.refl s
  refine (Calm.ite (eventQueueRemoveActiveLater_calm s ev)).ite_bind fun s1 h1 => ?_
  exact Yields.bind_pure ((eventQueueInsertActive_urged (h.urged h1.urged)).mono
    fun _ => h1.urged.trans)

theorem eventCallbackActivateLaterNolock_calm (s : EventBase β) (ev : EvId) :
    Partly (eventCallbackActivateLaterNolock s ev) fun r => Calm s r.2 := by
  unfold eventCallbackActivateLaterNolock
  split
  · exact Calm.refl s
  · exact Yields.bind_pure (eventQueueInsertActiveLater_calm s ev)

/-- The event becomes active, so `event_continue` is set when it is urgent. -/
theorem noteActive_urged (s : EventBase β) (ev : EvId) (res : Nat) (ncalls : Int) :
    Urged s (noteActive s ev res ncalls) ∧ MayQueue (noteActive s ev res ncalls) ev := by
  have hface : ∀ x, ((noteActive s ev res ncalls).evs x).face = (s.evs x).face := by
    intro x
    unfold noteActive
    dsimp only
    refine (Calm.setEv ?_).face x
    split <;> rfl
  have hpri : ((noteActive s ev res ncalls).evs ev).evPri = (s.evs ev).evPri :=
    congrArg (fun f => f.2.2) (hface ev)
  have hcont : (noteActive s ev res ncalls).eventContinue =
      (s.eventContinue || decide (((s.evs ev).evPri : Int) < s.eventRunningPriority)) := by
    unfold noteActive
    dsimp only
    split <;> rfl
  refine ⟨⟨⟨rfl, fun h => ?_, fun h => ?_⟩, hface, fun j e => Or.inl, rfl⟩, fun _ hlt => ?_⟩
  · rw [hcont, h, Bool.true_or]
  · rw [hcont, Bool.or_eq_true, decide_eq_true_eq] at h
    exact h.imp_right fun hlt => by omega
  · rw [hpri] at hlt
    rw [hcont, Bool.or_eq_true, decide_eq_true_eq]
    exact .inr hlt

theorem eventActiveNolock_urged (s : EventBase β) (ev : EvId) (res : Nat) (ncalls : Int) :
    Partly (eventActiveNolock s ev res ncalls) (Urged s) := by
  unfold eventActiveNolock
  dsimp only
  split
  · exact Urged.refl s
  split
  · exact trivial
  split
  · exact Calm.urged (Calm.setEv rfl)
  obtain ⟨hnote, hmay⟩ := noteActive_urged s ev res ncalls
  exact Yields.bind_pure
    ((eventCallbackActivateNolock_urged hmay).mono fun r hr => hnote.trans hr)

theorem eventActiveLaterNolock_calm (s : EventBase β) (ev : EvId) (res : Nat) :
    Partly (eventActiveLaterNolock s ev res) (Calm s) := by
  unfold eventActiveLaterNolock
  split
  · exact Calm.setEv rfl
  have hres : Calm s (s.setEv ev { s.evs ev with evRes := res }) := Calm.setEv rfl
  exact Yields.bind_pure
    ((eventCallbackActivateLaterNolock_calm _ ev).mono fun r hr => hres.trans hr)

theorem ioActiveList_urged (events : Nat) (l : List EvId) (s : EventBase β) :
    Partly (ioActiveList events l s) (Urged s) := by
  induction l generalizing s with
  | nil => exact Urged.refl s
  | cons ev l ih =>
    have hfirst : Partly (if hasAny (s.evs ev).evEvents events = true then
        eventActiveNolock s ev ((s.evs ev).evEvents &&& events) 1 else pure s) (Urged s) := by
      split
      · exact eventActiveNolock_urged s ev _ 1
      · exact Urged.refl s
    exact hfirst.ite_bind fun s1 h1 => (ih s1).mono fun _ => h1.trans

theorem signalActiveList_urged (ncalls : Int) (l : List EvId) (s : EventBase β) :
    Partly (signalActiveList ncalls l s) (Urged s) := by
  induction l generalizing s with
  | nil => exact Urged.refl s
  | cons ev l ih => exact Urged.bind (eventActiveNolock_urged s ev EV_SIGNAL ncalls) fun s1 => ih s1

theorem evmapIoActive_urged (s : EventBase β) (fd : Int) (events : Nat) :
    Partly (evmapIoActive s fd events) (Urged s) := by
  unfold evmapIoActive
  split
  · exact Urged.refl s
  split
  · exact Urged.refl s
  · exact ioActiveList_urged events _ s

theorem evmapSignalActive_urged (s : EventBase β) (sig ncalls : Int) :
    Partly (evmapSignalActive s sig ncalls) (Urged s) := by
  unfold evmapSignalActive
  split
  · exact Urged.refl s
  split
  · exact Urged.refl s
  · exact signalActiveList_urged ncalls _ s

/-! ### Deleting -/

section
variable {debugMode : Bool} {evsel evsigsel : EventOp β}

section
variable (s : EventBase β) (ev : EvId)

theorem eventUnqueue_calm : Partly (eventUnqueue s ev) (Calm s) := by
  refine (Calm.ite (abortSignalLoop_calm s ev)).ite_bind fun s1 h1 => ?_
  refine (Calm.ite (eventQueueRemoveTimeout_calm s1 ev)).ite_bind fun s2 h2 => ?_
  dsimp only
  split
  · exact (eventQueueRemoveActive_calm s2 ev).mono fun _ => (h1.trans h2).trans
  split
  · exact (eventQueueRemoveActiveLater_calm s2 ev).mono fun _ => (h1.trans h2).trans
  · exact h1.trans h2

theorem eventDelNolock_calm (evenIfFinalizing : Bool) :
    Partly (eventDelNolock evsel evsigsel s ev evenIfFinalizing) fun r => Calm s r.2 := by
  unfold eventDelNolock
  split
  · exact Calm.refl s
  refine Calm.bind (eventUnqueue_calm s ev) fun s1 => ?_
  split
  · refine Calm.bind (eventQueueRemoveInserted_calm s1 ev) fun s2 => ?_
    exact Yields.bind_any fun r => Calm.of_view rfl rfl
  · exact Calm.refl s1

theorem eventRemoveTimerNolock_calm : Partly (eventRemoveTimerNolock s ev) (Calm s) := by
  unfold eventRemoveTimerNolock
  split
  · exact Calm.bind (eventQueueRemoveTimeout_calm s ev) fun s1 => Calm.setEv rfl
  · exact Calm.refl s

theorem eventCallbackCancelNolock_calm (evenIfFinalizing : Bool) :
    Partly (eventCallbackCancelNolock evsel evsigsel s ev evenIfFinalizing)
      fun r => Calm s r.2 := by
  unfold eventCallbackCancelNolock
  dsimp only
  split
  · exact Calm.refl s
  split
  · exact eventDelNolock_calm s ev evenIfFinalizing
  split
  · exact trivial
  split
  · exact Yields.bind_pure (eventQueueRemoveActive_calm s ev)
  split
  · exact Yields.bind_pure (eventQueueRemoveActiveLater_calm s ev)
  · exact Calm.refl s

/-! ### Adding -/

theorem reserveForTimeout_calm (tv : Option Timeval) : Calm s (reserveForTimeout s ev tv).2 := by
  unfold reserveForTimeout
  split
  · exact Calm.of_view rfl rfl
  · exact Calm.refl s

theorem eventAddInserted_calm : Partly (eventAddInserted debugMode evsel evsigsel s ev)
      fun r => Calm s r.2 := by
  unfold eventAddInserted
  dsimp only
  split
  · refine Yields.bind_any fun r => ?_
    have hmap : Calm s { s with evmap := r.2 } := Calm.of_view rfl rfl
    exact (Calm.ite (eventQueueInsertInserted_calm _ ev)).ite_bind fun s1 h1 => hmap.trans h1
  · exact Calm.refl s

theorem dropOldTimeout_calm : Partly (dropOldTimeout s ev) (Calm s) := by
  refine (Calm.ite (eventQueueRemoveTimeout_calm s ev)).ite_bind fun s1 h1 => ?_
  dsimp only
  split
  · exact (Calm.ite (abortSignalLoop_calm s1 ev)).ite_bind fun s2 h2 =>
      (eventQueueRemoveActive_calm s2 ev).mono fun _ => (h1.trans h2).trans
  · exact h1

end

theorem eventAddTimeout_calm
    {schedule : EventBase β → CommonTimeoutList → EvId → Except Fault (EventBase β)}
    (hschedule : ∀ s ctl head, Partly (schedule s ctl head) (Calm s))
    (s : EventBase β) (ev : EvId) (tv : Timeval) (tvIsAbsolute : Bool) :
    Partly (eventAddTimeout schedule s ev tv tvIsAbsolute) (Calm s) := by
  unfold eventAddTimeout
  have hio : Calm s (if (s.evs ev).evClosure = .eventPersist ∧ tvIsAbsolute = false then
      s.setEv ev { s.evs ev with evIoTimeout := tv } else s) := by
    split
    · exact Calm.setEv rfl
    · exact Calm.refl s
  generalize (if (s.evs ev).evClosure = .eventPersist ∧ tvIsAbsolute = false then
    s.setEv ev { s.evs ev with evIoTimeout := tv } else s) = s0 at hio ⊢
  refine Yields.bind ((dropOldTimeout_calm s0 ev).mono fun _ => hio.trans) fun s1 h1 => ?_
  have htv : Calm s (s1.setEv ev { s1.evs ev with evTimeout := deadline s1 tv tvIsAbsolute }) :=
    h1.trans (Calm.setEv rfl)
  refine Yields.bind ((eventQueueInsertTimeout_calm _ ev).mono fun _ => htv.trans) fun s2 h2 => ?_
  split
  · split
    · exact trivial
    split
    · exact (hschedule s2 _ ev).mono fun _ => h2.trans
    · exact h2
  · exact h2

theorem eventAddNolock_calm (fuel : Nat) (s : EventBase β) (ev : EvId) (tv : Option Timeval)
    (tvIsAbsolute : Bool) :
    Partly (eventAddNolock debugMode evsel evsigsel fuel s ev tv tvIsAbsolute)
      fun r => Calm s r.2 := by
  induction fuel generalizing s ev tv tvIsAbsolute with
  | zero => exact trivial
  | succ fuel ih =>
    rw [eventAddNolock]
    split
    · exact Calm.refl s
    have hreserve := reserveForTimeout_calm s ev tv
    split
    · next heq =>
      rw [heq] at hreserve
      exact hreserve
    next s1 heq =>
    rw [heq] at hreserve
    refine Yields.bind ((eventAddInserted_calm s1 ev).mono
      fun r hr => hreserve.trans hr) fun r hr => ?_
    obtain ⟨res, s2⟩ := r
    cases tv with
    | none => exact hr
    | some tv =>
      dsimp only
      split
      · exact hr
      refine Yields.bind_pure ((eventAddTimeout_calm (fun s ctl head => ?_) s2 ev tv
        tvIsAbsolute).mono fun _ => hr.trans)
      exact Yields.bind_pure (ih s ctl.timeoutEvent _ true)

theorem commonTimeoutSchedule_calm (s : EventBase β) (ctl : CommonTimeoutList) (head : EvId) :
    Partly (commonTimeoutSchedule debugMode evsel evsigsel s ctl head) (Calm s) :=
  Yields.bind_pure (eventAddNolock_calm 1 s ctl.timeoutEvent _ true)

/-! ### Timeouts -/

theorem timeoutProcessLoop_urged (now : Timeval) (fuel : Nat) (s : EventBase β) :
    Partly (timeoutProcessLoop evsel evsigsel now fuel s) (Urged s) := by
  induction fuel generalizing s with
  | zero => exact trivial
  | succ fuel ih =>
    rw [timeoutProcessLoop]
    split
    · exact Urged.refl s
    next ev _ =>
    split
    · exact Urged.refl s
    · refine Urged.bindDel (eventDelNolock_calm s ev false) fun r => ?_
      exact Urged.bind (eventActiveNolock_urged r.2 ev EV_TIMEOUT 1) fun s2 => ih s2

theorem timeoutProcess_urged (s : EventBase β) :
    Partly (timeoutProcess evsel evsigsel s) (Urged s) := by
  unfold timeoutProcess
  split
  · exact Urged.refl s
  · exact timeoutProcessLoop_urged s.tvNow _ s

theorem commonTimeoutLoop_urged (now : Timeval) (i fuel : Nat) (s : EventBase β) :
    Partly (commonTimeoutLoop debugMode evsel evsigsel now i fuel s) (Urged s) := by
  induction fuel generalizing s with
  | zero => exact trivial
  | succ fuel ih =>
    rw [commonTimeoutLoop]
    split
    · exact trivial
    next ctl _ =>
    split
    · exact Urged.refl s
    next ev _ =>
    dsimp only
    split
    · exact (commonTimeoutSchedule_calm s ctl ev).mono fun _ => Calm.urged
    · refine Urged.bindDel (eventDelNolock_calm s ev false) fun r => ?_
      exact Urged.bind (eventActiveNolock_urged r.2 ev EV_TIMEOUT 1) fun s2 => ih s2

theorem commonTimeoutCallback_urged (s : EventBase β) (i : Nat) :
    Partly (commonTimeoutCallback debugMode evsel evsigsel s i) (Urged s) := by
  unfold commonTimeoutCallback
  split
  · exact trivial
  · exact commonTimeoutLoop_urged s.tvNow i _ s

/-! ### Finalizing, and callbacks that are not part of an event -/

theorem eventFinalizeNolock_urged (s : EventBase β) (ev : EvId) (free : Bool) :
    Partly (eventFinalizeNolock evsel evsigsel s ev free) (Urged s) := by
  refine Urged.bindDel (eventDelNolock_calm s ev false) fun r => ?_
  have hclosure : Urged r.2 (r.2.setEv ev
      { r.2.evs ev with evClosure := if free then .eventFinalizeFree else .eventFinalize }) :=
    Calm.urged (Calm.setEv rfl)
  refine Yields.bind ((eventActiveNolock_urged _ ev EV_FINALIZE 1).mono fun _ => hclosure.trans) ?_
  exact fun s2 h2 => h2.trans (Calm.urged (Calm.setFlags (by rfl) (by rfl)))

theorem eventDeferredCbSchedule_urged (h : (s.evs ev).evFlags.init = false) :
    Partly (eventDeferredCbSchedule s ev) fun r => Urged s r.2 := by
  have hmay : MayQueue s ev := fun hinit => by cases h.symm.trans hinit
  unfold eventDeferredCbSchedule
  split
  · exact (eventCallbackActivateLaterNolock_calm s ev).mono fun _ => Calm.urged
  refine Yields.bind (eventCallbackActivateNolock_urged hmay) fun r hr => ?_
  refine hr.trans ?_
  split
  · exact Calm.urged (Calm.of_view rfl rfl)
  · exact Urged.refl _

theorem eventCallbackFinalizeNolock_urged (h : (s.evs ev).evFlags.init = false) :
    Partly (eventCallbackFinalizeNolock evsel evsigsel s ev) (Urged s) := by
  unfold eventCallbackFinalizeNolock
  rw [h]
  refine Yields.bind (eventCallbackCancelNolock_calm s ev false) fun r hr => ?_
  have hclosure : Urged s (r.2.setEv ev { r.2.evs ev with evClosure := .cbFinalize }) :=
    Calm.urged (hr.trans (Calm.setEv rfl))
  have hmay : MayQueue (r.2.setEv ev { r.2.evs ev with evClosure := .cbFinalize }) ev := by
    intro hinit
    rw [hclosure.init, h] at hinit
    cases hinit
  refine Yields.bind ((eventCallbackActivateNolock_urged hmay).mono fun r hr => hclosure.trans hr)
    ?_
  exact fun r' hr' => hr'.trans (Calm.urged (Calm.setFlags (by rfl) (by rfl)))

/-! ### Closures -/

theorem signalRound_begun (s : EventBase β) (ev : EvId) (k : Nat) :
    Begun s (signalRound s ev k) := by
  have hset : Begun s (s.setEv ev { s.evs ev with
      evNcalls := k, evPncalls := if k = 0 then false else (s.evs ev).evPncalls }) :=
    Calm.toBegun (Calm.setEv rfl)
  exact hset.trans (Begun.of_view rfl)

theorem eventSignalClosure_begun (s : EventBase β) (ev : EvId) :
    Begun s (eventSignalClosure s ev) := by
  unfold eventSignalClosure
  split
  · exact (Calm.refl s).toBegun
  have hset : Begun s (s.setEv ev { s.evs ev with evPncalls := true }) :=
    Calm.toBegun (Calm.setEv rfl)
  exact hset.trans (signalRound_begun _ ev _)

theorem continueClosure_begun (s : EventBase β) (brk : Bool) : Begun s (continueClosure s brk) := by
  unfold continueClosure
  split
  · exact (Calm.refl s).toBegun
  next ev k _ =>
  split
  · split
    · exact Begun.of_view rfl
    have hset : Begun s (s.setEv ev { s.evs ev with evPncalls := false }) :=
      Calm.toBegun (Calm.setEv rfl)
    exact hset.trans (Begun.of_view rfl)
  · split
    · exact Begun.of_view rfl
    · exact signalRound_begun s ev _

theorem eventPersistClosure_begun (s : EventBase β) (ev : EvId) :
    Partly (eventPersistClosure debugMode evsel evsigsel s ev) (Begun s) := by
  have hcall : ∀ s1, Calm s s1 → Begun s (s1.call ev (s1.evs ev).evRes) := fun s1 h1 =>
    h1.toBegun.trans (Begun.of_view rfl)
  have hadd :
      Partly (eventAddNolock debugMode evsel evsigsel 2 s ev (some (persistRunAt s ev)) true)
      fun r => Calm s r.2 := eventAddNolock_calm 2 s ev _ true
  unfold eventPersistClosure
  dsimp only
  generalize isSameCommonTimeout (s.evs ev).evTimeout (s.evs ev).evIoTimeout = same
  split
  · cases same with
    | false => exact trivial
    | true => exact hadd.bind fun p hp => hcall p.2 hp
  · exact hcall s (Calm.refl s)

/-- A closure that calls a callback of the program enters no event in a queue. Only the callback of
a common timeout, which is part of the library, activates events. -/
theorem runClosure_begun (s : EventBase β) (ev : EvId) :
    Partly (runClosure debugMode evsel evsigsel s ev) fun s' =>
      Begun s s' ∨ Urged s s' := by
  have hcall : ∀ res, Begun s (s.call ev res) := fun res => Begun.of_view rfl
  unfold runClosure
  split
  · exact .inl (eventSignalClosure_begun s ev)
  · exact (eventPersistClosure_begun s ev).mono fun _ => Or.inl
  · split
    · exact (commonTimeoutCallback_urged s _).mono fun _ => Or.inr
    · exact .inl (hcall _)
  · exact .inl (hcall 0)
  all_goals
    split
    · exact trivial
    · exact .inl (hcall 0)

/-- One round of `event_process_active_single_queue`. -/
theorem processActive_begun (s : EventBase β) (pri : Nat) :
    Partly (processActive debugMode evsel evsigsel s pri) fun s' =>
      Begun s s' ∨ Urged s s' := by
  unfold processActive
  split
  · exact .inl (Calm.refl s).toBegun
  next ev _ _ =>
  have hrun : ∀ s1, Calm s s1 → Partly
      (runClosure debugMode evsel evsigsel s1 ev) fun s' => Begun s s' ∨ Urged s s' :=
    fun s1 h1 => (runClosure_begun s1 ev).mono fun s' =>
      Or.imp h1.toBegun.trans h1.urged.trans
  dsimp only
  split
  · exact Yields.bind (eventDelNolock_calm s ev false) fun r hr => hrun r.2 hr
  · exact Yields.bind (eventQueueRemoveActive_calm s ev) hrun

end

end Libevent
