import Libevent.Proofs.Event.Assign

/-!
# `Libevent.Proofs.Event.Callbacks`: activating, finalizing and running callbacks

What the backends report, the queue of callbacks for later, `event_finalize`, the deferred
callbacks keep `Sound`. An activation
leaves the other active events as they are, and only adds result bits to an event that is
active already (`Accumulated`).
-/

namespace Libevent

open Lib

variable {β : Type} {s s' : EventBase β} {ev : EvId} {debugMode : Bool} {evsel evsigsel : EventOp β}
  {E : Fault → Prop} {cl : Closure}

/-! ### Activations -/

/-- Active events only gain result bits. -/
structure Accumulated (s s' : EventBase β) : Prop where
  active : ∀ e, (s.evs e).evFlags.active = true →
    ∃ r, s'.evs e = { s.evs e with evRes := (s.evs e).evRes ||| r }
  frame : Frame s s'

theorem Accumulated.refl (s : EventBase β) : Accumulated s s :=
  ⟨fun e _ => ⟨0, by rw [Nat.or_zero]⟩, Frame.refl s⟩

theorem Accumulated.trans {s'' : EventBase β} (h : Accumulated s s') (h' : Accumulated s' s'') :
    Accumulated s s'' := by
  refine ⟨fun e he => ?_, h.frame.trans h'.frame⟩
  obtain ⟨r, hr⟩ := h.active e he
  obtain ⟨r', hr'⟩ := h'.active e (by rw [hr]; exact he)
  exact ⟨r ||| r', by rw [hr', hr, Nat.or_assoc]⟩

/-- Only events that are not active change. -/
theorem Accumulated.of_evs (hevs : ∀ e, (s.evs e).evFlags.active = true → s'.evs e = s.evs e)
    (hframe : Frame s s') : Accumulated s s' :=
  ⟨fun e he => ⟨0, by rw [hevs e he, Nat.or_zero]⟩, hframe⟩

/-- One event changes, which is not active. -/
theorem Accumulated.of_idle (hact : (s.evs ev).evFlags.active = false) {e' : Event}
    (hevs : s'.evs = upd s.evs ev e') (hframe : Frame s s') : Accumulated s s' := by
  refine .of_evs (fun e he => ?_) hframe
  have hne : e ≠ ev := fun heq => by rw [heq, hact] at he; cases he
  rw [hevs, upd_ne _ _ hne]

theorem accumulated_activated (s : EventBase β) (ev : EvId) (res : Nat) (ncalls : Int) :
    Accumulated s (s.activated ev res ncalls) := by
  refine ⟨fun e he => ?_, (activated_rest s ev res ncalls).2.2.2⟩
  rw [activated_evs]
  by_cases hx : e = ev
  · subst hx
    rw [upd_self, Event.activated]
    split
    · exact ⟨0, by rw [Nat.or_zero]⟩
    · exact ⟨res, rfl⟩
  · rw [upd_ne _ _ hx]
    exact ⟨0, by rw [Nat.or_zero]⟩

theorem eventActiveNolock_yields (h : Sound none s) (hkind : KindOk (s.evs ev)) (res : Nat)
    (ncalls : Int) :
    Yields E (eventActiveNolock s ev res ncalls) fun s' => Sound none s' ∧ Accumulated s s' ∧
      ∀ x, KindOk (s.evs x) → KindOk (s'.evs x) := by
  refine Yields.of_eq (eventActiveNolock_spec h.inv hkind res ncalls).1
    ⟨h.activated hkind res ncalls, accumulated_activated s ev res ncalls, fun x hx => ?_⟩
  rw [activated_evs]
  by_cases hxe : x = ev
  · subst hxe
    have hnoted := (s.evs x).noted_alike res ncalls
    rw [upd_self]
    unfold Event.activated
    split
    · exact hx
    split
    · exact hx
    dsimp only
    rw [hnoted.events, hnoted.fd]
    exact hx
  · rw [upd_ne _ _ hxe]; exact hx

theorem ioActiveList_yields (events : Nat) (l : List EvId) :
    ∀ s : EventBase β, Sound none s → (∀ ev ∈ l, KindOk (s.evs ev)) →
      Yields E (ioActiveList events l s) fun s' => Sound none s' ∧ Accumulated s s' := by
  induction l with
  | nil => exact fun s h _ => ⟨h, Accumulated.refl s⟩
  | cons ev l ih =>
    intro s h hkind
    have hstep : Yields E (if hasAny (s.evs ev).evEvents events = true then
        eventActiveNolock s ev ((s.evs ev).evEvents &&& events) 1 else pure s) fun s' =>
        Sound none s' ∧ Accumulated s s' ∧ ∀ x, KindOk (s.evs x) → KindOk (s'.evs x) := by
      split
      · exact eventActiveNolock_yields h (hkind ev (by simp)) _ _
      · exact ⟨h, Accumulated.refl s, fun _ hx => hx⟩
    refine Yields.ite_bind hstep fun s1 ⟨h1, ha1, hk1⟩ => ?_
    exact (ih s1 h1 fun x hx => hk1 x (hkind x (by simp [hx]))).mono fun s2 h2 =>
      ⟨h2.1, ha1.trans h2.2⟩

theorem signalActiveList_yields (ncalls : Int) (l : List EvId) :
    ∀ s : EventBase β, Sound none s → (∀ ev ∈ l, KindOk (s.evs ev)) →
      Yields E (signalActiveList ncalls l s) fun s' => Sound none s' ∧ Accumulated s s' := by
  induction l with
  | nil => exact fun s h _ => ⟨h, Accumulated.refl s⟩
  | cons ev l ih =>
    intro s h hkind
    refine Yields.bind (eventActiveNolock_yields h (hkind ev (by simp)) EV_SIGNAL ncalls)
      fun s1 ⟨h1, ha1, hk1⟩ => ?_
    exact (ih s1 h1 fun x hx => hk1 x (hkind x (by simp [hx]))).mono fun s2 h2 =>
      ⟨h2.1, ha1.trans h2.2⟩

/-- An event of the map is of one kind. -/
theorem Inv.kindOk_of_inserted (h : Inv s) (hins : (s.evs ev).evFlags.inserted = true) :
    KindOk (s.evs ev) :=
  (h.ev ev).kind (by simp [Event.queued, hins])

theorem evmapIoActive_yields (h : Sound none s) (fd : Int) (events : Nat) :
    Yields E (evmapIoActive s fd events) fun s' => Sound none s' ∧ Accumulated s s' := by
  unfold evmapIoActive
  split
  · exact ⟨h, Accumulated.refl s⟩
  cases hctx : s.evmap.entries fd.toNat with
  | none => exact ⟨h, Accumulated.refl s⟩
  | some ctx =>
    refine ioActiveList_yields events _ s h fun ev hev => ?_
    have hio : s.evmap.io fd.toNat = ctx := by simp [Evmap.io, hctx]
    rw [← hio] at hev
    exact h.inv.kindOk_of_inserted ((h.inv.map.io_mem _ ev).mp hev).1

theorem evmapSignalActive_yields (h : Sound none s) (sig ncalls : Int) :
    Yields E (evmapSignalActive s sig ncalls) fun s' => Sound none s' ∧ Accumulated s s' := by
  unfold evmapSignalActive
  split
  · exact ⟨h, Accumulated.refl s⟩
  cases hl : s.evmap.sigEntries sig.toNat with
  | none => exact ⟨h, Accumulated.refl s⟩
  | some l =>
    refine signalActiveList_yields ncalls _ s h fun ev hev => ?_
    have hsig : s.evmap.sig sig.toNat = l := by simp [Evmap.sig, hl]
    rw [← hsig] at hev
    exact h.inv.kindOk_of_inserted ((h.inv.map.sig_mem _ ev).mp hev).1

/-! ### Callbacks for later -/

section
variable (h : Sound none s) (hkind : KindOk (s.evs ev)) (hint : s.External ev)
include h hkind hint

/-- `event_callback_activate_later_nolock_`. -/
theorem eventCallbackActivateLaterNolock_yields :
    Yields E (eventCallbackActivateLaterNolock s ev) fun p => Sound none p.2 ∧
      Accumulated s p.2 := by
  unfold eventCallbackActivateLaterNolock
  split
  · exact ⟨h, Accumulated.refl s⟩
  next hcond =>
  rw [Bool.or_eq_true, not_or, Bool.not_eq_true, Bool.not_eq_true] at hcond
  obtain ⟨hrun, hinv⟩ := eventQueueInsertActiveLater_spec h.inv hcond.1 hcond.2 hint hkind
  rw [hrun]
  exact ⟨h.setFlags hinv rfl (s.pushLater_evs ev) ⟨rfl, fun _ => id, fun _ => id⟩,
    .of_idle hcond.1 (s.pushLater_evs ev) ⟨rfl, rfl, rfl⟩⟩

/-- `event_active_later_nolock_`. -/
theorem eventActiveLaterNolock_yields (res : Nat) :
    Yields E (eventActiveLaterNolock s ev res) fun s' => Sound none s' ∧ Accumulated s s' := by
  unfold eventActiveLaterNolock
  split
  · refine ⟨h.alike ⟨rfl, rfl, rfl, rfl, rfl, rfl⟩ rfl, fun e _ => ?_, rfl, rfl, rfl⟩
    by_cases hx : e = ev
    · subst hx
      exact ⟨res, upd_self _ _ _⟩
    · exact ⟨0, by rw [EventBase.setEv_evs, upd_ne _ _ hx, Nat.or_zero]⟩
  next hcond =>
  rw [Bool.or_eq_true, not_or, Bool.not_eq_true] at hcond
  set s1 := s.setEv ev { s.evs ev with evRes := res }
  have hself : s1.evs ev = { s.evs ev with evRes := res } := upd_self _ _ _
  have h1 : Sound none s1 := h.alike ⟨rfl, rfl, rfl, rfl, rfl, rfl⟩ rfl
  have ha1 : Accumulated s s1 := .of_idle hcond.1 rfl ⟨rfl, rfl, rfl⟩
  refine Yields.bind (eventCallbackActivateLaterNolock_yields h1 (by rw [hself]; exact hkind)
    (by rw [EventBase.External, hself]; exact hint)) fun p hp => ⟨hp.1, ha1.trans hp.2⟩

end

/-- The base after one round of `event_queue_make_later_events_active`. -/
def EventBase.promote (s : EventBase β) (ev : EvId) (rest : List EvId) : EventBase β :=
  { (s.setFlags ev { (s.evs ev).evFlags with activeLater := false, active := true }).setQueue
      (s.evs ev).evPri (s.activequeues (s.evs ev).evPri ++ [ev]) with
    activeLaterQueue := rest
    nDeferredsQueued := s.nDeferredsQueued + if (s.evs ev).evClosure = .cbSelf then 1 else 0 }

theorem Sound.promote {rest : List EvId} (h : Sound none s)
    (hlater : s.activeLaterQueue = ev :: rest) :
    Sound none (s.promote ev rest) ∧ Accumulated s (s.promote ev rest) := by
  have hlat : (s.evs ev).evFlags.activeLater = true :=
    (h.inv.act.later_mem ev).mp (by rw [hlater]; simp)
  have hact := h.inv.act.not_active hlat
  have hevs : (s.promote ev rest).evs = upd s.evs ev { s.evs ev with
      evFlags := { (s.evs ev).evFlags with activeLater := false, active := true } } := rfl
  -- the round is a removal from one queue and an insertion in the other
  have hdrop := (eventQueueRemoveActiveLater_spec h.inv hlat).2
  have hself : (s.dropLater ev).evs ev = { s.evs ev with
      evFlags := { (s.evs ev).evFlags with activeLater := false } } := upd_self _ _ _
  have hkind : KindOk (s.evs ev) := (h.inv.ev ev).kind (by simp [Event.queued, hlat])
  have hpush := (eventQueueInsertActive_spec hdrop (by rw [hself]; exact hact) (by rw [hself])
    (by rw [hself]; exact hkind)).2
  have hinv : Inv (s.promote ev rest) := by
    refine hpush.congr ?_ h.inv.now
    simp only [EventBase.view, Prod.mk.injEq]
    refine ⟨?_, rfl, rfl, rfl, ?_, ?_, ?_, rfl, ?_⟩
    · rw [hevs, EventBase.pushActive_evs, hself, EventBase.dropLater_evs, upd_upd]
    · funext i
      show (if i = (s.evs ev).evPri then _ else _) = (if i = ((s.dropLater ev).evs ev).evPri then _
        else _)
      rw [hself]
      rfl
    · show rest = s.activeLaterQueue.erase ev
      rw [hlater, List.erase_cons_head]
    · show s.eventCountActive = s.eventCountActive - 1 + 1
      ring
    · show s.eventCount = s.eventCount - s.counted ev + (s.dropLater ev).counted ev
      unfold EventBase.counted
      rw [hself]
      ring
  exact ⟨h.setFlags hinv rfl hevs ⟨rfl, fun _ _ => rfl, fun _ => id⟩,
    .of_idle hact hevs ⟨rfl, rfl, rfl⟩⟩

theorem makeLaterEventsActive_yields (l : List EvId) :
    ∀ s : EventBase β, s.activeLaterQueue = l → Sound none s →
      Yields E (makeLaterEventsActive l s) fun s' => Sound none s' ∧ Accumulated s s' := by
  induction l with
  | nil =>
    intro s hl h
    exact ⟨h.congr (by simp [EventBase.view, hl]) h.inv.now,
      .of_evs (fun _ _ => rfl) ⟨rfl, rfl, rfl⟩⟩
  | cons ev l ih =>
    intro s hl h
    unfold makeLaterEventsActive
    rw [if_neg (not_not.mpr (h.inv.act.pri ev))]
    obtain ⟨h1, ha1⟩ := h.promote hl
    exact (ih (s.promote ev l) rfl h1).mono fun s2 h2 => ⟨h2.1, ha1.trans h2.2⟩

/-! ### Callbacks that are not part of an event -/

/-- `event_callback_activate_nolock_`. -/
theorem eventCallbackActivateNolock_yields (h : Sound none s) (hkind : KindOk (s.evs ev)) :
    Yields E (eventCallbackActivateNolock s ev) fun p => Sound none p.2 ∧ Accumulated s p.2 := by
  cases hfin : (s.evs ev).evFlags.finalizing with
  | true =>
    refine Yields.of_eq ?_ (show Sound none (0, s).2 ∧ _ from ⟨h, Accumulated.refl s⟩)
    rw [eventCallbackActivateNolock, if_pos hfin]
  | false =>
    cases hact : (s.evs ev).evFlags.active with
    | true =>
      have hboth : ¬ ((s.evs ev).evFlags.active && (s.evs ev).evFlags.activeLater) = true := by
        rw [Bool.and_eq_true]
        exact h.inv.act.not_both ev
      refine Yields.of_eq ?_ (show Sound none (0, s).2 ∧ _ from ⟨h, Accumulated.refl s⟩)
      rw [eventCallbackActivateNolock, if_neg (by simp [hfin]), if_neg hboth, if_pos hact]
    | false =>
      cases hlat : (s.evs ev).evFlags.activeLater with
      | true =>
        obtain ⟨hrun, hinv⟩ := eventCallbackActivateNolock_later h.inv hfin hlat
        have hevs : ((s.dropLater ev).pushActive ev).evs = upd s.evs ev { s.evs ev with
            evFlags := { (s.evs ev).evFlags with activeLater := false, active := true } } := by
          rw [EventBase.pushActive_evs, EventBase.dropLater_evs, upd_self, upd_upd]
        exact Yields.of_eq hrun ⟨h.setFlags hinv rfl hevs ⟨rfl, fun _ _ => rfl, fun _ => id⟩,
          .of_idle hact hevs ⟨rfl, rfl, rfl⟩⟩
      | false =>
        have hinv := (eventQueueInsertActive_spec h.inv hact hlat hkind).2
        exact Yields.of_eq (eventCallbackActivateNolock_eq hfin hact hlat (h.inv.act.pri ev))
          ⟨h.setFlags hinv rfl (s.pushActive_evs ev) ⟨rfl, fun _ _ => rfl, fun _ => id⟩,
            .of_idle hact (s.pushActive_evs ev) ⟨rfl, rfl, rfl⟩⟩

/-- A callback that is not part of an event has no kind. -/
theorem EventOk.kindOk_of_plain {e : Event} (h : EventOk e) (hi : e.evFlags.init = false) :
    KindOk e := fun hs => by
  rw [(h.plain hi).1] at hs
  cases hs

/-- `event_deferred_cb_schedule_`. -/
theorem eventDeferredCbSchedule_yields (h : Sound none s)
    (hint : s.External ev) (hinit : (s.evs ev).evFlags.init = false) :
    Yields E (eventDeferredCbSchedule s ev) fun p => Sound none p.2 ∧ Accumulated s p.2 := by
  have hkind := (h.inv.ev ev).kindOk_of_plain hinit
  unfold eventDeferredCbSchedule
  split
  · exact eventCallbackActivateLaterNolock_yields h hkind hint
  refine Yields.bind (eventCallbackActivateNolock_yields h hkind) ?_
  rintro ⟨r, s1⟩ ⟨h1, ha1⟩
  show Sound none (if r ≠ 0 then _ else s1) ∧ Accumulated s (if r ≠ 0 then _ else s1)
  split
  · exact ⟨h1.congr rfl h1.inv.now, ha1.active, { ha1.frame with }⟩
  · exact ⟨h1, ha1⟩

/-- What a deletion of `ev` does: it is off all structures, and nothing else changes. -/
structure Cancelled (s : EventBase β) (ev : EvId) (s' : EventBase β) : Prop where
  unqueued : Unqueued s' ev
  evs : ∃ fl : EvFlags, s'.evs = upd s.evs ev { s.evs ev with evFlags := fl } ∧
    fl.init = (s.evs ev).evFlags.init ∧ fl.internal = (s.evs ev).evFlags.internal ∧
    fl.finalizing = (s.evs ev).evFlags.finalizing
  frame : Frame s s'

theorem Deleted.cancelled (h : Deleted s ev (s.evs ev).evFlags.unqueued s') :
    Cancelled s ev s' := by
  refine ⟨?_, ⟨_, h.evs, rfl, rfl, rfl⟩, h.frame⟩
  unfold Unqueued
  rw [h.evs, upd_self]
  exact ⟨rfl, rfl, rfl, rfl⟩

/-- `event_callback_cancel_nolock_` and `event_del` of a callback that is not being
finalized. -/
theorem eventCallbackCancelNolock_yields (hsel : evsel.NoFault) (hsig : evsigsel.NoFault)
    (h : Sound none s) (hint : s.External ev)
    (hfin : (s.evs ev).evFlags.finalizing = false) :
    Yields StaleWrite (eventCallbackCancelNolock evsel evsigsel s ev false) fun p =>
      Sound none p.2 ∧ Cancelled s ev p.2 := by
  unfold eventCallbackCancelNolock
  rw [if_neg (by simp [hfin])]
  split
  · exact (eventDelNolock_sound hsel hsig h hint hfin).mono fun p hp => ⟨hp.1, hp.2.cancelled⟩
  next hinit =>
  have hinit := Bool.eq_false_iff.mpr hinit
  have hboth : ¬ ((s.evs ev).evFlags.active && (s.evs ev).evFlags.activeLater) = true := by
    rw [Bool.and_eq_true]
    exact h.inv.act.not_both ev
  rw [if_neg hboth]
  obtain ⟨hev, htime, -⟩ := (h.inv.ev ev).plain hinit
  have hins : (s.evs ev).evFlags.inserted = false := by
    cases hi : (s.evs ev).evFlags.inserted with
    | false => rfl
    | true =>
      have := (h.inv.ev ev).inserted hi
      rw [hev] at this
      rcases this with hc | hc <;> cases hc
  -- the callback leaves the active queues, and it is on no other structure
  have hoff : ∀ s1, ActiveOff s ev s1 → Sound none s1 ∧ Cancelled s ev s1 := by
    intro s1 h1
    refine ⟨h.setFlags h1.inv h1.common h1.evs ⟨rfl, fun hi => ?_, fun _ => id⟩,
      ?_, ⟨_, h1.evs, rfl, rfl, rfl⟩, h1.frame⟩
    · cases hint.symm.trans hi
    unfold Unqueued
    rw [h1.evs, upd_self]
    exact ⟨htime, hins, rfl, rfl⟩
  have hrun := (removeActive_yields (E := StaleWrite) h.inv ev).mono hoff
  split
  · next ha =>
    rw [if_pos ha] at hrun
    exact hrun.bind_pure
  next ha =>
  rw [if_neg ha] at hrun
  split
  · next hl =>
    rw [if_pos hl] at hrun
    exact hrun.bind_pure
  · next hl =>
    rw [if_neg hl] at hrun
    exact hrun

/-! ### Finalization -/

/-- An event on no structure gets a closure of `event_finalize`, becomes active, and is being
finalized from then on. -/
theorem Sound.finalized (h : Sound none s) (hu : Unqueued s ev)
    (hint : s.External ev) (hkind : KindOk (s.evs ev))
    (hcl : cl.isFinal = true) (res ncalls : Nat) (pncalls b : Bool) :
    let s1 := { s.setEv ev { s.evs ev with
      evClosure := cl, evRes := res, evNcalls := ncalls, evPncalls := pncalls } with
        eventContinue := b }.pushActive ev
    Sound none (s1.setFlags ev { (s1.evs ev).evFlags with finalizing := true }) := by
  have ⟨ht, hi, hact, hl⟩ := hu
  have hnotp : cl ≠ .eventPersist := fun heq => by rw [heq] at hcl; cases hcl
  set e : Event := { s.evs ev with
    evClosure := cl, evRes := res, evNcalls := ncalls, evPncalls := pncalls } with he
  set s1 : EventBase β := { s.setEv ev e with eventContinue := b }
  -- the event before and after the activation, with the flag that comes last in the code
  set e0 : Event := { e with evFlags := { e.evFlags with finalizing := true } } with he0
  set e' : Event := { e0 with evFlags := { e0.evFlags with active := true } } with he'
  have hself : s1.evs ev = e := upd_self _ _ _
  have hevs : ((s1.pushActive ev).setFlags ev
      { ((s1.pushActive ev).evs ev).evFlags with finalizing := true }).evs = upd s.evs ev e' := by
    rw [EventBase.setFlags, EventBase.setEv_evs, EventBase.pushActive_evs, hself, upd_self, upd_upd]
    show upd (upd s.evs ev e) ev e' = _
    rw [upd_upd]
  have hok : EventOk e' := by
    refine ⟨fun _ => ⟨ht, hi⟩, fun _ => hkind, fun hi' => ?_, fun _ => .inl rfl,
      fun hinit => ⟨((h.inv.ev ev).plain hinit).1, ht, hnotp⟩, fun hint' => ?_⟩
    · cases hi.symm.trans hi'
    · cases hint.symm.trans hint'
  have hq : ActiveInv (upd s.evs ev e') s.nactivequeues (fun i => if i = (s1.evs ev).evPri then
      s.activequeues (s1.evs ev).evPri ++ [ev] else s.activequeues i) s.activeLaterQueue
      (s.eventCountActive + 1) := by
    have hidle : ActiveInv (upd s.evs ev e0) _ _ _ _ :=
      h.inv.act.setIdle hact hact rfl (h.inv.act.pri ev)
    have hact0 : (upd s.evs ev e0 ev).evFlags.active = false := by rw [upd_self]; exact hact
    have hins := hidle.insert hact0 (by rw [upd_self]; exact hl)
    rw [updFlags, upd_self, upd_upd] at hins
    rw [hself]
    exact hins
  have hcount : s.eventCount + s1.counted ev = s.eventCount + weight e' - weight (s.evs ev) := by
    unfold EventBase.counted
    rw [hself]
    simp [weight, he', he0, he, ht, hi, hact, hl]
  refine ⟨⟨?_, ?_, ?_, ?_, ?_, ?_, h.inv.now⟩, ?_, fun i hi => ?_⟩
  · rw [hevs]; exact h.inv.time.setIdle ht ht (h.inv.time.tv_ok ev)
  · rw [hevs]; exact hq
  · rw [hevs]; exact h.inv.map.replace hu hi
  · rw [hevs]; exact tally_upd h.inv.count hcount
  · rw [hevs]; exact forall_upd EventOk h.inv.ev hok
  · rw [hevs]; exact h.inv.timers.congr (upd_congr (fun e => e.evFlags.internal) (by rfl))
  · rw [hevs]; exact forall_upd (PersistOk _) h.persist fun hp => absurd hp hnotp
  · exact (h.deadline i hi).of_idle h.inv hint ht rfl fun x hx => by rw [hevs, upd_ne _ _ hx]

/-- `flags |= EVLIST_FINALIZING` for an event that has the flag. -/
theorem EventBase.setFlags_finalizing (hfin : (s.evs ev).evFlags.finalizing = true) :
    s.setFlags ev { (s.evs ev).evFlags with finalizing := true } = s := by
  have hfl : ({ (s.evs ev).evFlags with finalizing := true } : EvFlags) = (s.evs ev).evFlags :=
    EvFlags.ext rfl rfl rfl rfl rfl hfin.symm rfl
  rw [hfl]
  exact s.setEv_self ev

/-- An event that is being finalized gets another closure of `event_finalize`. -/
theorem Sound.refinalized (h : Sound none s) (hint : s.External ev)
    (hfin : (s.evs ev).evFlags.finalizing = true) (hcl : cl.isFinal = true) :
    let s1 := s.setEv ev { s.evs ev with evClosure := cl }
    (s1.evs ev).evFlags.finalizing = true ∧
      s1.setFlags ev { (s1.evs ev).evFlags with finalizing := true } = s1 ∧ Sound none s1 := by
  have hok := h.inv.ev ev
  have hnotp : cl ≠ .eventPersist := fun heq => by rw [heq] at hcl; cases hcl
  have hinv : Inv (s.setEv ev { s.evs ev with evClosure := cl }) := by
    refine h.inv.quiet ⟨rfl, rfl, rfl, rfl, rfl, rfl, rfl, rfl, rfl⟩ ⟨hok.finalizing, hok.kind,
      hok.inserted, fun _ => .inl hfin, fun hi => ?_, fun hi => ?_⟩
    · obtain ⟨h1, h2, -⟩ := hok.plain hi
      exact ⟨h1, h2, hnotp⟩
    · cases hint.symm.trans hi
  have hfin1 :
      ((s.setEv ev { s.evs ev with evClosure := cl }).evs ev).evFlags.finalizing = true := by
    rw [EventBase.setEv_evs, upd_self]; exact hfin
  exact ⟨hfin1, EventBase.setFlags_finalizing hfin1,
    h.change hinv rfl rfl (fun hp => absurd hp hnotp)
    ⟨rfl, fun _ => id, fun _ => id⟩⟩

/-- What is left to do once the event is off all structures. -/
theorem Cancelled.finalize {s1 : EventBase β} (hc : Cancelled s ev s1) (h : Sound none s1)
    (hint : s.External ev) (hkind : KindOk (s.evs ev))
    (hfin : (s.evs ev).evFlags.finalizing = false) (hcl : cl.isFinal = true) (res ncalls : Nat)
    (pncalls b : Bool) :
    let s2 := { s1.setEv ev { s1.evs ev with
      evClosure := cl, evRes := res, evNcalls := ncalls, evPncalls := pncalls } with
        eventContinue := b }
    let s' := (s2.pushActive ev).setFlags ev
      { ((s2.pushActive ev).evs ev).evFlags with finalizing := true }
    eventCallbackActivateNolock s2 ev = .ok (1, s2.pushActive ev) ∧ Sound none s' ∧
      (∀ x, x ≠ ev → s'.evs x = s.evs x) ∧ Frame s s' := by
  obtain ⟨fl, hevs, -, hint1, hfin1⟩ := hc.evs
  have hself : s1.evs ev = { s.evs ev with evFlags := fl } := by rw [hevs, upd_self]
  have hu := hc.unqueued
  refine ⟨?_, h.finalized hu (by rw [EventBase.External, hself, hint1]; exact hint)
    (by rw [hself]; exact hkind) hcl
    res ncalls pncalls b, fun x hx => ?_, { hc.frame with }⟩
  · apply eventCallbackActivateNolock_eq
    · rw [EventBase.setEv_evs, upd_self, hself]; exact hfin1.trans hfin
    · rw [EventBase.setEv_evs, upd_self]; exact hu.2.2.1
    · rw [EventBase.setEv_evs, upd_self]; exact hu.2.2.2
    · rw [EventBase.setEv_evs, upd_self]; exact h.inv.act.pri ev
  · show upd (upd (upd s1.evs ev _) ev _) ev _ x = _
    rw [upd_upd, upd_upd, upd_ne _ _ hx, hevs, upd_ne _ _ hx]

section
variable (hsel : evsel.NoFault) (hsig : evsigsel.NoFault) (h : Sound none s) (hint : s.External ev)
include hsel hsig h hint

/-- `event_finalize_nolock_`. -/
theorem eventFinalizeNolock_yields (hkind : KindOk (s.evs ev)) (free : Bool) :
    Yields StaleWrite (eventFinalizeNolock evsel evsigsel s ev free) fun s' =>
      Sound none s' ∧ (∀ x, x ≠ ev → s'.evs x = s.evs x) ∧ Frame s s' := by
  have hcl : (if free then Closure.eventFinalizeFree else Closure.eventFinalize).isFinal =
      true := by
    cases free <;> rfl
  generalize hcl' : (if free then Closure.eventFinalizeFree else Closure.eventFinalize) = cl at hcl
  unfold eventFinalizeNolock
  rw [hcl']
  cases hfin : (s.evs ev).evFlags.finalizing with
  | true =>
    rw [eventDelNolock_finalizing hfin]
    obtain ⟨hfin1, hsame, h1⟩ := h.refinalized hint hfin hcl
    set s1 := s.setEv ev { s.evs ev with evClosure := cl }
    show Yields StaleWrite (eventActiveNolock s1 ev EV_FINALIZE 1 >>= fun s => pure
      (s.setFlags ev { (s.evs ev).evFlags with finalizing := true })) _
    rw [eventActiveNolock, if_pos hfin1]
    show Sound none (s1.setFlags ev { (s1.evs ev).evFlags with finalizing := true }) ∧ _
    rw [hsame]
    exact ⟨h1, fun x hx => upd_ne _ _ hx, rfl, rfl, rfl⟩
  | false =>
    refine (eventDelNolock_sound hsel hsig h hint hfin).bind ?_
    rintro ⟨r, s1⟩ ⟨h1, hd⟩
    set s2 := s1.setEv ev { s1.evs ev with evClosure := cl } with hs2
    have hself2 : s2.evs ev = { s1.evs ev with evClosure := cl } := upd_self _ _ _
    have hflags2 : (s2.evs ev).evFlags = (s.evs ev).evFlags.unqueued := by
      rw [hself2, hd.evs, upd_self]
    obtain ⟨res, ncalls, pncalls, b, hnote⟩ := noteActive_eq s2 ev EV_FINALIZE 1
    rw [hself2, EventBase.setEv_setEv] at hnote
    obtain ⟨hrun, hspec⟩ := hd.cancelled.finalize h1 hint hkind hfin hcl res ncalls pncalls b
    show Yields StaleWrite (eventActiveNolock s2 ev EV_FINALIZE 1 >>= fun s => pure
      (s.setFlags ev { (s.evs ev).evFlags with finalizing := true })) _
    unfold eventActiveNolock
    rw [hflags2, if_neg (by simp [EvFlags.unqueued, hfin]), hnote, hrun]
    exact hspec

/-- `event_callback_finalize_nolock_`. -/
theorem eventCallbackFinalizeNolock_yields
    (hkind : (s.evs ev).evFlags.init = true → KindOk (s.evs ev)) :
    Yields StaleWrite (eventCallbackFinalizeNolock evsel evsigsel s ev) fun s' =>
      Sound none s' ∧ (∀ x, x ≠ ev → s'.evs x = s.evs x) ∧ Frame s s' := by
  have hkind' : KindOk (s.evs ev) := by
    cases hi : (s.evs ev).evFlags.init with
    | true => exact hkind hi
    | false => exact (h.inv.ev ev).kindOk_of_plain hi
  have hcl : Closure.cbFinalize.isFinal = true := rfl
  cases hfin : (s.evs ev).evFlags.finalizing with
  | true =>
    have hkept : Yields StaleWrite (if (s.evs ev).evFlags.init = true then
        eventDelNolock evsel evsigsel s ev false
        else eventCallbackCancelNolock evsel evsigsel s ev false) fun p => p = (0, s) := by
      split
      · rw [eventDelNolock_finalizing hfin]; exact rfl
      · rw [eventCallbackCancelNolock, if_pos (by simp [hfin])]; exact rfl
    refine Yields.ite_bind hkept ?_
    rintro _ rfl
    obtain ⟨hfin1, hsame, h1⟩ := h.refinalized hint hfin hcl
    dsimp only
    rw [eventCallbackActivateNolock, if_pos hfin1]
    set s1 := s.setEv ev { s.evs ev with evClosure := .cbFinalize }
    show Sound none (s1.setFlags ev { (s1.evs ev).evFlags with finalizing := true }) ∧ _
    rw [hsame]
    exact ⟨h1, fun x hx => upd_ne _ _ hx, rfl, rfl, rfl⟩
  | false =>
    have hdel : Yields StaleWrite (if (s.evs ev).evFlags.init = true then
        eventDelNolock evsel evsigsel s ev false
        else eventCallbackCancelNolock evsel evsigsel s ev false) fun p =>
          Sound none p.2 ∧ Cancelled s ev p.2 := by
      split
      · exact (eventDelNolock_sound hsel hsig h hint hfin).mono fun p hp =>
          ⟨hp.1, hp.2.cancelled⟩
      · exact eventCallbackCancelNolock_yields hsel hsig h hint hfin
    refine Yields.ite_bind hdel ?_
    rintro ⟨r, s1⟩ ⟨h1, hc⟩
    obtain ⟨hrun, hspec⟩ := hc.finalize h1 hint hkind' hfin hcl
      (s1.evs ev).evRes (s1.evs ev).evNcalls (s1.evs ev).evPncalls s1.eventContinue
    exact Yields.bind (.of_eq hrun hspec) fun _ hp => hp

end

end Libevent
