import Libevent.Proofs.Event.Deadlines
import Libevent.Proofs.Event.Expiry

/-!
# `Libevent.Proofs.Event.MainLoop`: the main loop waits for what is pending

`loopWait_until_deadline`: the wait of `event_base_loop` ends when the first event is due, common
timeouts included. `loop_ends_iff`: when the loop ends. `eventDel_unqueued`: a deleted event is on
no structure. The time is that of `gettime`, which may be cached.
-/

namespace Libevent

open Lib

variable {β : Type} {s : EventBase β} {debugMode : Bool} {evsel evsigsel : EventOp β} {e : EvId}

/-- `event_count_active` is 0 when no callback is active. -/
theorem Inv.idle_iff (h : Inv s) : s.eventCountActive = 0 ↔
    ∀ e, (s.evs e).evFlags.active = false ∧ (s.evs e).evFlags.activeLater = false := by
  have hcount : s.eventCountActive = (∑ i ∈ Finset.range s.nactivequeues,
      (s.activequeues i).length + s.activeLaterQueue.length : Nat) := by simp [h.act.count_eq]
  rw [hcount, Int.natCast_eq_zero]
  simp only [Nat.add_eq_zero_iff, Finset.sum_eq_zero_iff, Finset.mem_range, List.length_eq_zero_iff,
    List.eq_nil_iff_forall_not_mem, h.act.mem, h.act.later_mem, Bool.not_eq_true]
  constructor
  · intro hempty e
    exact ⟨Bool.eq_false_iff.mpr fun ha => hempty.1 _ (h.act.pri e) e ⟨ha, rfl⟩, hempty.2 e⟩
  · intro hnone
    exact ⟨fun i _ e he => by simp [(hnone e).1] at he, fun e => (hnone e).2⟩

/-- The heap holds an event that is due no later than any event with a timeout. -/
theorem Sound.first_due (h : Sound none s) (hidle : s.eventCountActive = 0)
    (htime : (s.evs e).evFlags.timeout = true) :
    ∃ x, s.timeheap.Mem x ∧ (s.evs x).evTimeout.micros ≤ (s.evs e).evTimeout.masked.micros := by
  cases hcommon : isCommonTimeout (s.evs e).evTimeout s.commonTimeoutQueues.length with
  | false =>
    rw [(h.inv.time.tv_ok e).masked_eq hcommon]
    exact ⟨e, (h.inv.time.heap_mem e).mpr ⟨htime, hcommon⟩, le_rfl⟩
  | true =>
    -- the timer of the list is in the heap, and no event of the list is due before its first one
    obtain ⟨c, hc⟩ := getElem?_commonTimeoutIdx hcommon
    have he : e ∈ c.events := (h.inv.time.common_mem _ c hc e).mpr ⟨htime, hcommon, rfl⟩
    have hsorted := h.inv.time.masked_sorted hc
    cases hevents : c.events with
    | nil => simp [hevents] at he
    | cons head rest =>
      rw [hevents] at he hsorted
      obtain hactive | ⟨htimer, hle⟩ := h.deadline _ (by simp) c head hc (by rw [hevents]; rfl)
      · simp [(h.inv.idle_iff.mp hidle c.timeoutEvent).1] at hactive
      have hqueue := List.mem_of_getElem? hc
      have hmem := EventBase.mem_heapCells.mp (h.inv.timer_mem_heapCells hqueue htimer)
      obtain ⟨-, -, -, -, -, husec⟩ := (h.inv.ev _).internal (h.inv.timers.timer c hqueue)
      refine ⟨c.timeoutEvent, hmem, Timeval.micros_le husec (hle.trans ?_)⟩
      obtain rfl | he := List.mem_cons.mp he
      · exact le_rfl
      · exact List.rel_of_pairwise_cons hsorted he

theorem loopWait_eq (h : Inv s) (nonblock noExit : Bool) (virtual : Nat) : ∃ tv,
    eventBaseLoopWait s nonblock noExit virtual = .ok (if noExit = false ∧
      eventHaveevents s virtual = false ∧ s.eventCountActive = 0 then none else some tv) ∧
    (tv = some {} ∧ ¬(s.eventCountActive = 0 ∧ nonblock = false) ∨
      s.eventCountActive = 0 ∧ WaitsFor s tv) := by
  unfold eventBaseLoopWait
  by_cases hidle : s.eventCountActive = 0 ∧ nonblock = false
  · obtain ⟨tv, htv, hwait⟩ := timeoutNext_spec h
    exact ⟨tv, by rw [if_pos hidle, htv]; rfl, .inr ⟨hidle.1, hwait⟩⟩
  · exact ⟨_, by rw [if_neg hidle]; rfl, .inl ⟨rfl, hidle⟩⟩

section
variable (hsel : evsel.NoFault) (hsig : evsigsel.NoFault)
  (hreach : EventReached debugMode evsel evsigsel s)
include hsel hsig hreach

/-- By the time of `gettime`, which may be cached (`tvNow`), `event_base_loop` never waits beyond
the deadline of an event, common timeouts included, and it waits without a limit only when no event
has one. When no callback is active and it may wait, it waits exactly until some event is due. -/
theorem loopWait_until_deadline (nonblock noExit : Bool) (virtual : Nat) :
    ∃ r, eventBaseLoopWait s nonblock noExit virtual = .ok r ∧
      (r = some none → ∀ e, (s.evs e).evFlags.timeout = false ∧ (s.evs e).evFlags.active = false) ∧
      ∀ tv, r = some (some tv) → (∀ e, (s.evs e).evFlags.timeout = true →
          tv.micros = 0 ∨ s.tvNow.micros + tv.micros ≤ (s.evs e).evTimeout.masked.micros) ∧
        (s.eventCountActive = 0 → nonblock = false → ∃ e, (s.evs e).evFlags.timeout = true ∧
          tv.micros = max 0 ((s.evs e).evTimeout.micros - s.tvNow.micros)) := by
  have h := hreach.sound hsel hsig
  obtain ⟨tv, hrun, hwait⟩ := loopWait_eq h.inv nonblock noExit virtual
  refine ⟨_, hrun, ?_⟩
  split
  · exact ⟨by rintro ⟨⟩, by rintro _ ⟨⟩⟩
  constructor
  · rintro ⟨⟩ e
    obtain ⟨⟨⟩, -⟩ | ⟨hidle, hnone⟩ := hwait
    refine ⟨Bool.eq_false_iff.mpr fun htime => ?_, (h.inv.idle_iff.mp hidle e).1⟩
    obtain ⟨x, hx, -⟩ := h.first_due hidle htime
    exact hnone x hx
  rintro tv ⟨⟩
  obtain ⟨⟨⟩, hbusy⟩ | ⟨hidle, -, x, hx, hfirst, hmicros⟩ := hwait
  · exact ⟨fun _ _ => .inl rfl, fun hidle hblock => absurd ⟨hidle, hblock⟩ hbusy⟩
  refine ⟨fun e htime => ?_, fun _ _ => ⟨x, ((h.inv.time.heap_mem x).mp hx).1, hmicros⟩⟩
  obtain ⟨y, hy, hle⟩ := h.first_due hidle htime
  have := hfirst y hy
  omega

/-- The loop ends with 1 exactly when no callback is active and no event but the base's own is added
or has a timeout. -/
theorem loop_ends_iff (nonblock : Bool) (virtual : Nat) :
    eventBaseLoopWait s nonblock false virtual = .ok none ↔ virtual = 0 ∧ ∀ e,
      (s.evs e).evFlags.active = false ∧ (s.evs e).evFlags.activeLater = false ∧
      ((s.evs e).evFlags.internal = false →
        (s.evs e).evFlags.inserted = false ∧ (s.evs e).evFlags.timeout = false) := by
  have h := (hreach.sound hsel hsig).inv
  obtain ⟨tv, hrun, -⟩ := loopWait_eq h nonblock false virtual
  have hcount := h.count.nonpos_iff fun e => by unfold weight; split_ifs <;> decide
  have hvirtual : eventHaveevents s virtual = false ↔ virtual = 0 ∧ s.eventCount ≤ 0 := by
    simp [eventHaveevents]
  simp only [hrun, Except.ok.injEq, ite_eq_left_iff, reduceCtorEq, imp_false, not_not, true_and,
    hvirtual, hcount, h.idle_iff]
  constructor
  · rintro ⟨⟨hv, hw⟩, hidle⟩
    refine ⟨hv, fun e => ⟨(hidle e).1, (hidle e).2, fun hint => ?_⟩⟩
    have := hw e
    simp only [weight, hint] at this
    split_ifs at this <;> simp_all
  · rintro ⟨hv, hall⟩
    refine ⟨⟨hv, fun e => ?_⟩, fun e => ⟨(hall e).1, (hall e).2.1⟩⟩
    unfold weight
    split_ifs <;> simp_all

/-- `event_del` takes an event from every place of the base, and leaves the others alone. -/
theorem eventDel_unqueued (hfin : (s.evs e).evFlags.finalizing = false) (hcalls : ¬StaleCalls s e) :
    ∃ p, eventDelNolock evsel evsigsel s e false = .ok p ∧ Bookkeeping p.2 ∧ Unqueued p.2 e ∧
      OffBase p.2 e ∧ ∀ x, x ≠ e → p.2.evs x = s.evs x := by
  have hdel := eventDelNolock_yields hsel hsig (hreach.sound hsel hsig).inv
    (show (!false && (s.evs e).evFlags.finalizing) = false from hfin)
  obtain ⟨p, hrun, hp⟩ := (hdel.weaken fun _ hf => hcalls hf.2).exists_ok
  have hflags : Unqueued p.2 e := by simp [Unqueued, hp.evs, EvFlags.unqueued]
  refine ⟨p, hrun, hp.inv.bookkeeping, hflags, hp.inv.offBase hflags, fun x hx => ?_⟩
  rw [hp.evs, upd_ne _ _ hx]

end

/-- Two events wait, and none of them is due: the loop waits for one second, the deadline of the
first one. -/
theorem loopWait_dueRun : ∃ s, idleRun (dueRun.take 4) = .ok s ∧
    eventBaseLoopWait s false false 0 = .ok (some (some ⟨1, 0⟩)) ∧
    ∀ e, (s.evs e).evFlags.timeout = true → 1000000 ≤ (s.evs e).evTimeout.masked.micros := by
  have hreach : EventReached false idleBackend idleBackend _ :=
    ⟨1, (), {}, dueRun.take 4, by decide, fun _ => rfl, by decide, rfl⟩
  obtain ⟨r, hr, -, hwait⟩ :=
    loopWait_until_deadline idleBackend_noFault idleBackend_noFault hreach false false 0
  refine ⟨_, rfl, rfl, fun e he => ?_⟩
  cases hr
  exact ((hwait _ rfl).1 e he).resolve_left (by decide)

/-- The reader that is due runs, and the other one is deleted. -/
def ranRun : List EventAction := dueRun ++ [.timeoutProcess, .processActive 0, .del 2]

/-- After that, the loop ends. -/
theorem loop_ends_ranRun : ∃ s, idleRun ranRun = .ok s ∧
    eventBaseLoopWait s false false 0 = .ok none := by
  have hreach : EventReached false idleBackend idleBackend _ :=
    ⟨1, (), {}, ranRun, by decide, fun _ => rfl, by decide, rfl⟩
  refine ⟨_, rfl, (loop_ends_iff idleBackend_noFault idleBackend_noFault hreach false 0).mpr
    ⟨rfl, fun e => ?_⟩⟩
  obtain _ | _ | _ | e := e <;> exact ⟨rfl, rfl, fun _ => ⟨rfl, rfl⟩⟩

/-- The first of the two readers is taken from the heap, and the second one stays. -/
theorem eventDel_dueRun : ∃ (s : EventBase Unit) (p : Int × EventBase Unit),
    idleRun dueRun = .ok s ∧ s.heapCells = [1, 2] ∧
    eventDelNolock idleBackend idleBackend s 1 false = .ok p ∧ OffBase p.2 1 ∧ p.2.heapCells = [2] ∧
    p.2.evs 2 = s.evs 2 := by
  have hreach : EventReached false idleBackend idleBackend _ :=
    ⟨1, (), {}, dueRun, by decide, fun _ => rfl, by decide, rfl⟩
  obtain ⟨p, hrun, -, -, hoff, hother⟩ := eventDel_unqueued idleBackend_noFault idleBackend_noFault
    hreach (e := 1) rfl fun hcalls => absurd hcalls.1 (by decide)
  cases hrun
  exact ⟨_, _, rfl, rfl, rfl, hoff, rfl, hother 2 (by decide)⟩

end Libevent
