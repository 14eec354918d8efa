import Libevent.Proofs.Event.Bookkeeping

/-!
# `Libevent.Proofs.Event.Expiry`: timeouts that end

`event_remove_timer_nolock_` takes the event off the structures of its timeout and clears
`ev_io.ev_timeout`. In a signal event this storage belongs to `ev_ncalls` and `ev_pncalls`:
`eventRemoveTimer_onlyTimeout` says that nothing but the timeout changes exactly when the event has
no calls left to make.

`timeoutProcess_exact_iff`: `timeout_process` makes the events that are due active, each once and in
the order of their deadlines, and `timeout_next` then waits for the first of the others. The one
thing that can go wrong, and the one thing that may end a run of `eventRun_bookkeeping`, is the
write of `event_del_nolock_` through an `ev_pncalls` that an earlier `event_signal_closure` has left
behind (`StaleCalls`, and `timeoutProcess_stale` for a run that comes to it).
-/

namespace Libevent

open Lib

variable {β : Type} {s s' : EventBase β} {ev : EvId} {debugMode : Bool}
  {evsel evsigsel : EventOp β} {a b : Timeval}

/-! ### `event_remove_timer` -/

/-- From `s` to `s'`, the event `ev` has lost its timeout and nothing else: its registration, its
place in an active queue, its result, and the calls that a signal event still has to make. -/
structure OnlyTimeout (s : EventBase β) (ev : EvId) (s' : EventBase β) : Prop where
  rest : { s' with
    evs := s.evs, timeheap := s.timeheap, commonTimeoutQueues := s.commonTimeoutQueues
    eventCount := s.eventCount } = s
  others : ∀ x, x ≠ ev → s'.evs x = s.evs x
  self : ∃ io n p, s'.evs ev = { s.evs ev with
      evFlags := { (s.evs ev).evFlags with timeout := false }
      evIoTimeout := io, evNcalls := n, evPncalls := p } ∧
    (isSignal (s.evs ev).evEvents = true → n = (s.evs ev).evNcalls ∧ p = (s.evs ev).evPncalls)
  heap : ∀ x, s'.timeheap.Mem x ↔ x ≠ ev ∧ s.timeheap.Mem x
  lists : s'.commonTimeoutQueues = eraseCommon ev s.commonTimeoutQueues

/-- A signal event that is pending on a timeout has calls to make, or is making them. -/
def CallsLeft (s : EventBase β) (ev : EvId) : Prop :=
  (s.evs ev).evFlags.timeout = true ∧ isSignal (s.evs ev).evEvents = true ∧
    ((s.evs ev).evNcalls ≠ 0 ∨ (s.evs ev).evPncalls = true)

instance (s : EventBase β) (ev : EvId) : Decidable (CallsLeft s ev) :=
  inferInstanceAs (Decidable (_ ∧ _ ∧ _))

/-- An event without a timeout: there is nothing to remove. -/
theorem Inv.onlyTimeout_self (h : Inv s) (hflag : (s.evs ev).evFlags.timeout = false) :
    OnlyTimeout s ev s where
  rest := rfl
  others _ _ := rfl
  self := by
    have hfl : { (s.evs ev).evFlags with timeout := false } = (s.evs ev).evFlags :=
      EvFlags.ext hflag.symm rfl rfl rfl rfl rfl rfl
    exact ⟨(s.evs ev).evIoTimeout, (s.evs ev).evNcalls, (s.evs ev).evPncalls, by rw [hfl],
      fun _ => ⟨rfl, rfl⟩⟩
  heap := h.heap_mem_iff h hflag (fun _ _ => rfl) rfl
  lists := (eraseCommon_eq_self fun _ hc => h.time.not_mem_common hflag hc).symm

/-- `event_remove_timer` in any state that a legal run reaches, for any event. It changes the
timeout only, unless the event is a signal event with a timeout that has calls to make. -/
theorem eventRemoveTimer_onlyTimeout (hsel : evsel.NoFault) (hsig : evsigsel.NoFault)
    (hreach : EventReached debugMode evsel evsigsel s) (ev : EvId) :
    ∃ s', eventRemoveTimerNolock s ev = .ok s' ∧ (OnlyTimeout s ev s' ↔ ¬ CallsLeft s ev) := by
  have h := (hreach.sound hsel hsig).inv
  unfold eventRemoveTimerNolock
  cases hflag : (s.evs ev).evFlags.timeout with
  | false =>
    refine ⟨s, rfl, iff_of_true (h.onlyTimeout_self hflag) fun hleft => ?_⟩
    rw [CallsLeft, hflag] at hleft
    cases hleft.1
  | true =>
    obtain ⟨heap, hrun, hinv, -⟩ := eventQueueRemoveTimeout_spec h hflag
    rw [hrun]
    refine ⟨_, rfl, ?_⟩
    have hself : ((s.dropTimeout ev heap).setEv ev { (s.dropTimeout ev heap).evs ev with
        evIoTimeout := {}, evNcalls := 0, evPncalls := false }).evs ev = { s.evs ev with
          evFlags := { (s.evs ev).evFlags with timeout := false }
          evIoTimeout := {}, evNcalls := 0, evPncalls := false } := by
      simp [EventBase.setEv]
    constructor
    · -- the calls that were left are cleared with the interval
      rintro ⟨-, -, ⟨io, n, p, heq, hcalls⟩, -, -⟩ ⟨-, hs, hleft⟩
      rw [hself] at heq
      injection heq with _ _ _ _ _ hn hp
      obtain ⟨rfl, rfl⟩ := hcalls hs
      rw [← hn, ← hp] at hleft
      simp at hleft
    intro hno
    have hheap : ∀ x, heap.Mem x ↔ x ≠ ev ∧ s.timeheap.Mem x :=
      h.heap_mem_iff hinv (by simp) (fun x hx => upd_ne _ _ hx) (eraseCommon_length _ _)
    refine ⟨rfl, fun x hx => ?_, ⟨{}, 0, false, hself, fun hs => ?_⟩, hheap, rfl⟩
    · simp [hx, upd_ne]
    have hnone : ¬ _ := fun hleft => hno ⟨hflag, hs, hleft⟩
    rw [not_or, not_not, Bool.not_eq_true] at hnone
    exact ⟨hnone.1.symm, hnone.2.symm⟩

/-- A signal event with a timeout. -/
def alarmRun : List EventAction := [.assign 2 5 EV_SIGNAL, .add 2 (some ⟨1, 0⟩)]

/-- The timer of a signal event that has not come. -/
theorem eventRemoveTimer_onlyTimeout_alarmRun :
    ∃ s s' : EventBase Unit, EventReached false idleBackend idleBackend s ∧ ¬ CallsLeft s 2 ∧
      eventRemoveTimerNolock s 2 = .ok s' ∧ OnlyTimeout s 2 s' := by
  have hreach : EventReached false idleBackend idleBackend _ :=
    ⟨1, (), {}, alarmRun, by decide, fun _ => rfl, by decide, rfl⟩
  obtain ⟨s', hrun, hiff⟩ :=
    eventRemoveTimer_onlyTimeout idleBackend_noFault idleBackend_noFault hreach 2
  exact ⟨_, s', hreach, by decide, hrun, hiff.mpr (by decide)⟩

/-- The signal comes, and the timer is removed before the callback has run: it is not called. -/
theorem eventRemoveTimer_silences :
    ∃ s s' t t' : EventBase Unit, idleRun (alarmRun ++ [.signalActive 5 1]) = .ok s ∧
      EventLegal s (.removeTimer 2) ∧ eventRemoveTimerNolock s 2 = .ok s' ∧
      (s.evs 2).evNcalls = 1 ∧ (s'.evs 2).evNcalls = 0 ∧ s'.activequeues 0 = [2] ∧
      processActive false idleBackend idleBackend s 0 = .ok t ∧ t.log = [(2, EV_SIGNAL)] ∧
      processActive false idleBackend idleBackend s' 0 = .ok t' ∧ t'.log = [] :=
  ⟨_, _, _, _, rfl, by decide, rfl, rfl, rfl, rfl, rfl, rfl, rfl, rfl⟩

/-! ### `timeout_process` and `timeout_next` -/

/-- The time in microseconds. -/
def Timeval.micros (tv : Timeval) : Int := tv.tvSec * 1000000 + tv.tvUsec

/-- Normal times are in the order of their microseconds. -/
theorem Timeval.micros_le (ha : a.tvUsec < 1000000)
    (h : timeKey a ≤ timeKey b) : a.micros ≤ b.micros := by
  unfold timeKey at h
  rw [Prod.Lex.toLex_le_toLex] at h
  unfold Timeval.micros
  omega

/-- The difference of two normal timevals, the later one first. -/
theorem evutilTimersub_spec (ha : a.tvUsec < 1000000) (hb : b.tvUsec < 1000000)
    (h : timeKey b ≤ timeKey a) :
    0 ≤ (evutilTimersub a b).tvSec ∧ (evutilTimersub a b).tvUsec < 1000000 ∧
      (evutilTimersub a b).micros = a.micros - b.micros := by
  unfold timeKey at h
  rw [Prod.Lex.toLex_le_toLex] at h
  unfold evutilTimersub Timeval.micros
  split
  · refine ⟨?_, ?_, ?_⟩ <;> dsimp only <;> omega
  · refine ⟨?_, ?_, ?_⟩ <;> dsimp only <;> omega

/-- How long `timeout_next` lets the backend wait: until the first event of the heap is due. -/
def WaitsFor (s : EventBase β) : Option Timeval → Prop
  | none => ∀ e, ¬ s.timeheap.Mem e
  | some tv => tv.tvUsec < 1000000 ∧ ∃ e, s.timeheap.Mem e ∧
      (∀ x, s.timeheap.Mem x → (s.evs e).evTimeout.micros ≤ (s.evs x).evTimeout.micros) ∧
      tv.micros = max 0 ((s.evs e).evTimeout.micros - s.tvNow.micros)

/-- `timeout_next` waits until the first event of the heap is due. -/
theorem timeoutNext_spec (h : Inv s) : ∃ r, timeoutNext s = .ok r ∧ WaitsFor s r := by
  unfold timeoutNext
  cases htop : minHeapTop s.timeheap with
  | none =>
    refine ⟨none, rfl, ?_⟩
    rintro e ⟨i, hi, -⟩
    rw [minHeapTop, if_neg (by omega)] at htop
    cases htop
  | some ev =>
    obtain ⟨hmem, hle⟩ := h.time.heap_ok.top_le htop
    -- a deadline in the heap is a normal one
    have hnormal : (s.evs ev).evTimeout.tvUsec < 1000000 := by
      refine (h.time.tv_ok ev).resolve_right fun hcommon => ?_
      rw [((h.time.heap_mem ev).mp hmem).2] at hcommon
      cases hcommon.1
    have hfirst := fun x hx => Timeval.micros_le hnormal (hle x hx)
    have hnow := h.now
    dsimp only
    split
    · next hdue =>
      have hpast := Timeval.micros_le hnormal ((evutilTimercmpGe_iff _ _).mp hdue)
      refine ⟨_, rfl, by decide, ev, hmem, hfirst, ?_⟩
      rw [max_eq_left (by omega)]
      rfl
    next hlater =>
    rw [evutilTimercmpGe_iff, not_le] at hlater
    obtain ⟨hsec, husec, hmicros⟩ := evutilTimersub_spec hnormal hnow hlater.le
    refine ⟨_, if_neg (not_lt.mpr hsec), husec, ev, hmem, hfirst, ?_⟩
    have hfuture := Timeval.micros_le hnow hlater.le
    rw [hmicros, max_eq_right (by omega)]

/-- What `timeout_process` is for: the events that are due are exactly those that it takes out of
the heap and makes active, once each and in the order of their deadlines, and afterwards, at any
time, `timeout_next` waits for the first of the others. -/
def ProcessesTimeouts (evsel evsigsel : EventOp β) (s : EventBase β) : Prop :=
  ∃ s' l, timeoutProcess evsel evsigsel s = .ok s' ∧ Processed s s.tvNow l s' ∧
    s'.timeheap.Ok (fun e => timeKey (s'.evs e).evTimeout) ∧
    ∀ now : Timeval, now.tvUsec < 1000000 → ∃ r,
      timeoutNext { s' with tvNow := now } = .ok r ∧ WaitsFor { s' with tvNow := now } r

/-- In any state that a legal run reaches, `timeout_process` does what it is for if and only if no
event that is due has an `ev_pncalls` whose `event_signal_closure` has returned. It never returns
from any other state: the write through the pointer is a fault. -/
theorem timeoutProcess_exact_iff (hsel : evsel.NoFault) (hsig : evsigsel.NoFault)
    (hreach : EventReached debugMode evsel evsigsel s) :
    ProcessesTimeouts evsel evsigsel s ↔ ∀ e, ¬ NotDue s s.tvNow e → ¬ StaleCalls s e := by
  have hspec := timeoutProcess_processed hsel hsig (hreach.sound hsel hsig)
  constructor
  · rintro ⟨s', l, hrun, -⟩
    exact (hspec.of_ok hrun).2.2.2
  intro hcalls
  have hnone : ∀ f, ¬ StaleTimeout s s.tvNow f := fun f ⟨_, e, hdue, hstale⟩ =>
    hcalls e hdue hstale
  obtain ⟨s', hrun, hsound, -, ⟨l, hl⟩, -⟩ := (hspec.weaken hnone).exists_ok
  refine ⟨s', l, hrun, hl, hsound.inv.time.heap_ok, fun now hnow => timeoutNext_spec ?_⟩
  exact hsound.inv.congr rfl hnow

/-- Two readers, one of which is due. -/
def dueRun : List EventAction :=
  [.assign 1 3 EV_READ, .add 1 (some ⟨1, 0⟩), .assign 2 4 EV_READ, .add 2 (some ⟨5, 0⟩),
    .tick ⟨2, 0⟩]

/-- The first reader becomes active, and the second one is waited for. -/
theorem timeoutProcess_exact_dueRun : ∃ s : EventBase Unit,
    EventReached false idleBackend idleBackend s ∧ s.tvNow = ⟨2, 0⟩ ∧ s.timeheap.n = 2 ∧
      ProcessesTimeouts idleBackend idleBackend s := by
  have hreach : EventReached false idleBackend idleBackend _ :=
    ⟨1, (), {}, dueRun, by decide, fun _ => rfl, by decide, rfl⟩
  refine ⟨_, hreach, rfl, rfl, (timeoutProcess_exact_iff idleBackend_noFault idleBackend_noFault
    hreach).mpr fun e hdue hcalls => hdue fun hmem => ?_⟩
  -- the two cells of the heap hold no signal event
  obtain ⟨i, hi, rfl⟩ := hmem
  change i < 2 at hi
  interval_cases i <;> exact absurd hcalls.1 (by decide)

/-- A signal has come twice. The first call of the callback deletes the event, which ends the
closure, and adds it again with a timeout: `ev_ncalls` is 1 and `ev_pncalls` points to the counter
of the closure, which has returned when the timeout expires. -/
def staleRun : List EventAction :=
  [.assign 2 5 EV_SIGNAL, .add 2 none, .signalActive 5 2, .processActive 0, .del 2,
    .add 2 (some ⟨1, 0⟩), .continueClosure false, .tick ⟨2, 0⟩]

/-- `timeout_process` writes through the stale pointer. -/
theorem timeoutProcess_stale : ∃ s : EventBase Unit, EventReached false idleBackend idleBackend s ∧
      EventLegal s .timeoutProcess ∧ s.closure = none ∧
      timeoutProcess idleBackend idleBackend s = .error .useAfterFree :=
  ⟨_, ⟨1, (), {}, staleRun, by decide, fun _ => rfl, by decide, rfl⟩, by decide, rfl, rfl⟩

end Libevent
