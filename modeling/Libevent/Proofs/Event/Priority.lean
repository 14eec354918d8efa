import Libevent.Proofs.Event.Bookkeeping
import Libevent.Proofs.Event.Urgent

/-!
# `Libevent.Proofs.Event.Priority`: strict priority

`Strict s`: when the last action started the callback of a `struct event` of the queue `i`, no
`struct event` is in a queue with a smaller number.

`loopRun_strict`: in every run, an action is strict unless it is `Hasty`: `event_signal_closure`
calls the callback of a signal event once more, while an event with a smaller priority number is
active. It looks at `event_break` after each call, but not at `event_continue`. The limits of the
base must not be those of a `max_callbacks` of 0 for all priorities: then
`event_process_active_single_queue` returns 0 after an internal event, and `event_process_active`
takes this for an empty queue. `strict_lost` has a run for both.
-/

namespace Libevent

open Lib

variable {β : Type} {s s' : EventBase β} {ev : EvId} {i : Nat} {addr : EvId} {s'' : EventBase β}

/-! ### More urgent events -/

/-- No `struct event` is in a queue with a number smaller than `i`. -/
def Undisturbed (s : EventBase β) (i : Nat) : Prop :=
  ∀ j < i, ∀ e ∈ s.activequeues j, (s.evs e).evFlags.init = false

/-- The internal events have the priority 0. -/
def Front (s : EventBase β) : Prop :=
  ∀ e, (s.evs e).evFlags.internal = true → (s.evs e).evPri = 0 ∧ ∀ j, e ∈ s.activequeues j → j = 0

/-- What every call does: when it makes an event active that is more urgent than the queue that is
being run, it sets `event_continue`. -/
structure Obeys (s s' : EventBase β) : Prop extends Heeds s s' where
  quiet : ∀ i : Nat, s.eventRunningPriority = i → Undisturbed s i →
    Undisturbed s' i ∨ s'.eventContinue = true
  front : Front s → Front s'

theorem Urged.obeys (h : Urged s s') : Obeys s s' where
  toHeeds := h.toHeeds
  quiet i hi hquiet := by
    by_cases hcont : s'.eventContinue = true
    · exact .inr hcont
    refine .inl fun j hj e he => ?_
    rw [h.init]
    rcases h.queued j e he with hold | ⟨_, hurge⟩
    · exact hquiet j hj e hold
    · by_contra hinit
      exact hcont (hurge (by simpa using hinit) (by omega))
  front hfront e hint := by
    rw [h.internal] at hint
    obtain ⟨hpri, hqueue⟩ := hfront e hint
    refine ⟨(h.pri e).trans hpri, fun j he => ?_⟩
    rcases h.queued j e he with hold | ⟨hj, _⟩
    · exact hqueue j hold
    · exact hj.trans hpri

theorem Obeys.trans (h : Obeys s s') (h' : Obeys s' s'') : Obeys s s'' where
  toHeeds := h.toHeeds.trans h'.toHeeds
  quiet i hi hquiet := by
    rcases h.quiet i hi hquiet with hq | hc
    · exact h'.quiet i (h.running.trans hi) hq
    · exact .inr (h'.mono hc)
  front := h'.front ∘ h.front

/-- In a queue of the priority 0, or outside of the queues, no event is more urgent. -/
theorem Obeys.still (h : Obeys s s') (hrun : s.eventRunningPriority ≤ 0)
    (hcont : s.eventContinue = false) : s'.eventContinue = false := by
  by_contra hc
  rcases h.calm (by simpa using hc) with hc' | hpos
  · rw [hcont] at hc'
    cases hc'
  · omega

theorem Begun.undisturbed (h : Begun s s') (hquiet : Undisturbed s i) : Undisturbed s' i := by
  intro j hj e he
  have hinit : (s'.evs e).evFlags.init = (s.evs e).evFlags.init := congrArg Prod.fst (h.face e)
  rw [hinit]
  exact hquiet j hj e (h.queues j he)

theorem Begun.front (h : Begun s s') (hfront : Front s) : Front s' := by
  intro e hint
  have hint' : (s'.evs e).evFlags.internal = (s.evs e).evFlags.internal :=
    congrArg (fun f => f.2.1) (h.face e)
  have hpri : (s'.evs e).evPri = (s.evs e).evPri := congrArg (fun f => f.2.2) (h.face e)
  rw [hint'] at hint
  exact ⟨hpri.trans (hfront e hint).1, fun j he => (hfront e hint).2 j (h.queues j he)⟩

/-- Only the event `ev` changes, and no queue. -/
structure Rewritten (s : EventBase β) (ev : EvId) (s' : EventBase β) : Prop where
  running : s'.eventRunningPriority = s.eventRunningPriority
  cont : s'.eventContinue = s.eventContinue
  queues : s'.activequeues = s.activequeues
  others : ∀ x, x ≠ ev → s'.evs x = s.evs x

/-- A change of an event that is in no queue, or that keeps `EVLIST_INIT`. -/
theorem Rewritten.obeys (h : Rewritten s ev s')
    (hinit : Idle s ev ∨ (s'.evs ev).evFlags.init = (s.evs ev).evFlags.init)
    (hint : (s'.evs ev).evFlags.internal = true →
      (s'.evs ev).evPri = 0 ∧ (Idle s ev ∨ (s.evs ev).evFlags.internal = true)) : Obeys s s' where
  running := h.running
  mono := by rw [h.cont]; exact id
  calm := by rw [h.cont]; exact Or.inl
  quiet i _ hquiet := by
    refine .inl fun j hj e he => ?_
    rw [h.queues] at he
    by_cases heq : e = ev
    · subst heq
      rcases hinit with hidle | hsame
      · exact absurd he (hidle j)
      · rw [hsame]
        exact hquiet j hj e he
    · rw [h.others e heq]
      exact hquiet j hj e he
  front hfront e he := by
    rw [h.queues]
    by_cases heq : e = ev
    · subst heq
      obtain ⟨hpri, hidle | hold⟩ := hint he
      · exact ⟨hpri, fun j hmem => absurd hmem (hidle j)⟩
      · exact ⟨hpri, (hfront e hold).2⟩
    · rw [h.others e heq] at he ⊢
      exact hfront e he

section
variable (s ev)

theorem Rewritten.setEv (e : Event) : Rewritten s ev (s.setEv ev e) :=
  ⟨rfl, rfl, rfl, fun _ hx => if_neg hx⟩

theorem setEv_evs_self (e : Event) : (s.setEv ev e).evs ev = e :=
  if_pos rfl

/-! ### The calls that initialize an event -/

theorem eventAssign_rewritten (fd : Int) (events : Nat) :
    Rewritten s ev (eventAssign s ev fd events).2 ∧
      ((eventAssign s ev fd events).2.evs ev).evFlags = { init := true } := by
  unfold eventAssign
  split
  · exact ⟨Rewritten.setEv s ev _, by rw [setEv_evs_self]⟩
  refine ⟨⟨rfl, rfl, rfl, fun _ hx => if_neg hx⟩, ?_⟩
  show ((s.setEv ev _).evs ev).evFlags = _
  rw [setEv_evs_self]

theorem eventPrioritySet_rewritten (pri : Int) : Rewritten s ev (eventPrioritySet s ev pri).2 ∧
      ((eventPrioritySet s ev pri).2.evs ev).evFlags = (s.evs ev).evFlags := by
  unfold eventPrioritySet
  split
  · exact ⟨⟨rfl, rfl, rfl, fun _ _ => rfl⟩, rfl⟩
  split
  · exact ⟨⟨rfl, rfl, rfl, fun _ _ => rfl⟩, rfl⟩
  · exact ⟨Rewritten.setEv s ev _, by rw [setEv_evs_self]⟩

end

/-- The new list and its timer. -/
theorem addCommonTimeout_obeys (h : Idle s addr) (duration : Timeval) :
    Obeys s (addCommonTimeout s duration addr) := by
  rw [addCommonTimeout_eq]
  have hset : Rewritten s addr { s.withTimer addr newTimer with
      commonTimeoutQueues := s.commonTimeoutQueues ++
        [newList s.commonTimeoutQueues.length duration addr] } :=
    ⟨rfl, rfl, rfl, fun _ hx => if_neg hx⟩
  refine hset.obeys (.inl h) fun _ => ⟨?_, .inl h⟩
  show ((s.setEv addr newTimer).evs addr).evPri = 0
  rw [setEv_evs_self]
  rfl

theorem growCommonTimeouts_calm (s : EventBase β) : Calm s (growCommonTimeouts s).2 := by
  unfold growCommonTimeouts
  split
  · split
    · exact Calm.of_view rfl rfl
    · exact Calm.of_view rfl rfl
  · exact Calm.refl s

theorem findCommonTimeout_obeys (h : Idle s addr) (duration : Timeval) :
    Obeys s (findCommonTimeout s duration addr).2 := by
  have hgrow := growCommonTimeouts_calm s
  unfold findCommonTimeout
  split
  · exact (Urged.refl s).obeys
  split
  · exact (Urged.refl s).obeys
  generalize growCommonTimeouts s = r at hgrow ⊢
  obtain ⟨ok, s1⟩ := r
  cases ok with
  | false => exact hgrow.urged.obeys
  | true =>
    have hmm : Calm s (s1.setMm s1.evmap.mm.alloc.2) :=
      hgrow.trans (Calm.of_view rfl rfl)
    dsimp only
    split
    · have hidle : Idle (s1.setMm s1.evmap.mm.alloc.2) addr :=
        fun i hmem => h i (hmm.queues i hmem)
      exact hmm.urged.obeys.trans (addCommonTimeout_obeys hidle duration)
    · exact hmm.urged.obeys

theorem eventBaseInitCommonTimeout_obeys (h : Idle s addr) (duration : Timeval) :
    Partly (eventBaseInitCommonTimeout s duration addr) fun r => Obeys s r.2 := by
  have hfind := findCommonTimeout_obeys h (normalDuration s duration)
  unfold eventBaseInitCommonTimeout
  generalize findCommonTimeout s (normalDuration s duration) addr = r at hfind ⊢
  obtain ⟨tv, s1⟩ := r
  cases tv with
  | none => exact hfind
  | some tv =>
    dsimp only
    split
    · exact hfind
    · exact trivial

theorem makeLaterEventsActive_urged (l : List EvId) (s : EventBase β)
    (h : s.eventRunningPriority = -1) :
    Partly (makeLaterEventsActive l s) (Urged s) := by
  induction l generalizing s with
  | nil => exact Calm.urged (Calm.of_view rfl rfl)
  | cons ev l ih =>
    rw [makeLaterEventsActive]
    split
    · exact trivial
    have hmay : MayQueue s ev := fun _ hlt => by omega
    have hflags : Calm s (s.setFlags ev
        { (s.evs ev).evFlags with activeLater := false, active := true }) :=
      Calm.setFlags rfl rfl
    refine Yields.mono (ih _ h) fun s' hs' => ((hmay.enqueue hflags).trans ?_).trans hs'
    exact Calm.urged (Calm.of_view rfl rfl)

section
variable {debugMode : Bool} {evsel evsigsel : EventOp β} {a : EventAction} {count : Nat}

/-- What the program does. -/
theorem userCall_obeys (h : UserCall s a) :
    Partly (eventStep debugMode evsel evsigsel s a) (Obeys s) := by
  have hurged : ∀ {r : Except Fault (EventBase β)}, Partly r (Urged s) →
      Partly r (Obeys s) := fun hr => hr.mono fun _ => Urged.obeys
  cases a with
  | assign ev fd events =>
    obtain ⟨hr, hflags⟩ := eventAssign_rewritten s ev fd events
    exact hr.obeys (.inl h.2) fun hint => by rw [hflags] at hint; cases hint
  | prioritySet ev pri =>
    obtain ⟨hr, hflags⟩ := eventPrioritySet_rewritten s ev pri
    refine hr.obeys (.inr (by rw [hflags])) fun hint => ?_
    rw [hflags, show (s.evs ev).evFlags.internal = false from h] at hint
    cases hint
  | add ev tv =>
    exact hurged (Yields.map ((eventAddNolock_calm 2 s ev tv false).mono fun _ => Calm.urged))
  | del ev =>
    exact hurged (Yields.map ((eventDelNolock_calm s ev false).mono fun _ => Calm.urged))
  | removeTimer ev => exact hurged ((eventRemoveTimerNolock_calm s ev).mono fun _ => Calm.urged)
  | active ev res ncalls => exact hurged (eventActiveNolock_urged s ev res ncalls)
  | activeLater ev res =>
    exact hurged ((eventActiveLaterNolock_calm s ev res).mono fun _ => Calm.urged)
  | finalize ev free => exact hurged (eventFinalizeNolock_urged s ev free)
  | initCommonTimeout duration addr =>
    exact Yields.map (eventBaseInitCommonTimeout_obeys h duration)
  | deferredInit cb pri =>
    refine (Rewritten.setEv s cb _).obeys (.inl h.2) fun hint => ?_
    rw [setEv_evs_self] at hint
    cases hint
  | deferredSchedule cb => exact hurged (Yields.map (eventDeferredCbSchedule_urged h))
  | callbackCancel cb =>
    exact hurged (Yields.map ((eventCallbackCancelNolock_calm s cb false).mono fun _ => Calm.urged))
  | callbackFinalize cb => exact hurged (eventCallbackFinalizeNolock_urged h)
  | tick now =>
    have hnow : Calm s { s with tvNow := now } := Calm.of_view rfl rfl
    exact hnow.urged.obeys
  | ioActive _ _ | signalActive _ _ | newIteration | timeoutProcess | makeLaterEventsActive
  | processActive _ | continueClosure _ => exact h.elim

/-- What an iteration does before it runs callbacks. -/
theorem loopCall_obeys (h : LoopCall a) (hrun : s.eventRunningPriority = -1) :
    Partly (eventStep debugMode evsel evsigsel s a) (Obeys s) := by
  suffices h : Partly (eventStep debugMode evsel evsigsel s a) (Urged s) from
    h.mono fun _ => Urged.obeys
  cases a with
  | ioActive fd events => exact evmapIoActive_urged s fd events
  | signalActive sig ncalls => exact evmapSignalActive_urged s sig ncalls
  | timeoutProcess => exact timeoutProcess_urged s
  | makeLaterEventsActive => exact makeLaterEventsActive_urged s.activeLaterQueue s hrun
  | tick now => exact Calm.urged (Calm.of_view rfl rfl)
  | _ => exact h.elim

theorem internalCall_obeys (h : InternalCall a) :
    Partly (eventStep debugMode evsel evsigsel s a) (Obeys s) := by
  suffices h : Partly (eventStep debugMode evsel evsigsel s a) (Urged s) from
    h.mono fun _ => Urged.obeys
  cases a with
  | signalActive sig ncalls => exact evmapSignalActive_urged s sig ncalls
  | tick now => exact Calm.urged (Calm.of_view rfl rfl)
  | _ => exact h.elim

/-! ### The loop -/

/-- The limits let the loop run at least one callback of the program. -/
def DispatchLimits.Positive (limits : DispatchLimits) : Prop :=
  0 < limits.maxDispatchCallbacks ∨ 0 < limits.limitCallbacksAfterPrio

/-- What holds where the loop is. In the queue `i`, a more urgent event can only be active while a
callback is running, and then `event_continue` is set. As long as only internal events have run, the
queue is that of the priority 0. -/
def LoopState.At (s : LoopState β) : Prop :=
  match s.pc with
  | .idle => s.base.eventRunningPriority = -1
  | .polling => s.base.eventRunningPriority = -1 ∧ s.base.eventContinue = false
  | .scan i => Undisturbed s.base i ∧ s.base.eventContinue = false
  | .queue i _ =>
    s.base.eventRunningPriority = i ∧ Undisturbed s.base i ∧ s.base.eventContinue = false
  | .callback i count =>
    s.base.eventRunningPriority = i ∧ (Undisturbed s.base i ∨ s.base.eventContinue = true) ∧
      (count = 0 → i = 0 ∧ s.base.eventContinue = false)

structure LoopInv (s : LoopState β) : Prop where
  limits : s.limits.Positive
  front : Front s.base
  pc : s.At

/-- The callback that the last action started has no more urgent event before it. -/
def Strict (s : LoopState β) : Prop :=
  ∀ ev i, s.started = some (ev, i) → (s.base.evs ev).evFlags.init = true → Undisturbed s.base i

/-- `event_signal_closure` calls its callback again, while a more urgent event is active. -/
def Hasty (s : LoopState β) : LoopAction → Prop
  | .proceed false =>
    match s.pc, s.base.closure with
    | .callback i _, some (ev, _ + 1) =>
      (s.base.evs ev).evFlags.init = true ∧ ¬Undisturbed s.base i
    | _, _ => False
  | _ => False

variable {t t' : LoopState β}

/-- A base whose loop ends `event_process_active`. -/
theorem LoopInv.done (hlimits : t.limits.Positive) (hfront : Front t.base) : LoopInv t.done :=
  ⟨hlimits, hfront, rfl⟩

/-- `event_process_active_single_queue` returned: it ran a callback of the program, or the queue is
empty. -/
theorem LoopInv.returned (hlimits : t.limits.Positive) (hfront : Front t.base)
    (hempty : count = 0 → Undisturbed t.base (i + 1) ∧ t.base.eventContinue = false) :
    LoopInv (t.returned i count) := by
  unfold LoopState.returned
  split
  · exact LoopInv.done hlimits hfront
  · exact ⟨hlimits, hfront, hempty (by omega)⟩

theorem LoopState.started_returned (t : LoopState β) (i count : Nat) :
    (t.returned i count).started = t.started := by
  unfold LoopState.returned
  split <;> rfl

theorem LoopInv.scan (h : LoopInv t) (hpc : t.pc = .scan i) : LoopInv (t.scan i) := by
  have hat := h.pc
  unfold LoopState.At at hat
  rw [hpc] at hat
  unfold LoopState.scan
  split
  · split
    · next hempty =>
      refine ⟨h.limits, h.front, ⟨fun j hj e he => ?_, hat.2⟩⟩
      rcases Nat.lt_succ_iff_lt_or_eq.mp hj with hlt | rfl
      · exact hat.1 j hlt e he
      · rw [hempty] at he
        cases he
    · exact ⟨h.limits, h.front, rfl, hat.1, hat.2⟩
  · exact LoopInv.done h.limits h.front

/-- The next callback of the queue. -/
theorem LoopInv.next (h : LoopInv t) (hpc : t.pc = .queue i count) (hstarted : t.started = none) :
    Partly (t.next debugMode evsel evsigsel i count) fun t' =>
      LoopInv t' ∧ Strict t' := by
  have hat := h.pc
  unfold LoopState.At at hat
  rw [hpc] at hat
  obtain ⟨hrun, hquiet, hcont⟩ := hat
  unfold LoopState.next
  split
  · next hempty =>
    refine ⟨LoopInv.returned h.limits h.front fun _ => ⟨fun j hj e he => ?_, hcont⟩, ?_⟩
    · rcases Nat.lt_succ_iff_lt_or_eq.mp hj with hlt | rfl
      · exact hquiet j hlt e he
      · rw [hempty] at he
        cases he
    · intro ev j hs
      rw [LoopState.started_returned, hstarted] at hs
      cases hs
  next evcb rest hqueue =>
  have hfirst : (t.base.evs evcb).evFlags.internal = true → i = 0 := fun hint =>
    (h.front evcb hint).2 i (by rw [hqueue]; exact List.mem_cons_self)
  refine Yields.bind (processActive_begun t.base i) fun base hbase => ?_
  -- the callback is internal, or it counts
  have hzero : (if (t.base.evs evcb).evFlags.internal = true then count else count + 1) = 0 →
      i = 0 := by
    split
    · next hint => exact fun _ => hfirst hint
    · omega
  rcases hbase with hbegun | hurged
  · have hq : Undisturbed base i := hbegun.undisturbed hquiet
    have hc : base.eventContinue = false := hbegun.cont.trans hcont
    refine ⟨⟨h.limits, hbegun.front h.front, hbegun.running.trans hrun, .inl hq,
      fun hz => ⟨hzero hz, hc⟩⟩, fun ev j hs _ => ?_⟩
    dsimp only at hs
    split at hs
    · cases hs
    · cases hs
      exact hq
  have hobeys := hurged.obeys
  refine ⟨⟨h.limits, hobeys.front h.front, hobeys.running.trans hrun,
    hobeys.quiet i hrun hquiet, fun hz => ⟨hzero hz, ?_⟩⟩, fun ev j hs _ => ?_⟩
  · exact hobeys.still (by rw [hrun, hzero hz]; exact le_rfl) hcont
  · rw [hurged.log, if_pos rfl] at hs
    cases hs

/-- `continueClosure` calls the callback again only in the case that `Hasty` looks at, and it leaves
the queues alone. -/
theorem continueClosure_fields (s : EventBase β) (brk : Bool) :
    (continueClosure s brk).activequeues = s.activequeues ∧
    (continueClosure s brk).closure = match brk, s.closure with
      | false, some (ev, k + 1) => some (ev, k)
      | _, _ => none := by
  unfold continueClosure
  cases hcl : s.closure with
  | none => cases brk <;> exact ⟨rfl, hcl⟩
  | some p =>
    obtain ⟨ev, k⟩ := p
    cases brk with
    | true => cases k <;> exact ⟨rfl, rfl⟩
    | false => cases k <;> exact ⟨rfl, rfl⟩

theorem Strict.of_none (h : t.started = none) : Strict t := by
  intro ev i hs
  cases h.symm.trans hs

/-- A callback returned, and the loop looks at what to do next. -/
theorem LoopInv.goOn (hlimits : t.limits.Positive) (hfront : Front t.base)
    (hpc : t.pc = .callback i count) (hat : t.At) (hstarted : t.started = none) (brk : Bool) :
    let t' := if brk then t.done
      else if count ≥ t.maxToProcess i then t.returned i count
      else if count ≠ 0 ∧ t.timeUp i then t.returned i count
      else if t.base.eventContinue then t.returned i count
      else { t with pc := .queue i count }
    LoopInv t' ∧ t'.started = none := by
  unfold LoopState.At at hat
  rw [hpc] at hat
  obtain ⟨hrun, hquiet, hzero⟩ := hat
  have hreturned : count ≠ 0 →
      LoopInv (t.returned i count) ∧ (t.returned i count).started = none := fun hc =>
    ⟨LoopInv.returned hlimits hfront fun h => absurd h hc,
      (LoopState.started_returned t i count).trans hstarted⟩
  split
  · exact ⟨LoopInv.done hlimits hfront, hstarted⟩
  split
  · next hmax =>
    refine hreturned fun hc => ?_
    -- nothing has been counted, so the limit is 0
    obtain ⟨rfl, _⟩ := hzero hc
    subst hc
    unfold LoopState.maxToProcess at hmax
    rcases hlimits with hpos | hpos
    · split at hmax
      · exact absurd hmax (by decide)
      · omega
    · rw [if_pos hpos] at hmax
      exact absurd hmax (by decide)
  · split
    · next htime => exact hreturned htime.1
    split
    · next hcont =>
      refine hreturned fun hc => ?_
      rw [(hzero hc).2] at hcont
      cases hcont
    · next hcont =>
      exact ⟨⟨hlimits, hfront, hrun, hquiet.resolve_right hcont, by simpa using hcont⟩,
        hstarted⟩

/-- A callback returned. -/
theorem LoopInv.resume (h : LoopInv t) (hpc : t.pc = .callback i count)
    (hstarted : t.started = none) (brk : Bool) :
    LoopInv (t.resume i count brk) ∧ (Strict (t.resume i count brk) ↔ ¬Hasty t (.proceed brk)) := by
  obtain ⟨base0, limits, pc, endtime, started⟩ := t
  subst hpc
  have hat := h.pc
  have hbegun := continueClosure_begun base0 brk
  obtain ⟨hqueues, hcl⟩ := continueClosure_fields base0 brk
  unfold LoopState.resume
  dsimp only
  generalize continueClosure base0 brk = base at hbegun hqueues hcl ⊢
  have hfront := hbegun.front h.front
  have hat' : LoopState.At ⟨base, limits, .callback i count, endtime, started⟩ :=
    ⟨hbegun.running.trans hat.1, hat.2.1.imp hbegun.undisturbed hbegun.cont.trans,
      fun hc => ⟨(hat.2.2 hc).1, hbegun.cont.trans (hat.2.2 hc).2⟩⟩
  have hinit : ∀ e, (base.evs e).evFlags.init = (base0.evs e).evFlags.init := fun e =>
    congrArg Prod.fst (hbegun.face e)
  have hquiet : Undisturbed base i ↔ Undisturbed base0 i := by
    unfold Undisturbed
    simp only [hqueues, hinit]
  have hgo := LoopInv.goOn (t := ⟨base, limits, .callback i count, endtime, started⟩) h.limits
    hfront rfl hat' hstarted brk
  rw [hcl]
  unfold Hasty
  cases brk with
  | true => exact ⟨hgo.1, iff_of_true (Strict.of_none hgo.2) id⟩
  | false =>
    cases hold : base0.closure with
    | none => exact ⟨hgo.1, iff_of_true (Strict.of_none hgo.2) id⟩
    | some p =>
      obtain ⟨ev, k⟩ := p
      cases k with
      | zero => exact ⟨hgo.1, iff_of_true (Strict.of_none hgo.2) id⟩
      | succ k =>
        refine ⟨⟨h.limits, hfront, hat'⟩, ?_⟩
        rw [not_and, not_not, ← hquiet, ← hinit]
        constructor
        · exact fun hs => hs ev i rfl
        intro hs ev' j heq
        cases heq
        exact hs

/-- One action keeps the invariant, and is strict unless it is hasty. -/
theorem loopStep_strict (h : LoopInv t) {a : LoopAction} (hlegal : LoopLegal t a) :
    Partly (loopStep debugMode evsel evsigsel t a) fun t' =>
      LoopInv t' ∧ (Strict t' ↔ ¬Hasty t a) := by
  obtain ⟨base, limits, pc, endtime, started⟩ := t
  have hnone : LoopInv ⟨base, limits, pc, endtime, none⟩ := ⟨h.limits, h.front, h.pc⟩
  cases a with
  | act a =>
    suffices hkeep : Partly (eventStep debugMode evsel evsigsel base a) fun base' =>
        LoopInv ⟨base', limits, pc, endtime, none⟩ from
      Yields.map (hkeep.mono fun _ hb => ⟨hb, iff_of_true (Strict.of_none rfl) id⟩)
    -- who makes the call depends on where the loop is
    cases pc with
    | idle =>
      exact (userCall_obeys hlegal).mono fun base' hb =>
        ⟨h.limits, hb.front h.front, hb.running.trans h.pc⟩
    | polling =>
      obtain ⟨hrun, hcont⟩ := h.pc
      refine (loopCall_obeys hlegal hrun).mono fun base' hb => ?_
      exact ⟨h.limits, hb.front h.front, hb.running.trans hrun,
        hb.still (by rw [hrun]; decide) hcont⟩
    | callback i count =>
      obtain ⟨hrun, hquiet, hzero⟩ := h.pc
      have hobeys : Partly (eventStep debugMode evsel evsigsel base a) (Obeys base) := by
        rcases hlegal with hint | ⟨_, huser⟩
        · exact internalCall_obeys hint
        · exact userCall_obeys huser
      refine hobeys.mono fun base' hb =>
        ⟨h.limits, hb.front h.front, hb.running.trans hrun, ?_, fun hc => ?_⟩
      · rcases hquiet with hq | hc
        · exact hb.quiet i hrun hq
        · exact .inr (hb.mono hc)
      · obtain ⟨rfl, hcont⟩ := hzero hc
        exact ⟨rfl, hb.still (by rw [hrun]; exact le_rfl) hcont⟩
    | scan | queue => exact hlegal.elim
  | loopcontinue =>
    refine ⟨⟨h.limits, h.front, ?_⟩, iff_of_true (Strict.of_none rfl) id⟩
    cases pc with
    | idle => exact h.pc
    | callback i count => exact ⟨h.pc.1, .inr rfl, fun hc => absurd hc hlegal⟩
    | polling | scan | queue => exact hlegal.elim
  | iterate =>
    have hrun : base.eventRunningPriority = -1 := by
      rcases hlegal with hpc | hpc
      · cases hpc
        exact h.pc
      · cases hpc
        exact h.pc.1
    exact ⟨⟨h.limits, h.front, hrun, rfl⟩, iff_of_true (Strict.of_none rfl) id⟩
  | process =>
    obtain rfl : pc = .polling := hlegal
    refine ⟨⟨h.limits, h.front, fun j hj => absurd hj (Nat.not_lt_zero j), h.pc.2⟩, ?_⟩
    exact iff_of_true (Strict.of_none rfl) id
  | proceed brk =>
    cases pc with
    | idle | polling =>
      exact ⟨hnone, iff_of_true (Strict.of_none rfl) (by cases brk <;> exact id)⟩
    | scan i =>
      refine ⟨hnone.scan rfl, iff_of_true (Strict.of_none ?_) (by cases brk <;> exact id)⟩
      unfold LoopState.scan
      split
      · split <;> rfl
      · rfl
    | queue i count =>
      refine (LoopInv.next hnone rfl rfl).mono fun t' ht' => ?_
      exact ⟨ht'.1, iff_of_true ht'.2 (by cases brk <;> exact id)⟩
    | callback i count => exact hnone.resume rfl rfl brk

end

/-- In every run of the loop, every action that starts the callback of a `struct event` starts it
while no `struct event` with a smaller priority number is active, exactly unless the action is
hasty. -/
theorem loopRun_strict (debugMode : Bool) (evsel evsigsel : EventOp β) {base : EventBase β}
    {limits : DispatchLimits} (hlimits : limits.Positive) (hfront : Front base)
    (hrunning : base.eventRunningPriority = -1) {as : List LoopAction} {t t' : LoopState β}
    {a : LoopAction}
    (hlegal : Meets (loopStep debugMode evsel evsigsel) LoopLegal
      { base := base, limits := limits } as)
    (hrun : run (loopStep debugMode evsel evsigsel) { base := base, limits := limits } as = .ok t)
    (hnext : LoopLegal t a) (hstep : loopStep debugMode evsel evsigsel t a = .ok t') :
    Strict t' ↔ ¬Hasty t a := by
  have hstart : LoopInv { base := base, limits := limits : LoopState β } :=
    ⟨hlimits, hfront, hrunning⟩
  have hinv : LoopInv t := by
    refine run_invariant (I := LoopInv) (fun u b u' hu hb hs => ?_) hstart hlegal hrun
    exact ((loopStep_strict hu hb).of_ok hs).1
  exact ((loopStep_strict hinv hnext).of_ok hstep).2

/-- A base with two priorities. -/
def twoPriorities : EventBase Unit :=
  EventBase.start 2 { evbase := () }

theorem front_twoPriorities : Front twoPriorities :=
  nofun

/-- The events 1 and 2, with the priorities 0 and 1. -/
def assigned : List LoopAction :=
  [.act (.assign 1 (-1) 0), .act (.prioritySet 1 0), .act (.assign 2 5 EV_SIGNAL),
    .act (.prioritySet 2 1), .act (.add 2 none)]

/-- The signal of event 2 is caught twice, and its callback is about to run. -/
def signalled : List LoopAction :=
  assigned ++ [.iterate, .act (.signalActive 5 2), .process, .proceed false, .proceed false]

/-- An event can be assigned while all queues are empty. -/
theorem idle_of_empty {s : EventBase β} (h : s.activequeues = fun _ => []) (ev : EvId) :
    Idle s ev := by
  intro i hmem
  rw [h] at hmem
  cases hmem

/-- The run `as` is legal and ends in a state with the callback of `ev` started from the queue `i`
while the `struct event` `e` is in the more urgent queue `j`. -/
def Overtakes (limits : DispatchLimits) (as : List LoopAction) (ev : EvId) (i : Nat) (e : EvId)
    (j : Nat) : Prop :=
  Meets (loopStep false idleBackend idleBackend) LoopLegal
    { base := twoPriorities, limits := limits } as ∧
  ∃ s, run (loopStep false idleBackend idleBackend) { base := twoPriorities, limits := limits } as =
      .ok s ∧
    s.started = some (ev, i) ∧ (s.base.evs ev).evFlags.init = true ∧
    j < i ∧ e ∈ s.base.activequeues j ∧ (s.base.evs e).evFlags.init = true

/-- The callback of the signal is started. -/
theorem loopRun_strict_signalled :
    (∃ t, run (loopStep false idleBackend idleBackend) { base := twoPriorities } signalled = .ok t ∧
      ∃ t', loopStep false idleBackend idleBackend t (.proceed false) = .ok t' ∧
        t'.started = some (2, 1)) ∧
    ∀ t t', run (loopStep false idleBackend idleBackend) { base := twoPriorities } signalled =
        .ok t → loopStep false idleBackend idleBackend t (.proceed false) = .ok t' →
      (Strict t' ↔ ¬Hasty t (.proceed false)) := by
  refine ⟨⟨_, rfl, _, rfl, rfl⟩, fun t t' hrun hstep => ?_⟩
  refine loopRun_strict false idleBackend idleBackend (.inl (by decide)) front_twoPriorities rfl
    ?_ hrun trivial hstep
  refine Meets.cons ⟨rfl, idle_of_empty rfl 1⟩ rfl (Meets.cons rfl rfl ?_)
  refine Meets.cons ⟨rfl, idle_of_empty rfl 2⟩ rfl (Meets.cons rfl rfl (Meets.cons trivial rfl ?_))
  refine Meets.cons (.inl rfl) rfl (Meets.cons trivial rfl (Meets.cons rfl rfl ?_))
  exact Meets.cons trivial rfl (Meets.cons trivial rfl trivial)

/-- The callback of the signal event makes event 1 active, and is called a second time before it.
With a `max_callbacks` of 0, the timer of a common timeout is run, and then event 3 before event 1,
which waits behind the timer. -/
theorem strict_lost :
    Overtakes {} (signalled ++ [.proceed false, .act (.active 1 EV_TIMEOUT 1), .proceed false])
      2 1 1 0 ∧
    Overtakes (eventConfigSetMaxDispatchInterval none 0 0)
      [.act (.initCommonTimeout ⟨1, 0⟩ 9), .act (.assign 1 (-1) 0), .act (.prioritySet 1 0),
        .act (.assign 3 (-1) 0), .act (.assign 4 (-1) 0), .act (.add 4 (some ⟨1, 0x50000000⟩)),
        .act (.add 1 (some ⟨1, 1⟩)), .act (.add 3 (some ⟨1, 2⟩)), .iterate, .act (.tick ⟨2, 0⟩),
        .act .timeoutProcess, .process, .proceed false, .proceed false, .proceed false,
        .proceed false, .proceed false] 3 1 1 0 := by
  constructor
  · refine ⟨?_, _, rfl, rfl, rfl, by decide, by decide, rfl⟩
    refine Meets.cons ⟨rfl, idle_of_empty rfl 1⟩ rfl (Meets.cons rfl rfl ?_)
    refine Meets.cons ⟨rfl, idle_of_empty rfl 2⟩ rfl
      (Meets.cons rfl rfl (Meets.cons trivial rfl ?_))
    refine Meets.cons (.inl rfl) rfl (Meets.cons trivial rfl (Meets.cons rfl rfl ?_))
    refine Meets.cons trivial rfl (Meets.cons trivial rfl (Meets.cons trivial rfl ?_))
    exact Meets.cons (.inr ⟨by decide, trivial⟩) rfl (Meets.cons trivial rfl trivial)
  refine ⟨?_, _, rfl, rfl, rfl, by decide, by decide, rfl⟩
  refine Meets.cons (idle_of_empty rfl 9) rfl (Meets.cons ⟨rfl, idle_of_empty rfl 1⟩ rfl ?_)
  refine Meets.cons rfl rfl (Meets.cons ⟨rfl, idle_of_empty rfl 3⟩ rfl ?_)
  refine Meets.cons ⟨rfl, idle_of_empty rfl 4⟩ rfl (Meets.cons trivial rfl ?_)
  refine Meets.cons trivial rfl (Meets.cons trivial rfl (Meets.cons (.inl rfl) rfl ?_))
  refine Meets.cons trivial rfl (Meets.cons trivial rfl (Meets.cons rfl rfl ?_))
  refine Meets.cons trivial rfl (Meets.cons trivial rfl (Meets.cons trivial rfl ?_))
  exact Meets.cons trivial rfl (Meets.cons trivial rfl trivial)

end Libevent
