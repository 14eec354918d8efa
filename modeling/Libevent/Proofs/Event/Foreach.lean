import Libevent.Proofs.Event.Bookkeeping

/-!
# `Libevent.Proofs.Event.Foreach`: `event_base_foreach_event`

`eventBaseForeachEvent` calls a function on the events of the map, of the time heap, of the
common-timeout lists and of the active queues, in this order (`EventBase.foreachOrder`). To meet no
event twice, the later loops look at the flags.

`eventBaseForeachEvent_once`: the function is called once on each event that is on some structure of
the base and not missed, and on nothing else. Two kinds of events are missed (`Event.missed`). An
event with a negative fd has `EVLIST_INSERTED` when it is added, but it is in no list of the map,
and the later loops take it for one that was met there. And no loop goes over `active_later_queue`.
-/

namespace Libevent

open Lib

variable {β σ : Type} {s : EventBase β} {e : EvId} {f : Nat → List EvId}

/-- The loops of `event_base_foreach_event_nolock_`: calls of `fn`, until one does not return 0. -/
def callAll (fn : σ → EvId → Int × σ) : List EvId → σ → Int × σ
  | [], arg => (0, arg)
  | ev :: l, arg =>
    match fn arg ev with
    | (0, arg) => callAll fn l arg
    | (r, arg) => (r, arg)

namespace EventBase

/-- The events in the order of `evmap_foreach_event_`. -/
def mapEvents (s : EventBase β) : List EvId :=
  (List.range s.evmap.nentries).flatMap (fun fd => (s.evmap.io fd).events) ++
    (List.range s.evmap.sigNentries).flatMap s.evmap.sig

/-- The events of the common-timeout lists. -/
def commonEvents (s : EventBase β) : List EvId :=
  (List.range s.nCommonTimeouts).flatMap fun i =>
    (s.commonTimeoutQueues[i]?.map CommonTimeoutList.events).getD []

/-- The events in the order in which `event_base_foreach_event_nolock_` comes to them. -/
def foreachOrder (s : EventBase β) : List EvId :=
  s.mapEvents ++ s.heapCells.filter (fun ev => !(s.evs ev).evFlags.inserted) ++
    s.commonEvents.filter (fun ev => !(s.evs ev).evFlags.inserted) ++
    ((List.range s.nactivequeues).flatMap s.activequeues).filter fun ev =>
      (s.evs ev).evFlags.init && !(s.evs ev).evFlags.inserted && !(s.evs ev).evFlags.timeout

end EventBase

/-- `event_base_foreach_event`. -/
def eventBaseForeachEvent (s : EventBase β) (fn : σ → EvId → Int × σ) (arg : σ) : Int × σ :=
  callAll fn s.foreachOrder arg

theorem callAll_eq {fn : σ → EvId → Int × σ} (hfn : ∀ arg ev, (fn arg ev).1 = 0) (l : List EvId)
    (arg : σ) : callAll fn l arg = (0, l.foldl (fun arg ev => (fn arg ev).2) arg) := by
  induction l generalizing arg with
  | nil => rfl
  | cons ev l ih =>
    have hzero : fn arg ev = (0, (fn arg ev).2) := Prod.ext (hfn arg ev) rfl
    unfold callAll
    rw [hzero]
    exact ih _

/-- An element that can be in one of the lists only. -/
theorem count_flatMap_range {n k : Nat} {p : Bool} (hnd : ∀ i < n, (f i).Nodup)
    (hmem : ∀ i < n, e ∈ f i ↔ p = true ∧ k = i)
    (hk : p = true → k < n) : ((List.range n).flatMap f).count e = p.toNat := by
  cases p with
  | false => exact List.count_eq_zero.mpr (by simpa using fun i hi => (hmem i hi).not.mpr (by simp))
  | true =>
    have hcount : ∀ m ≤ n, ((List.range m).flatMap f).count e = if k < m then 1 else 0 := by
      intro m
      induction m with
      | zero => simp
      | succ m ih =>
        intro hm
        have hlast : (f m).count e = if k = m then 1 else 0 := by
          split
          · next h => exact List.count_eq_one_of_mem (hnd m hm) ((hmem m hm).mpr ⟨rfl, h⟩)
          · next h => exact List.count_eq_zero.mpr fun he => h ((hmem m hm).mp he).2
        rw [List.range_succ, List.flatMap_append, List.count_append, ih (by omega),
          List.flatMap_singleton, hlast]
        split_ifs <;> omega
    rw [hcount n le_rfl, if_pos (hk rfl)]
    rfl

/-- The lists of a table whose index is the fd, or the signal, of the event. -/
theorem count_table {n : Nat} {inserted kind : Bool} {fd : Int} (hnd : ∀ x, (f x).Nodup)
    (hmem : ∀ x : Nat, e ∈ f x ↔ inserted = true ∧ kind = true ∧ fd = x)
    (hbound : ∀ x, e ∈ f x → x < n) :
    ((List.range n).flatMap f).count e = (inserted && kind && decide (0 ≤ fd)).toNat := by
  have hfd : ∀ x : Nat, fd = x ↔ 0 ≤ fd ∧ fd.toNat = x := fun x => by omega
  refine count_flatMap_range (k := fd.toNat) (fun x _ => hnd x) (fun x _ => ?_) fun hp => ?_
  · rw [hmem, hfd]
    simp only [Bool.and_eq_true, decide_eq_true_eq, and_assoc]
  · simp only [Bool.and_eq_true, decide_eq_true_eq] at hp
    exact hbound _ ((hmem _).mpr ⟨hp.1.1, hp.1.2, (hfd _).mpr ⟨hp.2, rfl⟩⟩)

/-- An event of the map is met there once. -/
theorem Inv.count_mapEvents (h : Inv s) : s.mapEvents.count e =
    ((s.evs e).evFlags.inserted && decide (0 ≤ (s.evs e).evFd)).toNat := by
  have hio := count_table h.map.io_nodup (fun fd => h.map.io_mem fd e) fun fd hmem => by
    refine h.map.io_bound fd ?_
    cases hent : s.evmap.entries fd with
    | some ctx => rfl
    | none => simp [Evmap.io, hent] at hmem
  have hmem : ∀ sig : Nat, e ∈ s.evmap.sig sig ↔ (s.evs e).evFlags.inserted = true ∧
      (!isIo (s.evs e).evEvents) = true ∧ (s.evs e).evFd = sig := fun sig => by
    rw [h.map.sig_mem, Bool.not_eq_true']
  have hsig := count_table h.map.sig_nodup hmem fun sig hmem => by
    refine h.map.sig_bound sig ?_
    cases hent : s.evmap.sigEntries sig with
    | some l => rfl
    | none => simp [Evmap.sig, hent] at hmem
  rw [EventBase.mapEvents, List.count_append, hio, hsig]
  cases isIo (s.evs e).evEvents <;> simp

/-- An event with a timeout is in the heap or in one of the common-timeout lists, once. -/
theorem Inv.count_timeouts (h : Inv s) :
    s.heapCells.count e + s.commonEvents.count e = (s.evs e).evFlags.timeout.toNat := by
  have hcommon : s.commonEvents.count e = ((s.evs e).evFlags.timeout &&
      isCommonTimeout (s.evs e).evTimeout s.commonTimeoutQueues.length).toNat := by
    refine count_flatMap_range (k := commonTimeoutIdx (s.evs e).evTimeout) (fun i hi => ?_)
      (fun i hi => ?_) fun hp => ?_
    · rw [List.getElem?_eq_getElem hi]
      exact h.time.common_nodup _ (List.getElem_mem hi)
    · rw [List.getElem?_eq_getElem hi]
      exact (h.time.common_mem i _ (List.getElem?_eq_getElem hi) e).trans
        (by rw [Bool.and_eq_true, and_assoc])
    · obtain ⟨c, hc⟩ := getElem?_commonTimeoutIdx (Bool.and_eq_true_iff.mp hp).2
      exact (List.getElem?_eq_some_iff.mp hc).1
  have hheap : s.heapCells.count e = ((s.evs e).evFlags.timeout &&
      !isCommonTimeout (s.evs e).evTimeout s.commonTimeoutQueues.length).toNat := by
    have hmem : e ∈ s.heapCells ↔ _ := EventBase.mem_heapCells.trans (h.time.heap_mem e)
    simp only [h.heapCells_nodup.count, hmem]
    cases (s.evs e).evFlags.timeout <;>
      cases isCommonTimeout (s.evs e).evTimeout s.commonTimeoutQueues.length <;> rfl
  rw [hcommon, hheap]
  cases isCommonTimeout (s.evs e).evTimeout s.commonTimeoutQueues.length <;> simp

/-- The events that `event_base_foreach_event` misses. -/
def Event.missed (e : Event) : Bool :=
  e.evFlags.inserted && decide (e.evFd < 0) ||
    e.evFlags.activeLater && !e.evFlags.inserted && !e.evFlags.timeout

/-- How often the walk comes to an event. -/
theorem Inv.count_foreachOrder (h : Inv s) : s.foreachOrder.count e =
    ((s.evs e).evFlags.init && (s.evs e).queued && !(s.evs e).missed).toNat := by
  have hactive : ((List.range s.nactivequeues).flatMap s.activequeues).count e =
      (s.evs e).evFlags.active.toNat :=
    count_flatMap_range (fun i _ => h.act.nodup i) (fun i _ => h.act.mem i e) fun _ => h.act.pri e
  have hfilter : ∀ (l : List EvId) (p : EvId → Bool),
      (l.filter p).count e = if p e then l.count e else 0 := by
    intro l p
    split
    · next hp => exact List.count_filter hp
    · next hp => exact List.count_eq_zero.mpr fun he => hp (List.mem_filter.mp he).2
  -- a callback that is not part of an event has no timeout and is not inserted
  have hplain : (s.evs e).evFlags.init = false →
      (s.evs e).evFlags.timeout = false ∧ (s.evs e).evFlags.inserted = false := fun hinit => by
    obtain ⟨hevents, htimeout, -⟩ := (h.ev e).plain hinit
    refine ⟨htimeout, ?_⟩
    by_contra hins
    simpa [hevents, isIo, isSignal, hasAny] using (h.ev e).inserted (by simpa using hins)
  have htime := h.count_timeouts (e := e)
  have hboth := h.act.not_both e
  simp only [EventBase.foreachOrder, List.count_append, h.count_mapEvents, hfilter, hactive,
    Event.queued, Event.missed]
  cases hins : (s.evs e).evFlags.inserted with
  | true =>
    have hinit : (s.evs e).evFlags.init = true := by
      by_contra hno
      simpa [hins] using hplain (by simpa using hno)
    rcases Int.lt_or_le (s.evs e).evFd 0 with hfd | hfd
    · simp [hfd]
    · simp [hinit, hfd, Int.not_lt.mpr hfd]
  | false =>
    cases htimeout : (s.evs e).evFlags.timeout with
    | true =>
      have hinit : (s.evs e).evFlags.init = true := by
        by_contra hno
        simpa [htimeout] using hplain (by simpa using hno)
      simpa [hinit, htimeout] using htime
    | false =>
      rw [htimeout] at htime
      cases hlater : (s.evs e).evFlags.activeLater with
      | true =>
        have hact : (s.evs e).evFlags.active = false := by simpa [hlater] using hboth
        simpa [hact] using htime
      | false =>
        cases (s.evs e).evFlags.init with
        | true => simp at htime ⊢; omega
        | false => simp at htime ⊢; omega

/-- In every state that a run of legal calls reaches, a function that always returns 0 is called on
the events `l` one after another: once on each event that is added or active and not missed, and on
nothing else. -/
theorem eventBaseForeachEvent_once {debugMode : Bool} {evsel evsigsel : EventOp β}
    (hsel : evsel.NoFault) (hsig : evsigsel.NoFault)
    (hs : EventReached debugMode evsel evsigsel s) :
    ∃ l : List EvId, (∀ e, l.count e =
        if (s.evs e).evFlags.init && (s.evs e).queued && !(s.evs e).missed then 1 else 0) ∧
      ∀ (fn : σ → EvId → Int × σ) (arg : σ), (∀ arg ev, (fn arg ev).1 = 0) →
        eventBaseForeachEvent s fn arg = (0, l.foldl (fun arg ev => (fn arg ev).2) arg) := by
  refine ⟨s.foreachOrder, fun e => ?_, fun fn arg hfn => callAll_eq hfn _ arg⟩
  rw [(hs.sound hsel hsig).inv.count_foreachOrder]
  split
  · next h => rw [h]; rfl
  · next h => rw [Bool.not_eq_true _ |>.mp h]; rfl

/-- A function that writes down what it is called on. -/
def collect (l : List EvId) (ev : EvId) : Int × List EvId := (0, l ++ [ev])

/-- A reader with a timeout, a timer, and an event without an fd. -/
def threeEvents (fd : Int) : List EventAction :=
  [.assign 1 3 EV_READ, .add 1 (some ⟨1, 0⟩), .assign 2 (-1) 0, .add 2 (some ⟨2, 0⟩),
    .assign 3 fd EV_READ, .add 3 (some ⟨3, 0⟩)]

/-- Three events are visited once each. -/
theorem eventBaseForeachEvent_once_threeEvents : ∃ s : EventBase Unit,
    EventReached false idleBackend idleBackend s ∧ (∀ e < 4, (s.evs e).missed = false) ∧
    eventBaseForeachEvent s collect [] = (0, [1, 3, 2]) ∧
    ∃ l : List EvId, eventBaseForeachEvent s collect [] =
      (0, l.foldl (fun l ev => l ++ [ev]) []) := by
  have hs : EventReached false idleBackend idleBackend _ :=
    ⟨1, (), {}, threeEvents 4, by decide, fun _ => rfl, by decide, rfl⟩
  obtain ⟨l, -, hl⟩ := eventBaseForeachEvent_once idleBackend_noFault idleBackend_noFault hs
  exact ⟨_, hs, by decide, rfl, l, hl collect [] fun _ _ => rfl⟩

/-- The event without an fd is pending, and it is not among those that the function is called on. -/
theorem eventBaseForeachEvent_skips : ∃ s : EventBase Unit,
    EventReached false idleBackend idleBackend s ∧ (s.evs 3).evFlags.inserted = true ∧
    (s.evs 3).evFlags.timeout = true ∧ eventBaseForeachEvent s collect [] = (0, [1, 2]) :=
  ⟨_, ⟨1, (), {}, threeEvents (-1), by decide, fun _ => rfl, by decide, rfl⟩, rfl, rfl, rfl⟩

end Libevent
