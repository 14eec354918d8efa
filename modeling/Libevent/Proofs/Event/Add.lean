import Libevent.Proofs.Event.Sound

/-!
# `Libevent.Proofs.Event.Add`: adding events

`event_add_nolock_` keeps `Sound`. For the timer of a common timeout it sets the deadline
(`eventAddNolock_timer`); for an event with a common timeout that becomes the first of its list
it does so through `common_timeout_schedule` (`commonTimeoutSchedule_sound`). What it leaves
alone is `Added`.
-/

namespace Libevent

open Lib

variable {β : Type} {s s' : EventBase β} {ev : EvId} {tv io : Timeval}

/-! ### The parts of `event_add_nolock_` -/

/-- The base after `min_heap_reserve_`. -/
def EventBase.reserved (s : EventBase β) (a : Nat) (mm : Mm) : EventBase β :=
  { s with timeheap := { s.timeheap with a := a } }.setMm mm

theorem Inv.reserved (h : Inv s) {a : Nat} (ha : s.timeheap.n ≤ a) {mm : Mm}
    (hmm : mm.Reliable) : Inv (s.reserved a mm) :=
  { h with
    time := { h.time with heap_ok := ⟨h.time.heap_ok.idx, h.time.heap_ok.order, ha⟩ }
    map := h.map.setMm hmm }

theorem reserveForTimeout_spec (h : Inv s) (ev : EvId) (tv : Option Timeval) :
    ∃ a mm, reserveForTimeout s ev tv = (true, s.reserved a mm) ∧ Inv (s.reserved a mm) := by
  unfold reserveForTimeout
  split
  · obtain ⟨a, mm, hres, hmm, ha⟩ := minHeapReserve_eq s.timeheap h.map.mm (1 + s.timeheap.n)
    rw [hres]
    exact ⟨a, mm, rfl, h.reserved (by omega) hmm⟩
  · exact ⟨s.timeheap.a, s.evmap.mm, rfl, h⟩

/-- The event is active, and not because of a timeout. -/
def Event.stays (e : Event) : Bool := e.evFlags.active && !hasAny e.evRes EV_TIMEOUT

/-- What `dropOldTimeout` does. -/
structure TimeoutDropped (s : EventBase β) (ev : EvId) (s' : EventBase β) : Prop where
  inv : Inv s'
  evs : s'.evs = upd s.evs ev { s.evs ev with
    evFlags := { (s.evs ev).evFlags with timeout := false, active := (s.evs ev).stays } }
  common : s'.commonTimeoutQueues = eraseCommon ev s.commonTimeoutQueues
  frame : Frame s s'

theorem dropOldTimeout_yields (h : Inv s) :
    Yields StaleWrite (dropOldTimeout s ev) (TimeoutDropped s ev) := by
  unfold dropOldTimeout
  dsimp only
  refine Yields.ite_bind (removeTimeout_yields h ev) fun s1 h1 => ?_
  split
  · next hcond =>
    have hself : (s.evs ev).evFlags.active = true ∧ hasAny (s.evs ev).evRes EV_TIMEOUT = true := by
      rw [h1.evs, upd_self] at hcond
      exact Bool.and_eq_true_iff.mp hcond
    rw [Bool.and_eq_true] at hcond
    refine Yields.ite_bind ((abortSignal_yields s1 ev).weaken fun _ => And.left) fun s2 h2 => ?_
    obtain ⟨hrun, hinv⟩ := eventQueueRemoveActive_spec (h2.inv h1.inv)
      (by rw [h2.evs]; exact hcond.1)
    refine Yields.of_eq hrun ⟨hinv, ?_, ?_, ?_⟩
    · rw [EventBase.dropActive_evs, h2.evs, h1.evs, upd_self, upd_upd, Event.stays, hself.1,
        hself.2]
      rfl
    · show s2.commonTimeoutQueues = _
      rw [h2.common, h1.common]
    · have := h1.frame.trans h2.frame
      exact { this with }
  · next hcond =>
    have hstays : (s.evs ev).stays = (s.evs ev).evFlags.active := by
      rw [h1.evs] at hcond
      cases hact : (s.evs ev).evFlags.active <;> simp_all [Event.stays]
    exact ⟨h1.inv, by rw [hstays]; exact h1.evs, h1.common, h1.frame⟩

/-- The deadline depends on the clock and the number of common timeouts. -/
theorem deadline_congr (tv : Timeval) (abs : Bool) (hnow : s'.tvNow = s.tvNow)
    (hlen : s'.commonTimeoutQueues.length = s.commonTimeoutQueues.length) :
    deadline s' tv abs = deadline s tv abs := by
  unfold deadline EventBase.isCommon EventBase.nCommonTimeouts
  rw [hnow, hlen]

/-- The deadline of an event that is not pending on a timeout changes. -/
theorem Inv.setDeadline (h : Inv s) (hflag : (s.evs ev).evFlags.timeout = false)
    (htv : TvOk s.commonTimeoutQueues.length tv)
    (hint : (s.evs ev).evFlags.internal = true → tv.tvUsec < 1000000) :
    Inv (s.setEv ev { s.evs ev with evTimeout := tv }) where
  time := h.time.setIdle hflag hflag htv
  act := h.act.congr (upd_congr (fun e => e.evFlags.active) (by rfl))
    (upd_congr (fun e => e.evFlags.activeLater) (by rfl)) (upd_congr Event.evPri (by rfl))
  map := h.map.congr (upd_congr (fun e => e.evFlags.inserted) (by rfl)) fun x _ =>
    ⟨upd_congr Event.evEvents (by rfl) x, upd_congr Event.evFd (by rfl) x⟩
  count := h.count.congr (upd_congr weight (by rfl))
  ev := by
    have hok := h.ev ev
    refine forall_upd EventOk h.ev
      ⟨hok.finalizing, hok.kind, hok.inserted, hok.final, hok.plain, fun hi => ?_⟩
    obtain ⟨h1, h2, h3, h4, h5, -⟩ := hok.internal hi
    exact ⟨h1, h2, h3, h4, h5, hint hi⟩
  timers := h.timers.congr (upd_congr (fun e => e.evFlags.internal) (by rfl))
  now := h.now

/-- What `event_add_nolock_` does to set the timeout `tv`, up to the scheduling of a common
timeout. -/
structure TimeoutSet (s : EventBase β) (ev : EvId) (tv io : Timeval) (s' : EventBase β) : Prop where
  inv : Inv s'
  evs : s'.evs = upd s.evs ev { s.evs ev with
    evFlags := { (s.evs ev).evFlags with timeout := true, active := (s.evs ev).stays }
    evTimeout := tv, evIoTimeout := io }
  same : SameTimers s.commonTimeoutQueues s'.commonTimeoutQueues
  internal : (s.evs ev).evFlags.internal = true → s'.commonTimeoutQueues = s.commonTimeoutQueues
  deadline : (s.evs ev).evFlags.internal = false → ∀ i, DeadlineAt s i → DeadlineAt s' i ∨
    ∃ c, s'.commonTimeoutQueues[i]? = some c ∧ c.events.head? = some ev
  frame : Frame s s'

theorem TimeoutSet.self (h : TimeoutSet s ev tv io s') : s'.evs ev = { s.evs ev with
    evFlags := { (s.evs ev).evFlags with timeout := true, active := (s.evs ev).stays }
    evTimeout := tv, evIoTimeout := io } := by
  rw [h.evs, upd_self]

/-- The event joins its list or the heap again, with a new deadline. -/
theorem TimeoutDropped.timeoutSet {s0 s1 : EventBase β} (h : Inv s)
    (h0 : s0 = s.setEv ev { s.evs ev with evIoTimeout := io }) (h1 : TimeoutDropped s0 ev s1)
    (hfin : (s.evs ev).evFlags.finalizing = false) (hinit : (s.evs ev).evFlags.init = true)
    (hkind : KindOk (s.evs ev)) (htv : TvOk s.commonTimeoutQueues.length tv)
    (hint : (s.evs ev).evFlags.internal = true → tv.tvUsec < 1000000) :
    ∃ s3, eventQueueInsertTimeout (s1.setEv ev { s1.evs ev with evTimeout := tv }) ev = .ok s3 ∧
      TimeoutSet s ev tv io s3 := by
  have hevs1 := h1.evs
  rw [h0, EventBase.setEv_evs, upd_self, upd_upd] at hevs1
  have hself1 : s1.evs ev = { s.evs ev with
      evFlags := { (s.evs ev).evFlags with timeout := false, active := (s.evs ev).stays }
      evIoTimeout := io } := by
    rw [hevs1, upd_self]
    rfl
  have hcommon1 : s1.commonTimeoutQueues = eraseCommon ev s.commonTimeoutQueues := by
    rw [h1.common, h0]
    rfl
  set s2 := s1.setEv ev { s1.evs ev with evTimeout := tv } with hs2
  have hinv2 : Inv s2 := h1.inv.setDeadline (by rw [hself1])
    (by rw [hcommon1, eraseCommon_length]; exact htv) (by rw [hself1]; exact hint)
  have hself2 : s2.evs ev = { s.evs ev with
      evFlags := { (s.evs ev).evFlags with timeout := false, active := (s.evs ev).stays }
      evTimeout := tv, evIoTimeout := io } := by
    rw [EventBase.setEv_evs, upd_self, hself1]
  obtain ⟨heap, queues, mm, hrun, hinv, hsame, hheads, hnormal⟩ :=
    eventQueueInsertTimeout_spec hinv2
    (by rw [hself2]) (by rw [hself2]; exact hfin) (by rw [hself2]; exact hinit)
    (by rw [hself2]; exact hkind)
  have hsame1 : SameTimers s.commonTimeoutQueues s2.commonTimeoutQueues := by
    show SameTimers _ s1.commonTimeoutQueues
    rw [hcommon1]
    exact sameTimers_eraseCommon ev _
  refine ⟨_, hrun, hinv, ?_, ?_, fun hi => ?_, fun hi i hdl => ?_, ?_⟩
  · rw [EventBase.pushTimeout_evs, hself2]
    show upd (upd s1.evs ev _) ev _ = _
    rw [upd_upd, hevs1, upd_upd]
  · exact Eq.trans hsame hsame1
  · show queues = _
    rw [hnormal (isCommonTimeout_of_lt (by rw [hself2]; exact lt_trans (hint hi) (by decide)) _)]
    show s1.commonTimeoutQueues = _
    rw [hcommon1]
    exact eraseCommon_eq_self fun c hc => h.internal_not_mem hi hc
  · -- the first event of a list is `ev`, or what it was after `ev` left
    by_cases hhead : ∃ c, queues[i]? = some c ∧ c.events.head? = some ev
    · exact .inr hhead
    left
    intro c' head hc' hh
    obtain ⟨c2, hc2, -, htimer⟩ := SameTimers.getElem? hsame hc'
    have hh2 : c2.events.head? = some head := by
      rcases hheads i c2 c' hc2 hc' with heq | heq
      · exact absurd ⟨c', hc', heq⟩ hhead
      · rw [← heq]; exact hh
    have hheadne : head ≠ ev := fun heq => hhead ⟨c', hc', by rw [hh, heq]⟩
    have hdl1 : DeadlineAt s1 i := by
      refine hdl.erase h hi hcommon1 (fun x hx => ?_) ?_
      · rw [hevs1, upd_ne _ _ hx]
      · rw [hself1]
    obtain ⟨c, hc, -, htimer2⟩ := hsame1.getElem? hc2
    have hne : c'.timeoutEvent ≠ ev := by
      rw [htimer, htimer2]
      exact h.timer_ne hc hi
    have hevs3 : ∀ x, x ≠ ev → (s2.pushTimeout ev heap queues mm).evs x = s1.evs x :=
      fun x hx => by
        rw [EventBase.pushTimeout_evs, upd_ne _ _ hx, EventBase.setEv_evs, upd_ne _ _ hx]
    rw [hevs3 _ hne, hevs3 _ hheadne, htimer]
    exact hdl1 c2 head hc2 hh2
  · have hf := h1.frame
    rw [h0] at hf
    exact { hf with }

/-- The part of `event_add_nolock_` that sets the timeout, up to the scheduling. -/
theorem eventAddTimeout_yields
    {schedule : EventBase β → CommonTimeoutList → EvId → Except Fault (EventBase β)}
    {post : EventBase β → Prop} {tv : Timeval} {abs : Bool} (h : Inv s)
    (hfin : (s.evs ev).evFlags.finalizing = false) (hinit : (s.evs ev).evFlags.init = true)
    (hkind : KindOk (s.evs ev)) (htv : TvOk s.commonTimeoutQueues.length (deadline s tv abs))
    (hint : (s.evs ev).evFlags.internal = true → (deadline s tv abs).tvUsec < 1000000)
    (hnext : ∀ s3, TimeoutSet s ev (deadline s tv abs)
      (if (s.evs ev).evClosure = .eventPersist ∧ abs = false then tv else (s.evs ev).evIoTimeout)
        s3 →
      Yields StaleWrite (if s3.isCommon tv = true then
          match s3.commonTimeoutQueues[commonTimeoutIdx (s3.evs ev).evTimeout]? with
          | none => .error .outOfBounds
          | some ctl => if ctl.events.head? = some ev then schedule s3 ctl ev else pure s3
        else pure s3) post) :
    Yields StaleWrite (eventAddTimeout schedule s ev tv abs) post := by
  unfold eventAddTimeout
  dsimp only
  set s0 := if (s.evs ev).evClosure = .eventPersist ∧ abs = false then
    s.setEv ev { s.evs ev with evIoTimeout := tv } else s with hs0
  have h0 : s0 = s.setEv ev { s.evs ev with evIoTimeout :=
      if (s.evs ev).evClosure = .eventPersist ∧ abs = false then tv
      else (s.evs ev).evIoTimeout } := by
    rw [hs0]
    split
    · rfl
    · exact (s.setEv_self ev).symm
  have hinv0 : Inv s0 := by rw [h0]; exact h.alike ⟨rfl, rfl, rfl, rfl, rfl, rfl⟩
  refine (dropOldTimeout_yields hinv0).bind fun s1 h1 => ?_
  have hdl : deadline s1 tv abs = deadline s tv abs := by
    refine deadline_congr tv abs ?_ ?_
    · rw [h1.frame.now, h0]; rfl
    · rw [h1.common, eraseCommon_length, h0]; rfl
  obtain ⟨s3, hrun, hset⟩ := h1.timeoutSet h h0 hfin hinit hkind htv hint
  rw [hdl, hrun]
  exact hnext s3 hset

/-! ### The timers of the common timeouts -/

theorem TimeoutSet.of_reserved {a : Nat} {mm : Mm}
    (h : TimeoutSet (s.reserved a mm) ev tv io s') : TimeoutSet s ev tv io s' :=
  ⟨h.inv, h.evs, h.same, h.internal, h.deadline, { h.frame with }⟩

section
variable {debugMode : Bool} {evsel evsigsel : EventOp β} {abs : Bool}

/-- An event without a mask does not enter the map. -/
theorem eventAddInserted_noMask (hev : (s.evs ev).evEvents = 0) :
    eventAddInserted debugMode evsel evsigsel s ev = .ok (0, s) := by
  unfold eventAddInserted
  rw [hev]
  rfl

/-- `event_add_nolock_` of a timer with an absolute time. -/
theorem eventAddNolock_timer (fuel : Nat) {tv : Timeval} (h : Inv s)
    (hint : (s.evs ev).evFlags.internal = true) (htv : tv.tvUsec < 1000000) :
    Yields StaleWrite (eventAddNolock debugMode evsel evsigsel (fuel + 1) s ev (some tv) true)
      fun p => TimeoutSet s ev tv (s.evs ev).evIoTimeout p.2 := by
  obtain ⟨hinit, hev, hcl, hfin, -, -⟩ := (h.ev ev).internal hint
  have hkind : KindOk (s.evs ev) := fun hs => by
    rw [hev] at hs
    cases hs
  obtain ⟨a, mm, hres, hinv⟩ := reserveForTimeout_spec h ev (some tv)
  rw [eventAddNolock, if_neg (by simp [hfin]), hres]
  dsimp only
  rw [eventAddInserted_noMask (s := s.reserved a mm) hev]
  show Yields StaleWrite (eventAddTimeout _ (s.reserved a mm) ev tv true >>= fun s => pure (0, s)) _
  refine Yields.bind_pure ?_
  refine eventAddTimeout_yields hinv hfin hinit hkind (.inl htv) (fun _ => htv) fun s3 h3 => ?_
  rw [if_neg (by simp)] at h3
  rw [if_neg]
  · exact h3.of_reserved
  · rw [EventBase.isCommon, isCommonTimeout_of_lt (by omega)]
    decide

/-- What scheduling the timer `t` of a common timeout leaves alone. -/
structure Scheduled (s : EventBase β) (t : EvId) (s' : EventBase β) : Prop where
  evs : ∀ x, x ≠ t → s'.evs x = s.evs x
  internal : (s'.evs t).evFlags.internal = (s.evs t).evFlags.internal
  frame : Frame s s'

/-- `common_timeout_schedule` for the first event of a list. -/
theorem schedule_yields (fuel : Nat) {i : Nat} {c : CommonTimeoutList} {head : EvId}
    (h : Sound (some i) s) (hc : s.commonTimeoutQueues[i]? = some c)
    (hhead : c.events.head? = some head) :
    Yields StaleWrite (eventAddNolock debugMode evsel evsigsel (fuel + 1) s c.timeoutEvent
        (some (s.evs head).evTimeout.masked) true)
      fun p => Sound none p.2 ∧ Scheduled s c.timeoutEvent p.2 := by
  have hint := h.inv.timer_internal hc
  refine (eventAddNolock_timer fuel h.inv hint (h.inv.time.tv_ok head).masked_lt).mono ?_
  rintro ⟨r, s'⟩ hset
  have hevs := hset.evs
  have hqueues := hset.internal hint
  have hne : ∀ x, x ≠ c.timeoutEvent → s'.evs x = s.evs x := fun x hx => by
    rw [hevs, upd_ne _ _ hx]
  have hself := hset.self
  refine ⟨⟨hset.inv, ?_, fun j _ => ?_⟩, hne, by rw [hself], hset.frame⟩
  · rw [hqueues, hevs]
    -- a timer is not persistent
    refine forall_upd (PersistOk _) h.persist fun hp => ?_
    cases hp.symm.trans ((h.inv.ev c.timeoutEvent).internal hint).2.2.1
  by_cases hij : i = j
  · subst hij
    intro d hd' hd hhd
    rw [hqueues] at hd
    cases hc.symm.trans hd
    cases hhead.symm.trans hhd
    have hheadne : head ≠ c.timeoutEvent := fun heq =>
      h.inv.internal_not_mem hint (List.mem_of_getElem? hc) (heq ▸ List.mem_of_mem_head? hhead)
    right
    show (s'.evs c.timeoutEvent).evFlags.timeout = true ∧
      timeKey (s'.evs c.timeoutEvent).evTimeout ≤ timeKey (s'.evs head).evTimeout.masked
    rw [hself, hne head hheadne]
    exact ⟨rfl, le_refl _⟩
  · exact (h.deadline j (by simpa using hij)).of_other h.inv hc (Ne.symm hij) hqueues hne

/-! ### Other events -/

/-- What `event_add` of `ev` leaves alone. -/
structure Added (s : EventBase β) (ev : EvId) (s' : EventBase β) : Prop where
  others : ∀ x, x ≠ ev → (s.evs x).evFlags.internal = false → s'.evs x = s.evs x
  internal : ∀ x, (s'.evs x).evFlags.internal = (s.evs x).evFlags.internal
  res : (s'.evs ev).evRes = (s.evs ev).evRes
  fd : (s'.evs ev).evFd = (s.evs ev).evFd
  frame : Frame s s'

theorem Added.refl (s : EventBase β) (ev : EvId) : Added s ev s :=
  ⟨fun _ _ _ => rfl, fun _ => rfl, rfl, rfl, Frame.refl s⟩

theorem Added.trans {s'' : EventBase β} (h : Added s ev s') (h' : Added s' ev s'') :
    Added s ev s'' where
  others := fun x hx hi => by
    rw [h'.others x hx (by rw [h.internal]; exact hi), h.others x hx hi]
  internal := fun x => by rw [h'.internal, h.internal]
  res := h'.res.trans h.res
  fd := h'.fd.trans h.fd
  frame := h.frame.trans h'.frame

/-- The event enters the map: only its flag `EVLIST_INSERTED` changes. -/
theorem Sound.addInserted (h : Sound none s) (hinv : Inv s') {m : Evmap β}
    (hs' : s' = { s with evmap := m } ∨ s' = s.pushInserted ev m) :
    Sound none s' ∧ Added s ev s' ∧ s'.tvNow = s.tvNow ∧
      s'.commonTimeoutQueues = s.commonTimeoutQueues ∧
      ∃ b, s'.evs = upd s.evs ev { s.evs ev with
        evFlags := { (s.evs ev).evFlags with inserted := b } } := by
  rcases hs' with rfl | rfl
  · refine ⟨⟨hinv, h.persist, h.deadline⟩, ⟨fun _ _ _ => rfl, fun _ => rfl, rfl, rfl,
      rfl, rfl, rfl⟩, rfl, rfl, (s.evs ev).evFlags.inserted, (upd_eq_self rfl).symm⟩
  refine ⟨h.setFlags hinv rfl (s.pushInserted_evs ev m) ⟨rfl, fun _ => id, fun _ => id⟩,
    ⟨fun x hx _ => upd_ne _ _ hx, upd_congr (fun e => e.evFlags.internal) (by rfl), ?_, ?_,
      rfl, rfl, rfl⟩, rfl, rfl, true, rfl⟩
  · rw [EventBase.pushInserted_evs, upd_self]
  · rw [EventBase.pushInserted_evs, upd_self]

/-- A timeout that `event_add_nolock_` can set: the deadline is one that the queues can hold,
and in the kind of queue that the timeout says. -/
structure TimeoutOk (s : EventBase β) (e : Event) (tv : Timeval) (abs : Bool) : Prop where
  deadline : TvOk s.commonTimeoutQueues.length (deadline s tv abs)
  common : isCommonTimeout (Libevent.deadline s tv abs) s.commonTimeoutQueues.length =
    isCommonTimeout tv s.commonTimeoutQueues.length
  persist : PersistOk s.commonTimeoutQueues.length { e with
    evTimeout := Libevent.deadline s tv abs
    evIoTimeout := if e.evClosure = .eventPersist ∧ abs = false then tv else e.evIoTimeout }

theorem TimeoutOk.congr {e e' : Event} (h : TimeoutOk s e tv abs) (hnow : s'.tvNow = s.tvNow)
    (hqueues : s'.commonTimeoutQueues.length = s.commonTimeoutQueues.length)
    (hcl : e'.evClosure = e.evClosure) (hio : e'.evIoTimeout = e.evIoTimeout) :
    TimeoutOk s' e' tv abs := by
  have hdl := deadline_congr tv abs hnow hqueues
  refine ⟨?_, ?_, ?_⟩
  · rw [hdl, hqueues]; exact h.deadline
  · rw [hdl, hqueues]; exact h.common
  · rw [hdl, hqueues]
    refine h.persist.congr hcl ?_ rfl
    show (if e'.evClosure = .eventPersist ∧ abs = false then tv else e'.evIoTimeout) = _
    rw [hcl, hio]

/-- The event has its new timeout, before the timer of a common timeout is scheduled. -/
theorem TimeoutSet.sound {skip : Option Nat} (hset : TimeoutSet s ev tv io s') (h : Sound none s)
    (hint : s.External ev) (hp : PersistOk s.commonTimeoutQueues.length {
      s.evs ev with evTimeout := tv, evIoTimeout := io }) (hskip : ∀ (i : Nat) c,
      s'.commonTimeoutQueues[i]? = some c → c.events.head? = some ev → skip = some i) :
    Sound skip s' ∧ Added s ev s' := by
  have hevs := hset.evs
  have hself := hset.self
  refine ⟨⟨hset.inv, ?_, fun i hi => ?_⟩, fun x hx _ => by rw [hevs, upd_ne _ _ hx],
    fun x => ?_, by rw [hself], by rw [hself], hset.frame⟩
  · rw [hset.same.length, hevs]
    exact forall_upd (PersistOk _) h.persist (hp.congr rfl rfl rfl)
  · rcases hset.deadline hint i (h.deadline i (by simp)) with hdl | ⟨c, hc, hhead⟩
    · exact hdl
    · exact absurd (hskip i c hc hhead) hi
  · rw [hevs]; exact upd_congr (fun e => e.evFlags.internal) (by rfl) x

theorem Scheduled.added {t : EvId} (h : Scheduled s t s')
    (ht : (s.evs t).evFlags.internal = true) (hint : s.External ev) :
    Added s ev s' := by
  have hne : ∀ x, (s.evs x).evFlags.internal = false → s'.evs x = s.evs x := fun x hx =>
    h.evs x fun heq => by rw [heq, ht] at hx; cases hx
  refine ⟨fun x _ hx => hne x hx, fun x => ?_, by rw [hne ev hint], by rw [hne ev hint], h.frame⟩
  by_cases hx : x = t
  · rw [hx]; exact h.internal
  · rw [h.evs x hx]

/-- The end of `event_add_nolock_`: when the event is the first of its list, the timer of the
list is scheduled. -/
theorem TimeoutSet.finish_yields (fuel : Nat)
    (hset : TimeoutSet s ev (Libevent.deadline s tv abs) io s') (h : Sound none s)
    (hint : s.External ev) (htv : TimeoutOk s (s.evs ev) tv abs) (hio : io =
      if (s.evs ev).evClosure = .eventPersist ∧ abs = false then tv else (s.evs ev).evIoTimeout) :
    Yields StaleWrite (if s'.isCommon tv = true then
        match s'.commonTimeoutQueues[commonTimeoutIdx (s'.evs ev).evTimeout]? with
        | none => .error .outOfBounds
        | some ctl =>
          if ctl.events.head? = some ev then do
            let (_, s) ← eventAddNolock debugMode evsel evsigsel (fuel + 1) s' ctl.timeoutEvent
              (some (s'.evs ev).evTimeout.masked) true
            pure s
          else pure s'
      else pure s') fun s'' => Sound none s'' ∧ Added s ev s'' ∧ s''.evs ev = s'.evs ev := by
  have hp := htv.persist
  rw [← hio] at hp
  have hdl : (s'.evs ev).evTimeout = Libevent.deadline s tv abs := by rw [hset.self]
  have hlen := hset.same.length
  -- `ev` is in a list only when its timeout is common, and then in its own
  have hlist : ∀ (i : Nat) c, s'.commonTimeoutQueues[i]? = some c → c.events.head? = some ev →
      isCommonTimeout tv s'.commonTimeoutQueues.length = true ∧
        commonTimeoutIdx (s'.evs ev).evTimeout = i := by
    intro i c hc hhead
    obtain ⟨-, hcommon, hidx⟩ :=
      (hset.inv.time.common_mem i c hc ev).mp (List.mem_of_mem_head? hhead)
    rw [hdl, hlen, htv.common] at hcommon
    exact ⟨by rw [hlen]; exact hcommon, hidx⟩
  split
  · next hcommon =>
    have hcommon' : isCommonTimeout (s'.evs ev).evTimeout s'.commonTimeoutQueues.length =
        true := by
      rw [hdl, hlen, htv.common, ← hlen]
      exact hcommon
    obtain ⟨c, hc⟩ := getElem?_commonTimeoutIdx hcommon'
    rw [hc]
    dsimp only
    split
    · next hhead =>
      obtain ⟨hs, ha⟩ : Sound (some _) s' ∧ Added s ev s' := hset.sound h hint hp
        fun i c hc hh => congrArg some (hlist i c hc hh).2
      refine Yields.bind (schedule_yields fuel hs hc hhead) fun p hsched => ?_
      have hint' : (s'.evs ev).evFlags.internal = false := by rw [ha.internal]; exact hint
      exact ⟨hsched.1, ha.trans (hsched.2.added (hset.inv.timer_internal hc) hint'),
        hsched.2.evs ev (hset.inv.timer_ne hc hint').symm⟩
    next hhead =>
    refine (and_assoc.mp ⟨hset.sound h hint hp fun i c' hc' hh => ?_, rfl⟩)
    obtain ⟨-, hidx⟩ := hlist i c' hc' hh
    rw [hidx, hc'] at hc
    cases hc
    exact absurd hh hhead
  · next hcommon =>
    exact and_assoc.mp ⟨hset.sound h hint hp fun i c hc hh => absurd (hlist i c hc hh).1 hcommon,
      rfl⟩

/-- The flags after an `event_add_nolock_` that did not fail, with a timeout (`timed`) or without.
-/
def Event.addedFlags (e : Event) (timed : Bool) : EvFlags :=
  { e.evFlags with
    inserted := e.evFlags.inserted || e.enters
    timeout := e.evFlags.timeout || timed
    active := e.evFlags.active && !(timed && hasAny e.evRes EV_TIMEOUT) }

/-- `event_add_nolock_` of an event that is not a timer. -/
theorem eventAddNolock_yields (hsel : evsel.NoFault) (hsig : evsigsel.NoFault) (fuel : Nat)
    {tv : Option Timeval} (h : Sound none s) (hint : s.External ev)
    (hinit : (s.evs ev).evFlags.init = true) (hkind : KindOk (s.evs ev))
    (htv : ∀ t, tv = some t → TimeoutOk s (s.evs ev) t abs) :
    Yields StaleWrite (eventAddNolock debugMode evsel evsigsel (fuel + 2) s ev tv abs)
      fun p => Sound none p.2 ∧ Added s ev p.2 ∧ (p.1 ≠ -1 →
        (p.2.evs ev).evFlags = (s.evs ev).addedFlags tv.isSome ∧
          ∀ t, tv = some t → (p.2.evs ev).evTimeout = deadline s t abs) := by
  rw [eventAddNolock]
  split
  · exact ⟨h, Added.refl s ev, fun hne => absurd rfl hne⟩
  next hfin =>
  have hfin := Bool.eq_false_iff.mpr hfin
  obtain ⟨a, mm, hres, hinv⟩ := reserveForTimeout_spec h.inv ev tv
  rw [hres]
  dsimp only
  have hsound0 : Sound none (s.reserved a mm) := ⟨hinv, h.persist, h.deadline⟩
  have hadd0 : Added s ev (s.reserved a mm) :=
    ⟨fun _ _ _ => rfl, fun _ => rfl, rfl, rfl, rfl, rfl, rfl⟩
  obtain ⟨r, s1, hrun, hinv1, hentered, m, hs1⟩ : ∃ r s',
      eventAddInserted debugMode evsel evsigsel (s.reserved a mm) ev = .ok (r, s') ∧ _ :=
    eventAddInserted_spec hsel hsig hinv hfin hkind
  obtain ⟨hsound1, hadd1, hnow1, hqueues1, b, hevs1⟩ := hsound0.addInserted hinv1 hs1
  have hadd1 := hadd0.trans hadd1
  rw [hrun]
  have hself1 : s1.evs ev = { s.evs ev with
      evFlags := { (s.evs ev).evFlags with inserted := b } } := by rw [hevs1, upd_self]; rfl
  have hb : r ≠ -1 → b = ((s.evs ev).evFlags.inserted || (s.evs ev).enters) := by
    intro hr
    have hins := hentered hr
    rw [hself1] at hins
    exact hins
  cases tv with
  | none =>
    refine ⟨hsound1, hadd1, fun hr => ⟨?_, nofun⟩⟩
    simp [hself1, Event.addedFlags, hb hr]
  | some tv =>
    show Yields StaleWrite (if r = -1 then pure (r, s1) else _) _
    split
    · next hr => exact ⟨hsound1, hadd1, fun hne => absurd hr hne⟩
    next hr =>
    have hint1 : (s1.evs ev).evFlags.internal = false := by rw [hself1]; exact hint
    have htv1 : TimeoutOk s1 (s1.evs ev) tv abs :=
      (htv tv rfl).congr (by rw [hnow1]; rfl) (by rw [hqueues1]; rfl) (by rw [hself1])
        (by rw [hself1])
    refine Yields.bind_pure ?_
    refine eventAddTimeout_yields hsound1.inv (by rw [hself1]; exact hfin)
      (by rw [hself1]; exact hinit) (by rw [hself1]; exact hkind) htv1.deadline
      (fun hi => by cases hint1.symm.trans hi) fun s3 h3 => ?_
    have hdl : deadline s1 tv abs = deadline s tv abs :=
      deadline_congr tv abs (by rw [hnow1]; rfl) (by rw [hqueues1]; rfl)
    refine (h3.finish_yields fuel hsound1 hint1 htv1 rfl).mono ?_
    rintro s' ⟨hsound, hadded, hself⟩
    refine ⟨hsound, hadd1.trans hadded, fun _ => ?_⟩
    rw [hself, h3.self, hdl, hself1]
    refine ⟨?_, by rintro t ⟨⟩; rfl⟩
    simp [Event.addedFlags, Event.stays, hb hr]

end

end Libevent
