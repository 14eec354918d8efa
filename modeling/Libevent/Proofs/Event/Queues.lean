import Libevent.Proofs.Event.Inv

/-!
# `Libevent.Proofs.Event.Queues`: the `event_queue_*` functions keep the invariant

One lemma for each function: under the flags that its callers check, it does not fail, it keeps
`Inv`, and the state after it is written out, so that everything else is seen to stay.
-/

namespace Libevent

open scoped BigOperators

variable {β : Type} {s : EventBase β} {ev : EvId} {e e' : Event} {fl : EvFlags}

section
variable (s ev)

@[simp] theorem EventBase.setEv_evs (e : Event) : (s.setEv ev e).evs = upd s.evs ev e := rfl

theorem EventBase.setEv_self : s.setEv ev (s.evs ev) = s := by
  show { s with evs := upd s.evs ev (s.evs ev) } = s
  rw [upd_eq_self rfl]

@[simp] theorem EventBase.setEv_setEv (e e' : Event) :
    (s.setEv ev e).setEv ev e' = s.setEv ev e' := by
  show { s with evs := upd (upd s.evs ev e) ev e' } = _
  rw [upd_upd]
  rfl

end

/-- The new event is on the same structures as the old one. -/
structure Quiet (e e' : Event) : Prop where
  timeout : e'.evFlags.timeout = e.evFlags.timeout
  inserted : e'.evFlags.inserted = e.evFlags.inserted
  active : e'.evFlags.active = e.evFlags.active
  activeLater : e'.evFlags.activeLater = e.evFlags.activeLater
  internal : e'.evFlags.internal = e.evFlags.internal
  deadline : e'.evTimeout = e.evTimeout
  pri : e'.evPri = e.evPri
  events : e'.evEvents = e.evEvents
  fd : e'.evFd = e.evFd

theorem Quiet.queued (h : Quiet e e') : e'.queued = e.queued := by
  unfold Event.queued
  rw [h.timeout, h.inserted, h.active, h.activeLater]

theorem Quiet.weight (h : Quiet e e') : weight e' = weight e := by
  unfold Libevent.weight
  rw [h.timeout, h.inserted, h.active, h.activeLater, h.internal]

/-- A change of one event that its structures do not see. -/
theorem Inv.quiet (h : Inv s) (hq : Quiet (s.evs ev) e') (hok : EventOk e') :
    Inv (s.setEv ev e') where
  time := h.time.congr (upd_congr (fun e => e.evFlags.timeout) hq.timeout)
    (upd_congr Event.evTimeout hq.deadline)
  act := h.act.congr (upd_congr (fun e => e.evFlags.active) hq.active)
    (upd_congr (fun e => e.evFlags.activeLater) hq.activeLater) (upd_congr Event.evPri hq.pri)
  map := h.map.congr (upd_congr (fun e => e.evFlags.inserted) hq.inserted)
    fun x _ => ⟨upd_congr Event.evEvents hq.events x, upd_congr Event.evFd hq.fd x⟩
  count := h.count.congr (upd_congr Libevent.weight hq.weight)
  ev := forall_upd EventOk h.ev hok
  timers := h.timers.congr (upd_congr (fun e => e.evFlags.internal) hq.internal)
  now := h.now

/-- The counter after a change of one event. -/
theorem tally_upd {evs : EvId → Event} {c c' : Int} (h : Lib.Tally (fun x => weight (evs x)) c)
    (hc : c' = c + weight e' - weight (evs ev)) :
    Lib.Tally (fun x => weight (upd evs ev e' x)) c' := by
  have := h.update (g := fun x => weight (upd evs ev e' x)) ev fun x hx => by
    simp only [upd_ne evs e' hx]
  simpa only [hc, upd_self] using this

/-! ### The active queues -/

/-- The length of the queues after one of them is replaced. -/
private theorem sum_length_set {n pri : Nat} (hpri : pri < n) (q : Nat → List EvId)
    (l : List EvId) :
    (∑ i ∈ Finset.range n, (((if i = pri then l else q i).length : Nat) : Int)) =
      (∑ i ∈ Finset.range n, ((q i).length : Int)) + (l.length - (q pri).length) := by
  have hsplit : ∀ i, (((if i = pri then l else q i).length : Nat) : Int) =
      (q i).length + if i = pri then ((l.length : Int) - (q pri).length) else 0 := by
    intro i
    by_cases hi : i = pri
    · rw [if_pos hi, if_pos hi, hi]; ring
    · rw [if_neg hi, if_neg hi]; ring
  simp only [hsplit]
  rw [Finset.sum_add_distrib, Finset.sum_ite_eq', if_pos (Finset.mem_range.mpr hpri)]

section
variable {evs : EvId → Event} {n : Nat} {q : Nat → List EvId} {later : List EvId} {c : Int}

section
variable (h : ActiveInv evs n q later c)
include h

/-- An active event does not become active later. -/
theorem ActiveInv.not_later (hact : (evs ev).evFlags.active = true) :
    (evs ev).evFlags.activeLater = false :=
  Bool.eq_false_iff.mpr fun hlat => h.not_both ev ⟨hact, hlat⟩

theorem ActiveInv.not_active (hlat : (evs ev).evFlags.activeLater = true) :
    (evs ev).evFlags.active = false :=
  Bool.eq_false_iff.mpr fun hact => h.not_both ev ⟨hact, hlat⟩

/-- A change of one event together with its place in the queues. -/
theorem ActiveInv.change {q' : Nat → List EvId} {later' : List EvId} {c' : Int}
    (hpri : e'.evPri < n) (hboth : ¬(e'.evFlags.active = true ∧ e'.evFlags.activeLater = true))
    (hself : ∀ i, ev ∈ q' i ↔ e'.evFlags.active = true ∧ e'.evPri = i)
    (hothers : ∀ i e, e ≠ ev → (e ∈ q' i ↔ e ∈ q i)) (hnodup : ∀ i, (q' i).Nodup)
    (hselfLater : ev ∈ later' ↔ e'.evFlags.activeLater = true)
    (hothersLater : ∀ e, e ≠ ev → (e ∈ later' ↔ e ∈ later)) (hnodupLater : later'.Nodup)
    (hcount : c' = (∑ i ∈ Finset.range n, ((q' i).length : Int)) + later'.length) :
    ActiveInv (upd evs ev e') n q' later' c' := by
  refine ⟨fun i e => ?_, hnodup, fun e => ?_, hnodupLater, fun e => ?_, fun e => ?_, hcount⟩ <;>
    by_cases he : e = ev
  · rw [he, upd_self]; exact hself i
  · rw [upd_ne _ _ he, hothers i e he]; exact h.mem i e
  · rw [he, upd_self]; exact hselfLater
  · rw [upd_ne _ _ he, hothersLater e he]; exact h.later_mem e
  · rw [he, upd_self]; exact hboth
  · rw [upd_ne _ _ he]; exact h.not_both e
  · rw [he, upd_self]; exact hpri
  · rw [upd_ne _ _ he]; exact h.pri e

/-- An event that is not active may change, also in its priority. -/
theorem ActiveInv.setIdle (hact : (evs ev).evFlags.active = false)
    (hact' : e'.evFlags.active = false)
    (hlat' : e'.evFlags.activeLater = (evs ev).evFlags.activeLater) (hpri : e'.evPri < n) :
    ActiveInv (upd evs ev e') n q later c :=
  h.change hpri (by simp [hact']) (fun i => by simp [h.mem, hact, hact']) (fun _ _ _ => Iff.rfl)
    h.nodup (by rw [h.later_mem, hlat']) (fun _ _ => Iff.rfl) h.later_nodup h.count_eq

/-- The queue of `ev` changes with its flag. -/
theorem ActiveInv.setQueue {l : List EvId} {b : Bool} {c' : Int}
    (hboth : ¬(b = true ∧ (evs ev).evFlags.activeLater = true)) (hself : ev ∈ l ↔ b = true)
    (hothers : ∀ e, e ≠ ev → (e ∈ l ↔ e ∈ q (evs ev).evPri)) (hnodup : l.Nodup)
    (hcount : c' = c + (l.length - (q (evs ev).evPri).length)) :
    ActiveInv (updFlags evs ev { (evs ev).evFlags with active := b }) n
      (fun i => if i = (evs ev).evPri then l else q i) later c' := by
  refine h.change (h.pri ev) hboth (fun i => ?_) (fun i e he => ?_) (fun i => ?_)
    (h.later_mem ev) (fun _ _ => Iff.rfl) h.later_nodup ?_
  · by_cases hi : i = (evs ev).evPri
    · simp [hi, hself]
    · simp [hi, h.mem, Ne.symm hi]
  · by_cases hi : i = (evs ev).evPri
    · simp [hi, hothers e he]
    · simp [hi]
  · split
    · exact hnodup
    · exact h.nodup i
  · rw [sum_length_set (h.pri ev), hcount, h.count_eq]
    ring

/-- `TAILQ_INSERT_TAIL` in an active queue. -/
theorem ActiveInv.insert (hact : (evs ev).evFlags.active = false)
    (hlat : (evs ev).evFlags.activeLater = false) :
    ActiveInv (updFlags evs ev { (evs ev).evFlags with active := true }) n
      (fun i => if i = (evs ev).evPri then q (evs ev).evPri ++ [ev] else q i) later (c + 1) := by
  have hout : ev ∉ q (evs ev).evPri := by simp [h.mem, hact]
  exact h.setQueue (by simp [hlat]) (by simp) (fun e he => by simp [he])
    (by simpa using (h.nodup _).concat hout) (by simp)

/-- `TAILQ_REMOVE` from an active queue. -/
theorem ActiveInv.remove (hact : (evs ev).evFlags.active = true) :
    ActiveInv (updFlags evs ev { (evs ev).evFlags with active := false }) n
      (fun i => if i = (evs ev).evPri then (q (evs ev).evPri).erase ev else q i) later (c - 1) := by
  have hin : ev ∈ q (evs ev).evPri := (h.mem _ ev).mpr ⟨hact, rfl⟩
  have hpos : 1 ≤ (q (evs ev).evPri).length := List.length_pos_of_mem hin
  refine h.setQueue (by simp) (by simp [(h.nodup _).mem_erase_iff]) (fun e he => by simp [he])
    ((h.nodup _).erase ev) ?_
  rw [List.length_erase_of_mem hin]
  push_cast [hpos]
  ring

/-- `TAILQ_INSERT_TAIL` in `active_later_queue`. -/
theorem ActiveInv.insertLater (hact : (evs ev).evFlags.active = false)
    (hlat : (evs ev).evFlags.activeLater = false) :
    ActiveInv (updFlags evs ev { (evs ev).evFlags with activeLater := true }) n
      q (later ++ [ev]) (c + 1) := by
  have hout : ev ∉ later := by simp [h.later_mem, hlat]
  refine h.change (h.pri ev) (by simp [hact]) (fun i => h.mem i ev) (fun _ _ _ => Iff.rfl) h.nodup
    (by simp) (fun e he => by simp [he]) (by simpa using h.later_nodup.concat hout) ?_
  rw [h.count_eq, List.length_append, List.length_singleton]
  push_cast
  ring

/-- `TAILQ_REMOVE` from `active_later_queue`. -/
theorem ActiveInv.removeLater (hlat : (evs ev).evFlags.activeLater = true) :
    ActiveInv (updFlags evs ev { (evs ev).evFlags with activeLater := false }) n
      q (later.erase ev) (c - 1) := by
  have hin : ev ∈ later := (h.later_mem ev).mpr hlat
  have hpos : 1 ≤ later.length := List.length_pos_of_mem hin
  refine h.change (h.pri ev) (by simp) (fun i => h.mem i ev) (fun _ _ _ => Iff.rfl) h.nodup
    (by simp [h.later_nodup.mem_erase_iff]) (fun e he => by simp [he])
    (h.later_nodup.erase ev) ?_
  rw [h.count_eq, List.length_erase_of_mem hin]
  push_cast [hpos]
  ring

end

end

/-! ### Flags -/

section
variable (h : EventOk e) (hinit : fl.init = e.evFlags.init)
  (hint : fl.internal = e.evFlags.internal) (hfin : fl.finalizing = e.evFlags.finalizing)
include h hinit hint hfin

/-- New flags for an event: what `EventOk` asks of them. -/
theorem EventOk.setFlags (hidle : fl.finalizing = true → fl.timeout = false ∧ fl.inserted = false)
    (hins : fl.inserted = true → isIo e.evEvents = true ∨ isSignal e.evEvents = true)
    (hkind : KindOk e) (hlater : fl.internal = true → fl.activeLater = false)
    (htime : fl.timeout = e.evFlags.timeout ∨ e.evFlags.init = true) :
    EventOk { e with evFlags := fl } where
  finalizing := hidle
  kind := fun _ => hkind
  inserted := hins
  final := fun hf => (h.final hf).imp_left hfin.trans
  plain := fun hi => by
    have hi' := hinit.symm.trans hi
    obtain ⟨h1, h2, h3⟩ := h.plain hi'
    refine ⟨h1, ?_, h3⟩
    exact (htime.resolve_right (by rw [hi']; decide)).trans h2
  internal := fun hi => by
    obtain ⟨h1, h2, h3, h4, -, h6⟩ := h.internal (hint ▸ hi)
    exact ⟨hinit.trans h1, h2, h3, hfin.trans h4, hlater hi, h6⟩

/-- Fewer flags for an event. -/
theorem EventOk.clear (ht : fl.timeout = true → e.evFlags.timeout = true)
    (hi : fl.inserted = true → e.evFlags.inserted = true)
    (ha : fl.active = true → e.evFlags.active = true)
    (hl : fl.activeLater = true → e.evFlags.activeLater = true) :
    EventOk { e with evFlags := fl } := by
  have hq : ({ e with evFlags := fl } : Event).queued = true → e.queued = true := by
    simp only [Event.queued, Bool.or_eq_true]
    rintro (((h1 | h1) | h1) | h1)
    · exact .inl (.inl (.inl (ht h1)))
    · exact .inl (.inl (.inr (hi h1)))
    · exact .inl (.inr (ha h1))
    · exact .inr (hl h1)
  have hnot : ∀ {a b : Bool}, (a = true → b = true) → b = false → a = false := by decide
  refine ⟨fun hf => ?_, fun hq' => h.kind (hq hq'), fun h1 => h.inserted (hi h1),
    fun hf => (h.final hf).imp_left hfin.trans, fun h1 => ?_, fun h1 => ?_⟩
  · obtain ⟨h1, h2⟩ := h.finalizing (hfin ▸ hf)
    exact ⟨hnot ht h1, hnot hi h2⟩
  · obtain ⟨h1, h2, h3⟩ := h.plain (hinit.symm.trans h1)
    exact ⟨h1, hnot ht h2, h3⟩
  · obtain ⟨h1, h2, h3, h4, h5, h6⟩ := h.internal (hint ▸ h1)
    exact ⟨hinit.trans h1, h2, h3, hfin.trans h4, hnot hl h5, h6⟩

end

/-! ### `event_queue_insert_active` and its relatives -/

namespace EventBase

/-- The base after `event_queue_insert_active`. -/
def pushActive (s : EventBase β) (ev : EvId) : EventBase β :=
  ((s.incrEventCount ev).setFlags ev
    { (s.evs ev).evFlags with active := true }).incrActive.setQueue (s.evs ev).evPri
      (s.activequeues (s.evs ev).evPri ++ [ev])

/-- The base after `event_queue_remove_active`. -/
def dropActive (s : EventBase β) (ev : EvId) : EventBase β :=
  ((s.decrEventCount ev).setFlags ev
    { (s.evs ev).evFlags with active := false }).decrActive.setQueue (s.evs ev).evPri
      ((s.activequeues (s.evs ev).evPri).erase ev)

/-- The base after `event_queue_insert_active_later`. -/
def pushLater (s : EventBase β) (ev : EvId) : EventBase β :=
  { ((s.incrEventCount ev).setFlags ev
      { (s.evs ev).evFlags with activeLater := true }).incrActive with
    activeLaterQueue := s.activeLaterQueue ++ [ev] }

/-- The base after `event_queue_remove_active_later`. -/
def dropLater (s : EventBase β) (ev : EvId) : EventBase β :=
  { ((s.decrEventCount ev).setFlags ev
      { (s.evs ev).evFlags with activeLater := false }).decrActive with
    activeLaterQueue := s.activeLaterQueue.erase ev }

section
variable (s ev)

@[simp] theorem pushActive_evs : (s.pushActive ev).evs =
    upd s.evs ev { s.evs ev with evFlags := { (s.evs ev).evFlags with active := true } } := rfl

@[simp] theorem dropActive_evs : (s.dropActive ev).evs =
    upd s.evs ev { s.evs ev with evFlags := { (s.evs ev).evFlags with active := false } } := rfl

@[simp] theorem pushLater_evs : (s.pushLater ev).evs =
    upd s.evs ev { s.evs ev with evFlags := { (s.evs ev).evFlags with activeLater := true } } := rfl

@[simp] theorem dropLater_evs : (s.dropLater ev).evs =
    upd s.evs ev { s.evs ev with evFlags := { (s.evs ev).evFlags with activeLater := false } } :=
  rfl

end

end EventBase

/-- The flags of `ev` change, and the structures with them. -/
theorem Inv.setFlags (h : Inv s) {s' : EventBase β} (hevs : s'.evs = updFlags s.evs ev fl)
    (hok : EventOk { s.evs ev with evFlags := fl })
    (htime : TimeInv s'.evs s'.timeheap s'.commonTimeoutQueues) (hact : ActiveInv s'.evs
      s'.nactivequeues s'.activequeues s'.activeLaterQueue s'.eventCountActive)
    (hmap : MapInv s'.evs s'.evmap) (hcount : s'.eventCount = s.eventCount + weight { s.evs ev with
      evFlags := fl } - weight (s.evs ev)) (htimers : TimerInv s'.evs s'.commonTimeoutQueues)
    (hnow : s'.tvNow = s.tvNow) : Inv s' where
  time := htime
  act := hact
  map := hmap
  count := by rw [hevs]; exact tally_upd h.count hcount
  ev := by rw [hevs]; exact forall_upd EventOk h.ev hok
  timers := htimers
  now := by rw [hnow]; exact h.now

section
variable {evs : EvId → Event} {fl : EvFlags}

theorem TimeInv.setFlags {heap : MinHeap EvId} {queues : List CommonTimeoutList}
    (h : TimeInv evs heap queues) (htime : fl.timeout = (evs ev).evFlags.timeout) :
    TimeInv (updFlags evs ev fl) heap queues :=
  h.congr (upd_congr (fun e => e.evFlags.timeout) htime) (upd_flags_tv _ _ _)

theorem ActiveInv.setFlags {n : Nat} {q : Nat → List EvId} {later : List EvId} {c : Int}
    (h : ActiveInv evs n q later c) (hact : fl.active = (evs ev).evFlags.active)
    (hlat : fl.activeLater = (evs ev).evFlags.activeLater) :
    ActiveInv (updFlags evs ev fl) n q later c :=
  h.congr (upd_congr (fun e => e.evFlags.active) hact)
    (upd_congr (fun e => e.evFlags.activeLater) hlat) (upd_congr Event.evPri (by rfl))

theorem MapInv.setFlags {m : Evmap β} (h : MapInv evs m)
    (hins : fl.inserted = (evs ev).evFlags.inserted) :
    MapInv (updFlags evs ev fl) m :=
  h.congr (upd_congr (fun e => e.evFlags.inserted) hins) fun x _ =>
    ⟨upd_congr Event.evEvents (by rfl) x, upd_congr Event.evFd (by rfl) x⟩

theorem TimerInv.setFlags {queues : List CommonTimeoutList} (h : TimerInv evs queues)
    (hint : fl.internal = (evs ev).evFlags.internal) :
    TimerInv (updFlags evs ev fl) queues :=
  h.congr (upd_congr (fun e => e.evFlags.internal) hint)

end

theorem eventQueueInsertActive_eq (hact : (s.evs ev).evFlags.active = false)
    (hpri : (s.evs ev).evPri < s.nactivequeues) :
    eventQueueInsertActive s ev = .ok (s.pushActive ev) := by
  rw [eventQueueInsertActive, if_neg (by simp [hact]), if_neg (not_not.mpr hpri)]
  rfl

/-- `event_queue_insert_active` of an event that is not active. -/
theorem eventQueueInsertActive_spec (h : Inv s) (hact : (s.evs ev).evFlags.active = false)
    (hlat : (s.evs ev).evFlags.activeLater = false)
    (hkind : KindOk (s.evs ev)) :
    eventQueueInsertActive s ev = .ok (s.pushActive ev) ∧ Inv (s.pushActive ev) := by
  constructor
  · exact eventQueueInsertActive_eq hact (h.act.pri ev)
  refine h.setFlags (s.pushActive_evs ev) ?_ (h.time.setFlags rfl) (h.act.insert hact hlat)
    (h.map.setFlags rfl) ?_ (h.timers.setFlags rfl) rfl
  · exact (h.ev ev).setFlags rfl rfl rfl (h.ev ev).finalizing (h.ev ev).inserted hkind
      (fun _ => hlat) (.inl rfl)
  show s.eventCount + s.counted ev = _
  unfold EventBase.counted weight
  cases (s.evs ev).evFlags.internal <;> simp [hact, hlat]; ring

/-- `event_queue_remove_active` of an active event. -/
theorem eventQueueRemoveActive_spec (h : Inv s) (hact : (s.evs ev).evFlags.active = true) :
    eventQueueRemoveActive s ev = .ok (s.dropActive ev) ∧ Inv (s.dropActive ev) := by
  have hin : ev ∈ s.activequeues (s.evs ev).evPri := (h.act.mem _ ev).mpr ⟨hact, rfl⟩
  have hlat := h.act.not_later hact
  constructor
  · rw [eventQueueRemoveActive, if_neg (by simp [hact]), if_neg (not_not.mpr hin)]
    rfl
  refine h.setFlags (s.dropActive_evs ev) ?_ (h.time.setFlags rfl) (h.act.remove hact)
    (h.map.setFlags rfl) ?_ (h.timers.setFlags rfl) rfl
  · exact (h.ev ev).clear rfl rfl rfl id id (nofun) id
  show s.eventCount - s.counted ev = _
  unfold EventBase.counted weight
  cases (s.evs ev).evFlags.internal <;> simp [hact, hlat]; ring

/-- `event_queue_insert_active_later` of an event that is not active. -/
theorem eventQueueInsertActiveLater_spec (h : Inv s)
    (hact : (s.evs ev).evFlags.active = false) (hlat : (s.evs ev).evFlags.activeLater = false)
    (hint : s.External ev)
    (hkind : KindOk (s.evs ev)) :
    eventQueueInsertActiveLater s ev = .ok (s.pushLater ev) ∧ Inv (s.pushLater ev) := by
  constructor
  · rw [eventQueueInsertActiveLater, if_neg (by simp [hact, hlat]),
      if_neg (not_not.mpr (h.act.pri ev))]
    rfl
  refine h.setFlags (s.pushLater_evs ev) ?_ (h.time.setFlags rfl) (h.act.insertLater hact hlat)
    (h.map.setFlags rfl) ?_ (h.timers.setFlags rfl) rfl
  · exact (h.ev ev).setFlags rfl rfl rfl (h.ev ev).finalizing (h.ev ev).inserted hkind
      (fun hi => by cases hint.symm.trans hi) (.inl rfl)
  show s.eventCount + s.counted ev = _
  unfold EventBase.counted weight
  simp [hact, hlat, hint]
  ring

/-- `event_queue_remove_active_later` of an event that is to become active. -/
theorem eventQueueRemoveActiveLater_spec (h : Inv s)
    (hlat : (s.evs ev).evFlags.activeLater = true) :
    eventQueueRemoveActiveLater s ev = .ok (s.dropLater ev) ∧ Inv (s.dropLater ev) := by
  have hin : ev ∈ s.activeLaterQueue := (h.act.later_mem ev).mpr hlat
  have hact := h.act.not_active hlat
  constructor
  · rw [eventQueueRemoveActiveLater, if_neg (by simp [hlat]), if_neg (not_not.mpr hin)]
    rfl
  refine h.setFlags (s.dropLater_evs ev) ?_ (h.time.setFlags rfl) (h.act.removeLater hlat)
    (h.map.setFlags rfl) ?_ (h.timers.setFlags rfl) rfl
  · exact (h.ev ev).clear rfl rfl rfl id id id (nofun)
  show s.eventCount - s.counted ev = _
  unfold EventBase.counted weight
  cases (s.evs ev).evFlags.internal <;> simp [hact, hlat]; ring

end Libevent
