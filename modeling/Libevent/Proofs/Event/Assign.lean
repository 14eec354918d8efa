import Libevent.Proofs.Event.Timeouts

/-!
# `Libevent.Proofs.Event.Assign`: events that are written afresh

`event_assign`, `event_priority_set`, `event_deferred_cb_init_` and
`event_base_init_common_timeout` write events that are on no structure. The last one also adds
a list, with its timer (`eventBaseInitCommonTimeout_yields`).
-/

namespace Libevent

open Lib

variable {β : Type} {s s' : EventBase β} {ev : EvId} {e' : Event} {duration : Timeval} {addr : EvId}
  {b : Bool}

/-! ### Events on no structure -/

theorem Unqueued.weight_eq (h : Unqueued s ev) : weight (s.evs ev) = 0 := by
  obtain ⟨ht, hi, ha, hl⟩ := h
  simp [weight, ht, hi, ha, hl]

/-- The map does not know an event on no structure. -/
theorem MapInv.replace (h : MapInv s.evs s.evmap) (hu : Unqueued s ev)
    (hi' : e'.evFlags.inserted = false) : MapInv (upd s.evs ev e') s.evmap := by
  have hi := hu.2.1
  refine h.congr (upd_congr (fun e => e.evFlags.inserted) (hi'.trans hi.symm)) fun x hx => ?_
  have hne : x ≠ ev := fun heq => by rw [heq, hi] at hx; cases hx
  rw [upd_ne _ _ hne]
  exact ⟨rfl, rfl⟩

/-- What holds of an event without flags, `EVLIST_INIT` apart. -/
theorem EventOk.blank {e : Event} (hfl : e.evFlags = { init := b })
    (hfinal : e.evClosure.isFinal = true → isSignal e.evEvents = true ∧ isIo e.evEvents = true)
    (hplain : b = false → e.evEvents = 0 ∧ e.evClosure ≠ .eventPersist) : EventOk e := by
  refine ⟨?_, ?_, ?_, fun hf => .inr (hfinal hf), ?_, ?_⟩
  · simp [hfl]
  · simp [Event.queued, hfl]
  · simp [hfl]
  · simpa [hfl] using hplain
  · simp [hfl]

/-- An event on no structure is replaced by one without flags. -/
theorem Inv.replace (h : Inv s) (hu : Unqueued s ev) (hint : s.External ev)
    (hfl : e'.evFlags = { init := b }) (hpri : e'.evPri < s.nactivequeues)
    (htv : TvOk s.commonTimeoutQueues.length e'.evTimeout) (hok : EventOk e') :
    Inv (s.setEv ev e') where
  time := h.time.setIdle hu.1 (by rw [hfl]) htv
  act := h.act.setIdle hu.2.2.1 (by rw [hfl]) (by rw [hfl, hu.2.2.2]) hpri
  map := h.map.replace hu (by rw [hfl])
  count := h.count.congr (upd_congr weight (by rw [hu.weight_eq]; simp [weight, hfl]))
  ev := forall_upd EventOk h.ev hok
  timers := h.timers.congr (upd_congr (fun e => e.evFlags.internal) (by rw [hfl, hint]))
  now := h.now

/-- The deadlines do not depend on an event that is no timer and in no list. -/
theorem DeadlineAt.of_idle {i : Nat} (h : DeadlineAt s i) (hinv : Inv s)
    (hint : s.External ev) (ht : (s.evs ev).evFlags.timeout = false)
    (hqueues : s'.commonTimeoutQueues[i]? = s.commonTimeoutQueues[i]?)
    (hevs : ∀ x, x ≠ ev → s'.evs x = s.evs x) : DeadlineAt s' i := by
  intro c head hc hhead
  rw [hqueues] at hc
  have hne : head ≠ ev := fun heq =>
    hinv.time.not_mem_common ht (List.mem_of_getElem? hc) (heq ▸ List.mem_of_mem_head? hhead)
  rw [hevs _ (hinv.timer_ne hc hint), hevs _ hne]
  exact h c head hc hhead

theorem Sound.replace (h : Sound none s) (hu : Unqueued s ev)
    (hint : s.External ev) (hfl : e'.evFlags = { init := b })
    (hpri : e'.evPri < s.nactivequeues) (htv : TvOk s.commonTimeoutQueues.length e'.evTimeout)
    (hok : EventOk e')
    (hp : PersistOk s.commonTimeoutQueues.length e') : Sound none (s.setEv ev e') := by
  exact ⟨h.inv.replace hu hint hfl hpri htv hok, forall_upd (PersistOk _) h.persist hp,
    fun i hi => (h.deadline i hi).of_idle h.inv hint hu.1 rfl fun x hx => upd_ne _ _ hx⟩

/-- `min_heap_elem_init_` of an event that is not pending on a timeout. -/
theorem TimeInv.clearIdx {evs : EvId → Event} {heap : MinHeap EvId}
    {queues : List CommonTimeoutList} (h : TimeInv evs heap queues)
    (ht : (evs ev).evFlags.timeout = false) : TimeInv evs (heap.clearIdx ev) queues :=
  { h with heap_ok := h.heap_ok.clearIdx (h.not_mem_heap ht) }

/-! ### `event_assign` and its relatives -/

theorem assignClosure_not_final (events : Nat) : (assignClosure events).isFinal = false := by
  unfold assignClosure
  split
  · rfl
  · split <;> rfl

/-- The closure of a persistent event that is not a signal. -/
theorem hasAny_persist_of_assignClosure {events : Nat}
    (h : assignClosure events = .eventPersist) : hasAny events EV_PERSIST = true := by
  unfold assignClosure at h
  split at h
  · cases h
  split at h
  · next hp => exact hp
  · cases h

theorem eventAssign_sound (h : Sound none s) (hint : s.External ev)
    (hu : Unqueued s ev) (fd : Int) (events : Nat) : Sound none (eventAssign s ev fd events).2 := by
  have hn : s.nactivequeues / 2 < s.nactivequeues := by
    have := h.inv.act.pri ev
    omega
  have htv := h.inv.time.tv_ok ev
  unfold eventAssign
  split
  · next hboth =>
    rw [Bool.and_eq_true] at hboth
    exact h.replace hu hint rfl (h.inv.act.pri ev) htv (.blank rfl (fun _ => hboth) nofun)
      ((h.persist ev).congr rfl rfl rfl)
  have hs : Sound none (s.setEv ev { s.evs ev with
      evFd := fd, evEvents := events, evRes := 0, evFlags := { init := true }, evNcalls := 0
      evPncalls := false
      evIoTimeout := if hasAny events EV_PERSIST then {} else (s.evs ev).evIoTimeout
      evClosure := assignClosure events, evPri := s.nactivequeues / 2 }) := by
    refine h.replace hu hint rfl hn htv (.blank rfl (fun hf => ?_) nofun) ?_
    · rw [assignClosure_not_final] at hf
      cases hf
    intro hp
    left
    show (if hasAny events EV_PERSIST = true then _ else _) = _
    rw [if_pos (hasAny_persist_of_assignClosure hp)]
  refine ⟨{ hs.inv with time := hs.inv.time.clearIdx ?_ }, hs.persist, hs.deadline⟩
  rw [EventBase.setEv_evs, upd_self]

theorem eventPrioritySet_sound (h : Sound none s) (ev : EvId) (pri : Int) :
    Sound none (eventPrioritySet s ev pri).2 := by
  unfold eventPrioritySet
  split
  · exact h
  next hact =>
  split
  · exact h
  next hpri =>
  have hact := Bool.eq_false_iff.mpr hact
  have hok := h.inv.ev ev
  refine h.change ⟨?_, ?_, ?_, ?_, ?_, ?_, h.inv.now⟩ rfl rfl
    ((h.persist ev).congr rfl rfl rfl) ⟨rfl, fun _ => id, fun _ => id⟩
  · exact h.inv.time.congr (upd_congr (fun e => e.evFlags.timeout) (by rfl))
      (upd_congr Event.evTimeout (by rfl))
  · exact h.inv.act.setIdle hact hact rfl (by dsimp only; omega)
  · exact h.inv.map.congr (upd_congr (fun e => e.evFlags.inserted) (by rfl)) fun x _ =>
      ⟨upd_congr Event.evEvents (by rfl) x, upd_congr Event.evFd (by rfl) x⟩
  · exact h.inv.count.congr (upd_congr weight (by rfl))
  · exact forall_upd EventOk h.inv.ev
      ⟨hok.finalizing, hok.kind, hok.inserted, hok.final, hok.plain, hok.internal⟩
  · exact h.inv.timers.congr (upd_congr (fun e => e.evFlags.internal) (by rfl))

theorem eventDeferredCbInit_sound (h : Sound none s) (hint : s.External ev)
    (hu : Unqueued s ev) {pri : Nat} (hpri : pri < s.nactivequeues) :
    Sound none (eventDeferredCbInit s ev pri) :=
  h.replace hu hint rfl hpri (.inl (show 0 < 1000000 by decide))
    (.blank rfl nofun fun _ => ⟨rfl, nofun⟩) nofun

/-! ### `event_base_init_common_timeout` -/

/-- The timer of a new list. -/
def newTimer : Event := { evFd := -1, evFlags := { init := true, internal := true } }

/-- The new list of `event_base_init_common_timeout`. -/
def newList (n : Nat) (duration : Timeval) (addr : EvId) : CommonTimeoutList :=
  { duration := ⟨duration.tvSec,
      duration.tvUsec ||| COMMON_TIMEOUT_MAGIC ||| n <<< COMMON_TIMEOUT_IDX_SHIFT⟩
    timeoutEvent := addr }

/-- The base with the event `e` at the address of a new list. -/
def EventBase.withTimer (s : EventBase β) (addr : EvId) (e : Event) : EventBase β :=
  { s.setEv addr e with timeheap := s.timeheap.clearIdx addr }

theorem addCommonTimeout_eq (s : EventBase β) (duration : Timeval) (addr : EvId) :
    addCommonTimeout s duration addr = { s.withTimer addr newTimer with
      commonTimeoutQueues := s.commonTimeoutQueues ++
        [newList s.commonTimeoutQueues.length duration addr] } := by
  have hself : ∀ e, (s.withTimer addr e).evs addr = e := upd_self _ _
  have hset : ∀ e e', (s.withTimer addr e).setEv addr e' = s.withTimer addr e' := by
    intro e e'
    show ({ (s.setEv addr e).setEv addr e' with timeheap := _ } : EventBase β) = _
    rw [EventBase.setEv_setEv]
    rfl
  -- the three writes of the timer, one after another
  have hassign : (eventAssign (s.setEv addr {}) addr (-1) 0).2 = s.withTimer addr
      { evFd := -1, evFlags := { init := true }, evPri := s.nactivequeues / 2 } := by
    unfold eventAssign
    rw [show (s.setEv addr {}).evs addr = {} from upd_self _ _ _]
    exact hset {} _
  have hpri : (eventPrioritySet (s.withTimer addr
      { evFd := -1, evFlags := newTimer.evFlags, evPri := s.nactivequeues / 2 }) addr 0).2 =
      s.withTimer addr newTimer := by
    unfold eventPrioritySet
    rw [hself, hset]
    show (if (0 : Int) < 0 ∨ (0 : Int) ≥ s.nactivequeues then _ else _ : Int × EventBase β).2 = _
    split
    · -- there is no priority 0, but that of the timer is 0 already
      have hzero : s.nactivequeues / 2 = 0 := by omega
      rw [hzero]
      rfl
    · rfl
  unfold addCommonTimeout EventBase.setFlags
  simp only [hassign, hself, hset]
  exact congrArg (fun t : EventBase β => { t with commonTimeoutQueues := t.commonTimeoutQueues ++
    [newList t.commonTimeoutQueues.length duration addr] }) hpri
section
variable {evs : EvId → Event} {heap : MinHeap EvId} {queues : List CommonTimeoutList} {addr : EvId}
  {c : CommonTimeoutList}

/-- A list of the base, or the new one. -/
theorem getElem?_addList {i : Nat} {d : CommonTimeoutList} (h : (queues ++ [c])[i]? = some d) :
    queues[i]? = some d ∨ i = queues.length ∧ d = c := by
  rw [List.getElem?_append] at h
  split at h
  · exact .inl h
  rw [List.getElem?_singleton] at h
  split at h
  · cases h
    exact .inr ⟨by omega, rfl⟩
  · cases h

/-- One more list, without events. -/
theorem TimeInv.addList (h : TimeInv evs heap queues) (hc : c.events = []) :
    TimeInv evs heap (queues ++ [c]) := by
  have hlen : (queues ++ [c]).length = queues.length + 1 := by simp
  have hcommon : ∀ x, isCommonTimeout (evs x).evTimeout (queues ++ [c]).length =
      isCommonTimeout (evs x).evTimeout queues.length := fun x =>
    (h.tv_ok x).isCommon_eq (by omega)
  refine ⟨h.heap_ok, fun x => by rw [hcommon]; exact h.heap_mem x, fun i d hd x => ?_,
    fun d hd => ?_, fun d hd => ?_, fun x => (h.tv_ok x).mono (by omega)⟩
  · rw [hcommon]
    rcases getElem?_addList hd with hd | ⟨rfl, rfl⟩
    · exact h.common_mem i d hd x
    -- the new list is empty, and no event has its index
    rw [hc]
    refine ⟨nofun, fun ⟨_, hcx, hidx⟩ => ?_⟩
    have := ((isCommonTimeout_iff _ _).mp hcx).2
    rw [commonTimeoutIdx_eq] at hidx
    omega
  · rcases List.mem_append.mp hd with hd | hd
    · exact h.common_nodup d hd
    · rw [List.mem_singleton.mp hd, hc]; exact List.nodup_nil
  · rcases List.mem_append.mp hd with hd | hd
    · exact h.common_sorted d hd
    · rw [List.mem_singleton.mp hd, hc]; exact List.Pairwise.nil

/-- One more list, with its timer. -/
theorem TimerInv.addList (h : TimerInv evs queues) (haddr : (evs addr).evFlags.internal = false)
    (he' : e'.evFlags.internal = true) (hc : c.timeoutEvent = addr)
    (hmax : queues.length ≠ MAX_COMMON_TIMEOUTS) (hdur : isCommonTimeout c.duration (queues.length +
      1) = true ∧ commonTimeoutIdx c.duration = queues.length ∧ c.duration.tvUsec % 2 ^ 20 ≤ 1000000
      ∧ c.duration.tvUsec < 2 ^ 32) : TimerInv (upd evs addr e') (queues ++ [c]) := by
  have hlen : (queues ++ [c]).length = queues.length + 1 := by simp
  have hne : ∀ d ∈ queues, d.timeoutEvent ≠ addr := fun d hd heq => by
    have := h.timer d hd
    rw [heq, haddr] at this
    cases this
  refine ⟨fun d hd => ?_, ?_, fun e he => ?_, fun i d hd => ?_, ?_⟩
  · rcases List.mem_append.mp hd with hd | hd
    · rw [upd_ne _ _ (hne d hd)]; exact h.timer d hd
    · rw [List.mem_singleton.mp hd, hc, upd_self]; exact he'
  · rw [List.map_append, List.nodup_append]
    refine ⟨h.nodup, List.nodup_singleton _, fun a ha b hb => ?_⟩
    obtain ⟨d, hd, rfl⟩ := List.mem_map.mp ha
    rw [List.map_singleton, List.mem_singleton] at hb
    rw [hb, hc]
    exact hne d hd
  · by_cases hx : e = addr
    · exact ⟨c, by simp, hc.trans hx.symm⟩
    rw [upd_ne _ _ hx] at he
    obtain ⟨d, hd, hde⟩ := h.internal e he
    exact ⟨d, List.mem_append_left _ hd, hde⟩
  · rw [hlen]
    rcases getElem?_addList hd with hd | ⟨rfl, rfl⟩
    · obtain ⟨h1, h2⟩ := h.duration i d hd
      exact ⟨isCommonTimeout_mono (by omega) h1, h2⟩
    · exact hdur
  · have := h.max
    omega

end

/-- The duration of a new list is common, with the index of the list. -/
theorem newList_duration {n : Nat} (hn : n < MAX_COMMON_TIMEOUTS) (hu : duration.tvUsec ≤ 1000000)
    (addr : EvId) :
    let d := (newList n duration addr).duration
    isCommonTimeout d (n + 1) = true ∧ commonTimeoutIdx d = n ∧ d.tvUsec % 2 ^ 20 ≤ 1000000 ∧
      d.tvUsec < 2 ^ 32 := by
  have hn : n < 2 ^ 8 := hn
  have husec : (newList n duration addr).duration.tvUsec =
      5 * 2 ^ 28 + n * 2 ^ 20 + duration.tvUsec := or_magic (by omega) hn
  dsimp only
  rw [isCommonTimeout_iff, commonTimeoutIdx_eq]
  omega

/-- The list that is found or made is a list of the base, and the base is still sound. -/
theorem addCommonTimeout_sound (h : Sound none s) (hflags : (s.evs addr).evFlags = {})
    (hu : duration.tvUsec ≤ 1000000) (hmax : s.commonTimeoutQueues.length ≠ MAX_COMMON_TIMEOUTS) :
    Sound none (addCommonTimeout s duration addr) := by
  have hpri : 0 < s.nactivequeues := by
    have := h.inv.act.pri addr
    omega
  have hlt : s.commonTimeoutQueues.length < MAX_COMMON_TIMEOUTS := by
    have := h.inv.timers.max
    omega
  have hint : (s.evs addr).evFlags.internal = false := by rw [hflags]
  have hq : Unqueued s addr := by simp [Unqueued, hflags]
  have htime : TimeInv (upd s.evs addr newTimer) s.timeheap s.commonTimeoutQueues :=
    h.inv.time.setIdle hq.1 rfl (.inl (show 0 < 1000000 by decide))
  rw [addCommonTimeout_eq]
  refine ⟨⟨(htime.addList rfl).clearIdx (by rw [upd_self]; rfl), ?_, h.inv.map.replace hq rfl, ?_,
    ?_, ?_, h.inv.now⟩, ?_, fun i hi => ?_⟩
  · exact h.inv.act.setIdle hq.2.2.1 rfl hq.2.2.2.symm hpri
  · exact h.inv.count.congr (upd_congr weight (by rw [hq.weight_eq]; rfl))
  · refine forall_upd EventOk h.inv.ev ⟨nofun, nofun, nofun, nofun, nofun, fun _ => ?_⟩
    exact ⟨rfl, rfl, rfl, rfl, rfl, show 0 < 1000000 by decide⟩
  · exact h.inv.timers.addList hint rfl rfl hmax (newList_duration hlt hu addr)
  · exact forall_upd (PersistOk _) (fun x hp =>
      (h.persist x hp).imp_right (And.imp_left fun hd => hd.mono (by simp))) nofun
  · intro c head hc hhead
    rcases getElem?_addList hc with hold | ⟨-, rfl⟩
    · exact (h.deadline i hi).of_idle h.inv hint hq.1 (hc.trans hold.symm)
        (fun x hx => upd_ne _ _ hx) c head hc hhead
    · simp [newList] at hhead

theorem Sound.setMm (h : Sound none s) {mm : Mm} (hmm : mm.Reliable) : Sound none (s.setMm mm) :=
  ⟨h.inv.setMap (h.inv.map.setMm hmm), h.persist, h.deadline⟩

theorem normalDuration_le (s : EventBase β) (duration : Timeval) :
    (normalDuration s duration).tvUsec ≤ 1000000 := by
  unfold normalDuration
  split
  · exact (Nat.mod_lt _ (by decide)).le
  · omega

theorem growCommonTimeouts_spec (h : Sound none s) :
    ∃ s1, growCommonTimeouts s = (true, s1) ∧ Sound none s1 ∧ s1.evs = s.evs ∧
      s1.commonTimeoutQueues = s.commonTimeoutQueues ∧ Frame s s1 := by
  unfold growCommonTimeouts
  split
  · rw [if_pos h.inv.map.mm.alloc_fst]
    have hmm : s.evmap.mm.alloc.2.Reliable := h.inv.map.mm
    exact ⟨_, rfl, (h.setMm hmm).congr rfl h.inv.now, rfl, rfl, rfl, rfl, rfl⟩
  · exact ⟨s, rfl, h, rfl, rfl, Frame.refl s⟩

/-- The list that `event_base_init_common_timeout` finds or makes. -/
theorem findCommonTimeout_spec (h : Sound none s) (hflags : (s.evs addr).evFlags = {})
    (hle : duration.tvUsec ≤ 1000000) :
    ∃ r s', findCommonTimeout s duration addr = (r, s') ∧ Sound none s' ∧
      (∀ tv, r = some tv → s'.isCommon tv = true) ∧ (∀ x, x ≠ addr → s'.evs x = s.evs x) ∧
      Frame s s' := by
  unfold findCommonTimeout
  cases hfind : s.commonTimeoutQueues.find? fun ctl => duration.tvSec == ctl.duration.tvSec &&
      duration.tvUsec == ctl.duration.tvUsec &&& MICROSECONDS_MASK with
  | some ctl =>
    obtain ⟨i, hi⟩ := List.getElem?_of_mem (List.mem_of_find?_eq_some hfind)
    have hcommon : s.isCommon ctl.duration = true := (h.inv.timers.duration i ctl hi).1
    exact ⟨_, s, rfl, h, by rintro _ ⟨⟩; exact hcommon, fun _ _ => rfl, Frame.refl s⟩
  | none =>
    dsimp only
    split
    · exact ⟨none, s, rfl, h, nofun, fun _ _ => rfl, Frame.refl s⟩
    next hmax =>
    obtain ⟨s1, hgrow, h1, hevs1, hqueues1, hframe1⟩ := growCommonTimeouts_spec h
    rw [hgrow]
    dsimp only
    rw [if_pos h1.inv.map.mm.alloc_fst]
    set s2 := s1.setMm s1.evmap.mm.alloc.2
    have h2 : Sound none s2 := h1.setMm h1.inv.map.mm
    have hflags2 : (s2.evs addr).evFlags = {} := by
      show (s1.evs addr).evFlags = {}
      rw [hevs1, hflags]
    have hmax2 : s2.commonTimeoutQueues.length ≠ MAX_COMMON_TIMEOUTS := by
      show s1.commonTimeoutQueues.length ≠ _
      rw [hqueues1]
      exact hmax
    have hlt : s2.commonTimeoutQueues.length < MAX_COMMON_TIMEOUTS := by
      have := h2.inv.timers.max
      omega
    have h3 := addCommonTimeout_sound h2 hflags2 hle hmax2
    rw [addCommonTimeout_eq] at h3 ⊢
    refine ⟨_, _, rfl, h3, fun tv htv => ?_, fun x hx => ?_, ?_⟩
    · simp only [List.getLast?_append, List.getLast?_singleton, Option.some_or,
        Option.map_some, Option.some.injEq] at htv
      rw [← htv, EventBase.isCommon, EventBase.nCommonTimeouts]
      simpa using (newList_duration hlt hle addr).1
    · show upd s1.evs addr newTimer x = _
      rw [upd_ne _ _ hx, hevs1]
    · exact { hframe1 with }

/-- `event_base_init_common_timeout`. -/
theorem eventBaseInitCommonTimeout_yields {E : Fault → Prop} (h : Sound none s)
    (hflags : (s.evs addr).evFlags = {}) (duration : Timeval) :
    Yields E (eventBaseInitCommonTimeout s duration addr) fun p => Sound none p.2 ∧
      (∀ x, x ≠ addr → p.2.evs x = s.evs x) ∧ Frame s p.2 := by
  obtain ⟨r, s', hrun, hs', hcommon, hevs, hframe⟩ :=
    findCommonTimeout_spec h hflags (normalDuration_le s duration)
  unfold eventBaseInitCommonTimeout
  rw [hrun]
  cases r with
  | none => exact ⟨hs', hevs, hframe⟩
  | some tv =>
    dsimp only
    rw [if_pos (hcommon tv rfl)]
    exact ⟨hs', hevs, hframe⟩

end Libevent
