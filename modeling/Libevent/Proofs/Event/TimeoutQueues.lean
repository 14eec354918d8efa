import Libevent.Proofs.Event.Queues

/-!
# `Libevent.Proofs.Event.TimeoutQueues`: the time heap and the common-timeout lists

`event_queue_insert_timeout` and `event_queue_remove_timeout` keep the invariant.
`insert_common_timeout_inorder` puts the event behind the last one that is not later
(`insertCommonTimeoutInorder_spec`), so the list stays in order.
-/

namespace Libevent

/-- The lists without the event `ev`. -/
def eraseCommon (ev : EvId) (queues : List CommonTimeoutList) : List CommonTimeoutList :=
  queues.map fun c => { c with events := c.events.erase ev }

@[simp] theorem eraseCommon_length (ev : EvId) (queues : List CommonTimeoutList) :
    (eraseCommon ev queues).length = queues.length := List.length_map _

theorem eraseCommon_getElem? (ev : EvId) (queues : List CommonTimeoutList) (i : Nat) :
    (eraseCommon ev queues)[i]? =
      queues[i]?.map fun c => { c with events := c.events.erase ev } := List.getElem?_map

variable {queues : List CommonTimeoutList}

/-- An event that is in no list. -/
theorem eraseCommon_eq_self {ev : EvId}
    (h : ∀ c ∈ queues, ev ∉ c.events) : eraseCommon ev queues = queues := by
  conv_rhs => rw [← List.map_id queues]
  refine List.map_congr_left fun c hc => ?_
  rw [List.erase_of_not_mem (h c hc)]
  rfl

variable {c : CommonTimeoutList} {i : Nat}

section
variable {evs : EvId → Event} {heap : MinHeap EvId} {queues : List CommonTimeoutList} {ev : EvId}

section
variable (h : TimeInv evs heap queues)
include h

/-- An event without `EVLIST_TIMEOUT` is in no list. -/
theorem TimeInv.not_mem_common (hflag : (evs ev).evFlags.timeout = false) (hc : c ∈ queues) :
    ev ∉ c.events := by
  intro hmem
  obtain ⟨i, hi⟩ := List.getElem?_of_mem hc
  have := ((h.common_mem i c hi ev).mp hmem).1
  cases hflag.symm.trans this

/-- An event without `EVLIST_TIMEOUT` is not in the heap. -/
theorem TimeInv.not_mem_heap (hflag : (evs ev).evFlags.timeout = false) : ¬ heap.Mem ev := by
  rw [h.heap_mem, hflag]
  simp

/-- The lists of an event with a common timeout: it is in its own list only. -/
theorem TimeInv.mem_common_idx (hc : queues[i]? = some c) (hmem : ev ∈ c.events) :
    commonTimeoutIdx (evs ev).evTimeout = i :=
  ((h.common_mem i c hc ev).mp hmem).2.2

/-- The event leaves the heap, or its list. -/
theorem TimeInv.remove {heap' : MinHeap EvId} (hok : heap'.Ok fun e => timeKey (evs e).evTimeout)
    (hmem : ∀ x, heap'.Mem x ↔ x ≠ ev ∧ heap.Mem x) :
    TimeInv (upd evs ev { evs ev with evFlags := { (evs ev).evFlags with timeout := false } })
      heap' (eraseCommon ev queues) := by
  refine ⟨by simpa only [upd_flags_tv] using hok, fun x => ?_, fun i c hc x => ?_, fun c hc => ?_,
    fun c hc => ?_, fun x => by rw [upd_flags_tv, eraseCommon_length]; exact h.tv_ok x⟩
  · rw [hmem]
    by_cases hx : x = ev
    · subst hx; simp
    · rw [upd_ne _ _ hx, h.heap_mem]; simp [hx]
  · rw [eraseCommon_getElem?, Option.map_eq_some_iff] at hc
    obtain ⟨c0, hc0, rfl⟩ := hc
    rw [(h.common_nodup c0 (List.mem_of_getElem? hc0)).mem_erase_iff, h.common_mem i c0 hc0]
    by_cases hx : x = ev
    · subst hx; simp
    · rw [upd_ne _ _ hx]; simp [hx]
  · obtain ⟨c0, hc0, rfl⟩ := List.mem_map.mp hc
    exact (h.common_nodup c0 hc0).erase ev
  · obtain ⟨c0, hc0, rfl⟩ := List.mem_map.mp hc
    simpa only [upd_flags_tv] using (h.common_sorted c0 hc0).sublist List.erase_sublist

/-- The event joins the heap. -/
theorem TimeInv.insertHeap (hcommon : isCommonTimeout (evs ev).evTimeout queues.length = false)
    {heap' : MinHeap EvId} (hok : heap'.Ok fun e => timeKey (evs e).evTimeout)
    (hmem : ∀ x, heap'.Mem x ↔ x = ev ∨ heap.Mem x) :
    TimeInv (upd evs ev { evs ev with evFlags := { (evs ev).evFlags with timeout := true } })
      heap' queues := by
  refine ⟨by simpa only [upd_flags_tv] using hok, fun x => ?_, fun i c hc x => ?_, h.common_nodup,
    by simpa only [upd_flags_tv] using h.common_sorted,
      fun x => by rw [upd_flags_tv]; exact h.tv_ok x⟩
  · rw [hmem]
    by_cases hx : x = ev
    · subst hx; simp [hcommon]
    · rw [upd_ne _ _ hx, h.heap_mem]; simp [hx]
  · rw [h.common_mem i c hc]
    by_cases hx : x = ev
    · subst hx; simp [hcommon]
    · rw [upd_ne _ _ hx]

/-- The event joins the list of its common timeout, between `a` and `b`. -/
theorem TimeInv.insertCommon (hflag : (evs ev).evFlags.timeout = false)
    (hcommon : isCommonTimeout (evs ev).evTimeout queues.length = true)
    (hc : queues[commonTimeoutIdx (evs ev).evTimeout]? = some c) {a b : List EvId}
    (hab : c.events = a ++ b) (ha : ∀ x ∈ a, timeKey (evs x).evTimeout ≤ timeKey (evs ev).evTimeout)
    (hb : ∀ x ∈ b, timeKey (evs ev).evTimeout ≤ timeKey (evs x).evTimeout) :
    TimeInv (upd evs ev { evs ev with evFlags := { (evs ev).evFlags with timeout := true } }) heap
      (queues.modify (commonTimeoutIdx (evs ev).evTimeout)
        fun c => { c with events := a ++ ev :: b }) := by
  have hmemc := List.mem_of_getElem? hc
  have hout : ev ∉ c.events := h.not_mem_common hflag hmemc
  -- a list of the new queues is the changed one or an old one
  have hcases : ∀ d ∈ queues.modify (commonTimeoutIdx (evs ev).evTimeout)
      (fun c => { c with events := a ++ ev :: b }),
      d.events = a ++ ev :: b ∨ d ∈ queues := by
    intro d hd
    obtain ⟨j, hj⟩ := List.getElem?_of_mem hd
    rw [List.getElem?_modify] at hj
    obtain ⟨d0, hd0, rfl⟩ := Option.map_eq_some_iff.mp hj
    split
    · exact .inl rfl
    · exact .inr (List.mem_of_getElem? hd0)
  refine ⟨by simpa only [upd_flags_tv] using h.heap_ok, fun x => ?_, fun i d hd x => ?_,
    fun d hd => ?_,
    fun d hd => ?_, fun x => by rw [upd_flags_tv, List.length_modify]; exact h.tv_ok x⟩
  · rw [h.heap_mem, List.length_modify]
    by_cases hx : x = ev
    · subst hx; simp [hcommon]
    · rw [upd_ne _ _ hx]
  · rw [List.length_modify]
    rw [List.getElem?_modify] at hd
    obtain ⟨d0, hd0, rfl⟩ := Option.map_eq_some_iff.mp hd
    by_cases hi : commonTimeoutIdx (evs ev).evTimeout = i
    · subst hi
      cases hc.symm.trans hd0
      have hold := h.common_mem _ c hc x
      rw [hab] at hold
      by_cases hx : x = ev
      · subst hx; simp [hcommon]
      · rw [upd_ne _ _ hx]
        simpa [hx] using hold
    · rw [if_neg hi, h.common_mem i d0 hd0]
      by_cases hx : x = ev
      · subst hx; simp [hi]
      · rw [upd_ne _ _ hx]
  · rcases hcases d hd with hd' | hd'
    · rw [hd']
      have hnodup := h.common_nodup c hmemc
      rw [hab] at hnodup hout
      exact List.nodup_middle.mpr (List.nodup_cons.mpr ⟨hout, hnodup⟩)
    · exact h.common_nodup d hd'
  · simp only [upd_flags_tv]
    rcases hcases d hd with hd' | hd'
    · rw [hd']
      have hsorted := h.common_sorted c hmemc
      rw [hab, List.pairwise_append] at hsorted
      refine List.pairwise_append.mpr ⟨hsorted.1, List.pairwise_cons.mpr ⟨hb, hsorted.2.1⟩, ?_⟩
      intro x hx y hy
      rcases List.mem_cons.mp hy with rfl | hy
      · exact ha x hx
      · exact hsorted.2.2 x hx y hy
    · exact h.common_sorted d hd'

/-- An event that is not pending on a timeout may change, also in its deadline. -/
theorem TimeInv.setIdle (hflag : (evs ev).evFlags.timeout = false) {e' : Event}
    (hflag' : e'.evFlags.timeout = false) (htv : TvOk queues.length e'.evTimeout) :
    TimeInv (upd evs ev e') heap queues := by
  have hheap := h.not_mem_heap hflag
  refine ⟨h.heap_ok.congr_key fun x hx => ?_, fun x => ?_, fun i c hc x => ?_, h.common_nodup,
    fun c hc => ?_, fun x => ?_⟩
  · have hne : x ≠ ev := fun heq => hheap (heq ▸ hx)
    rw [upd_ne _ _ hne]
  · by_cases hx : x = ev
    · subst hx; simp [hheap, hflag']
    · rw [upd_ne _ _ hx]; exact h.heap_mem x
  · by_cases hx : x = ev
    · subst hx; simp [hflag', h.not_mem_common hflag (List.mem_of_getElem? hc)]
    · rw [upd_ne _ _ hx]; exact h.common_mem i c hc x
  · refine (h.common_sorted c hc).imp_of_mem fun {x y} hx hy hle => ?_
    have hne : ∀ z ∈ c.events, z ≠ ev := fun z hz heq => h.not_mem_common hflag hc (heq ▸ hz)
    rwa [upd_ne _ _ (hne x hx), upd_ne _ _ (hne y hy)]
  · by_cases hx : x = ev
    · subst hx; rw [upd_self]; exact htv
    · rw [upd_ne _ _ hx]; exact h.tv_ok x

end

end

/-! ### `insert_common_timeout_inorder` -/

/-- The walk from the tail: `ev` comes right behind the first event that is not later. -/
theorem insertFromTail_spec (evs : EvId → Event) (ev : EvId) (r : List EvId)
    (hsame : ∀ x ∈ r, isSameCommonTimeout (evs x).evTimeout (evs ev).evTimeout = true) :
    ∃ pre post, r = pre ++ post ∧ insertFromTail evs ev r = .ok (pre ++ ev :: post) ∧
      (∀ x ∈ pre, timeKey (evs ev).evTimeout < timeKey (evs x).evTimeout) ∧
      ∀ x, post.head? = some x → timeKey (evs x).evTimeout ≤ timeKey (evs ev).evTimeout := by
  induction r with
  | nil => exact ⟨[], [], rfl, rfl, by simp, by simp⟩
  | cons e es ih =>
    have he := hsame e (by simp)
    unfold insertFromTail
    rw [if_neg (by simp [he])]
    by_cases hge : evutilTimercmpGe (evs ev).evTimeout (evs e).evTimeout = true
    · rw [if_pos hge]
      refine ⟨[], e :: es, rfl, rfl, by simp, fun x hx => ?_⟩
      cases hx
      exact (evutilTimercmpGe_iff _ _).mp hge
    rw [if_neg hge]
    obtain ⟨pre, post, hes, hins, hpre, hpost⟩ := ih fun x hx => hsame x (by simp [hx])
    rw [evutilTimercmpGe_iff, not_le] at hge
    refine ⟨e :: pre, post, by rw [hes]; rfl, by rw [hins]; rfl, fun x hx => ?_, hpost⟩
    rcases List.mem_cons.mp hx with rfl | hx
    · exact hge
    · exact hpre x hx

/-- The event comes behind the last one of the list that is not later. -/
theorem insertCommonTimeoutInorder_spec (evs : EvId → Event) (ev : EvId) (events : List EvId)
    (hsame : ∀ x ∈ events, isSameCommonTimeout (evs x).evTimeout (evs ev).evTimeout = true)
    (hsorted : events.Pairwise fun x y => timeKey (evs x).evTimeout ≤ timeKey (evs y).evTimeout) :
    ∃ a b, events = a ++ b ∧ insertCommonTimeoutInorder evs events ev = .ok (a ++ ev :: b) ∧
      (∀ x ∈ a, timeKey (evs x).evTimeout ≤ timeKey (evs ev).evTimeout) ∧
      ∀ x ∈ b, timeKey (evs ev).evTimeout ≤ timeKey (evs x).evTimeout := by
  obtain ⟨pre, post, hr, hins, hpre, hpost⟩ := insertFromTail_spec evs ev events.reverse
    fun x hx => hsame x (List.mem_reverse.mp hx)
  have hev : events = post.reverse ++ pre.reverse := by
    rw [← List.reverse_append, ← hr, List.reverse_reverse]
  refine ⟨post.reverse, pre.reverse, hev, ?_, fun x hx => ?_, fun x hx => ?_⟩
  · rw [insertCommonTimeoutInorder, hins]
    simp
  · -- the first event behind the walk is the last one of `a`, and the list is in order
    rw [List.mem_reverse] at hx
    cases post with
    | nil => cases hx
    | cons y post =>
      have hy := hpost y rfl
      rcases List.mem_cons.mp hx with rfl | hx
      · exact hy
      · rw [hev, List.pairwise_append, List.reverse_cons, List.pairwise_append] at hsorted
        exact le_trans (hsorted.1.2.2 x (List.mem_reverse.mpr hx) y (by simp)) hy
  · exact (hpre x (List.mem_reverse.mp hx)).le

/-! ### The timers of the lists -/

/-- The lists have the same durations and timers. -/
def SameTimers (queues queues' : List CommonTimeoutList) : Prop :=
  queues'.map (fun c => (c.duration, c.timeoutEvent)) =
    queues.map fun c => (c.duration, c.timeoutEvent)

section
variable {queues queues' : List CommonTimeoutList} (h : SameTimers queues queues')
include h

theorem SameTimers.length : queues'.length = queues.length := by
  have := congrArg List.length h
  rwa [List.length_map, List.length_map] at this

theorem SameTimers.getElem? {c' : CommonTimeoutList} (hc : queues'[i]? = some c') :
    ∃ c, queues[i]? = some c ∧ c'.duration = c.duration ∧ c'.timeoutEvent = c.timeoutEvent := by
  have hi := congrArg (fun l => l[i]?) h
  simp only [List.getElem?_map, hc] at hi
  obtain ⟨c, hc0, heq⟩ := Option.map_eq_some_iff.mp hi.symm
  exact ⟨c, hc0, (congrArg Prod.fst heq).symm, (congrArg Prod.snd heq).symm⟩

theorem SameTimers.timeoutEvents :
    queues'.map CommonTimeoutList.timeoutEvent = queues.map CommonTimeoutList.timeoutEvent := by
  have := congrArg (List.map Prod.snd) h
  rwa [List.map_map, List.map_map] at this

end

theorem sameTimers_eraseCommon (ev : EvId) (queues : List CommonTimeoutList) :
    SameTimers queues (eraseCommon ev queues) := by
  unfold SameTimers eraseCommon
  rw [List.map_map]
  rfl

theorem sameTimers_modify (queues : List CommonTimeoutList) (i : Nat) (events : List EvId) :
    SameTimers queues (queues.modify i fun c => { c with events := events }) := by
  refine List.ext_getElem? fun j => ?_
  rw [List.getElem?_map, List.getElem?_map, List.getElem?_modify]
  cases queues[j]? with
  | none => rfl
  | some c => split <;> rfl

theorem TimerInv.sameTimers {evs : EvId → Event} {queues' : List CommonTimeoutList}
    (h : TimerInv evs queues) (hs : SameTimers queues queues') : TimerInv evs queues' where
  timer := fun c' hc' => by
    obtain ⟨i, hi⟩ := List.getElem?_of_mem hc'
    obtain ⟨c, hc, -, htimer⟩ := hs.getElem? hi
    rw [htimer]
    exact h.timer c (List.mem_of_getElem? hc)
  nodup := by rw [hs.timeoutEvents]; exact h.nodup
  internal := fun e he => by
    have hmem : e ∈ queues'.map CommonTimeoutList.timeoutEvent := by
      rw [hs.timeoutEvents]
      obtain ⟨c, hc, rfl⟩ := h.internal e he
      exact List.mem_map_of_mem hc
    obtain ⟨c, hc, rfl⟩ := List.mem_map.mp hmem
    exact ⟨c, hc, rfl⟩
  duration := fun i c' hc' => by
    obtain ⟨c, hc, hdur, -⟩ := hs.getElem? hc'
    rw [hdur, hs.length]
    exact h.duration i c hc
  max := by rw [hs.length]; exact h.max

/-! ### `event_queue_insert_timeout` and `event_queue_remove_timeout` -/

section
variable {β : Type} {s : EventBase β} {ev : EvId}

namespace EventBase

/-- The base after `event_queue_remove_timeout`, with the heap `heap`. -/
def dropTimeout (s : EventBase β) (ev : EvId) (heap : MinHeap EvId) : EventBase β :=
  { (s.decrEventCount ev).setFlags ev { (s.evs ev).evFlags with timeout := false } with
    timeheap := heap
    commonTimeoutQueues := eraseCommon ev s.commonTimeoutQueues }

/-- The base after `event_queue_insert_timeout`, with new structures. -/
def pushTimeout (s : EventBase β) (ev : EvId) (heap : MinHeap EvId)
    (queues : List CommonTimeoutList) (mm : Mm) : EventBase β :=
  { (s.incrEventCount ev).setFlags ev { (s.evs ev).evFlags with timeout := true } with
    timeheap := heap
    commonTimeoutQueues := queues
    evmap := { s.evmap with mm := mm } }

section
variable (s ev) (heap : MinHeap EvId)
include heap

@[simp] theorem dropTimeout_evs : (s.dropTimeout ev heap).evs =
      upd s.evs ev { s.evs ev with evFlags := { (s.evs ev).evFlags with timeout := false } } := rfl

@[simp] theorem pushTimeout_evs (queues : List CommonTimeoutList) (mm : Mm) :
    (s.pushTimeout ev heap queues mm).evs =
      upd s.evs ev { s.evs ev with evFlags := { (s.evs ev).evFlags with timeout := true } } := rfl

end

end EventBase

/-- The comparison of the heap, when the deadlines are those of `s`. -/
theorem minHeapElemGreater_iff {evs evs' : EvId → Event}
    (h : ∀ x, (evs' x).evTimeout = (evs x).evTimeout) (x y : EvId) :
    minHeapElemGreater evs' x y = true ↔ timeKey (evs y).evTimeout < timeKey (evs x).evTimeout := by
  unfold minHeapElemGreater
  rw [h, h, evutilTimercmpGt_iff]

/-- The list of a common timeout exists. -/
theorem getElem?_commonTimeoutIdx {tv : Timeval}
    (h : isCommonTimeout tv queues.length = true) : ∃ c, queues[commonTimeoutIdx tv]? = some c := by
  have hlt : commonTimeoutIdx tv < queues.length := by
    rw [commonTimeoutIdx_eq]
    exact ((isCommonTimeout_iff _ _).mp h).2
  exact ⟨queues[commonTimeoutIdx tv], List.getElem?_eq_getElem hlt⟩

/-- Only the list that holds the event changes. -/
theorem modify_erase_eq_eraseCommon (hc : queues[i]? = some c)
    (honly : ∀ j d, queues[j]? = some d → ev ∈ d.events → j = i) :
    queues.modify i (fun d => { d with events := c.events.erase ev }) = eraseCommon ev queues := by
  refine List.ext_getElem? fun j => ?_
  rw [List.getElem?_modify, eraseCommon_getElem?]
  cases hd : queues[j]? with
  | none => rfl
  | some d =>
    by_cases hij : i = j
    · subst hij
      cases hc.symm.trans hd
      simp
    · have hout : ev ∉ d.events := fun hm => hij (honly j d hd hm).symm
      simp [hij, List.erase_of_not_mem hout]

/-- `event_queue_remove_timeout` of an event that is pending on a timeout. -/
theorem eventQueueRemoveTimeout_spec (h : Inv s) (hflag : (s.evs ev).evFlags.timeout = true) :
    ∃ heap, eventQueueRemoveTimeout s ev = .ok (s.dropTimeout ev heap) ∧
      Inv (s.dropTimeout ev heap) ∧ (s.timeheap.Mem ev → heap.n < s.timeheap.n) := by
  have htv := upd_flags_tv s.evs ev { (s.evs ev).evFlags with timeout := false }
  -- what is left once the structures are seen to change as they should
  have hinv : ∀ heap : MinHeap EvId, heap.Ok (fun e => timeKey (s.evs e).evTimeout) →
      (∀ x, heap.Mem x ↔ x ≠ ev ∧ s.timeheap.Mem x) → Inv (s.dropTimeout ev heap) := by
    intro heap hok hmem
    refine h.setFlags (s.dropTimeout_evs ev heap)
      ((h.ev ev).clear rfl rfl rfl (nofun) id id id) (h.time.remove hok hmem)
      (h.act.setFlags rfl rfl) (h.map.setFlags rfl) ?_
      ((h.timers.sameTimers (sameTimers_eraseCommon ev _)).setFlags rfl) rfl
    show s.eventCount - s.counted ev = _
    unfold EventBase.counted weight
    cases (s.evs ev).evFlags.internal <;> simp [hflag]; ring
  set s1 := (s.decrEventCount ev).setFlags ev { (s.evs ev).evFlags with timeout := false }
  have hself : (s1.evs ev).evTimeout = (s.evs ev).evTimeout := htv ev
  rw [eventQueueRemoveTimeout, if_neg (by simp [hflag])]
  show ∃ heap, (if s1.isCommon (s1.evs ev).evTimeout then _ else _) = _ ∧ _
  rw [hself]
  cases hcommon : isCommonTimeout (s.evs ev).evTimeout s.commonTimeoutQueues.length with
  | true =>
    obtain ⟨c, hc⟩ := getElem?_commonTimeoutIdx hcommon
    have hin : ev ∈ c.events := (h.time.common_mem _ c hc ev).mpr ⟨hflag, hcommon, rfl⟩
    have hout : ¬ s.timeheap.Mem ev := by
      rw [h.time.heap_mem, hcommon]
      simp
    refine ⟨s.timeheap, ?_, hinv _ h.time.heap_ok fun x => ?_, fun hm => absurd hm hout⟩
    · rw [if_pos (show s1.isCommon _ = true from hcommon),
        show s1.commonTimeoutQueues[_]? = _ from hc]
      simp only [if_neg (not_not.mpr hin)]
      have hmod : _ = eraseCommon ev _ := modify_erase_eq_eraseCommon hc fun j d hd hm =>
        (h.time.mem_common_idx hd hm).symm
      rw [EventBase.dropTimeout, ← hmod]
      rfl
    · exact ⟨fun hm => ⟨fun heq => hout (heq ▸ hm), hm⟩, fun hm => hm.2⟩
  | false =>
    have hin : s.timeheap.Mem ev := (h.time.heap_mem ev).mpr ⟨hflag, hcommon⟩
    obtain ⟨heap, herase, ⟨hok, hn, hmem, -, -⟩⟩ :=
      minHeapErase_spec (minHeapElemGreater_iff htv) h.time.heap_ok hin
    refine ⟨heap, ?_, hinv heap hok hmem, fun _ => by omega⟩
    have hlists : eraseCommon ev s.commonTimeoutQueues = s.commonTimeoutQueues := by
      refine eraseCommon_eq_self fun c hc hm => ?_
      obtain ⟨i, hi⟩ := List.getElem?_of_mem hc
      have := ((h.time.common_mem i c hi ev).mp hm).2.1
      cases hcommon.symm.trans this
    rw [if_neg (show ¬ s1.isCommon _ = true from ne_true_of_eq_false hcommon),
      EventBase.dropTimeout, hlists]
    rw [show minHeapErase (minHeapElemGreater s1.evs) s1.timeheap ev = (true, heap) from herase]
    rfl

/-- The first event of each list is `ev`, or it is the one it was. -/
def HeadsKept (ev : EvId) (queues queues' : List CommonTimeoutList) : Prop :=
  ∀ (i : Nat) (c c' : CommonTimeoutList), queues[i]? = some c → queues'[i]? = some c' →
    c'.events.head? = some ev ∨ c'.events.head? = c.events.head?

theorem HeadsKept.refl (ev : EvId) (queues : List CommonTimeoutList) :
    HeadsKept ev queues queues := by
  intro i c c' hc hc'
  cases hc.symm.trans hc'
  exact .inr rfl

theorem headsKept_modify (hc : queues[i]? = some c) {a b : List EvId} (hab : c.events = a ++ b) :
    HeadsKept ev queues (queues.modify i fun d => { d with events := a ++ ev :: b }) := by
  intro j d d' hd hd'
  rw [List.getElem?_modify, hd] at hd'
  cases hd'
  by_cases hij : i = j
  · subst hij
    cases hc.symm.trans hd
    simp only [hab]
    cases a with
    | nil => exact .inl rfl
    | cons x a => exact .inr rfl
  · simp only [if_neg hij, or_true]

/-- `event_queue_insert_timeout` of an event that is not pending on a timeout. -/
theorem eventQueueInsertTimeout_spec (h : Inv s) (hflag : (s.evs ev).evFlags.timeout = false)
    (hfin : (s.evs ev).evFlags.finalizing = false) (hinit : (s.evs ev).evFlags.init = true)
    (hkind : KindOk (s.evs ev)) :
    ∃ heap queues mm, eventQueueInsertTimeout s ev = .ok (s.pushTimeout ev heap queues mm) ∧
      Inv (s.pushTimeout ev heap queues mm) ∧ SameTimers s.commonTimeoutQueues queues ∧
      HeadsKept ev s.commonTimeoutQueues queues ∧
      (isCommonTimeout (s.evs ev).evTimeout s.commonTimeoutQueues.length = false →
        queues = s.commonTimeoutQueues) := by
  have htv := upd_flags_tv s.evs ev { (s.evs ev).evFlags with timeout := true }
  have hinv : ∀ (heap : MinHeap EvId) (queues : List CommonTimeoutList) (mm : Mm), mm.Reliable →
      SameTimers s.commonTimeoutQueues queues →
      TimeInv (s.pushTimeout ev heap queues mm).evs heap queues →
      Inv (s.pushTimeout ev heap queues mm) := by
    intro heap queues mm hmm hsame htime
    refine h.setFlags (s.pushTimeout_evs ev heap queues mm) ?_ htime (h.act.setFlags rfl rfl)
      ((h.map.setMm hmm).setFlags rfl) ?_ ((h.timers.sameTimers hsame).setFlags rfl) rfl
    · exact (h.ev ev).setFlags rfl rfl rfl (fun hf => by cases hfin.symm.trans hf)
        (h.ev ev).inserted hkind (fun hi => ((h.ev ev).internal hi).2.2.2.2.1) (.inr hinit)
    show s.eventCount + s.counted ev = _
    unfold EventBase.counted weight
    cases (s.evs ev).evFlags.internal <;> simp [hflag]; ring
  set s1 := (s.incrEventCount ev).setFlags ev { (s.evs ev).evFlags with timeout := true }
  have hself : (s1.evs ev).evTimeout = (s.evs ev).evTimeout := htv ev
  rw [eventQueueInsertTimeout, if_neg (by simp [hflag])]
  show ∃ heap queues mm, (if s1.isCommon (s1.evs ev).evTimeout then _ else _) = _ ∧ _
  rw [hself]
  cases hcommon : isCommonTimeout (s.evs ev).evTimeout s.commonTimeoutQueues.length with
  | true =>
    obtain ⟨c, hc⟩ := getElem?_commonTimeoutIdx hcommon
    -- the events of the list have the magic bits of the new one
    have hsame : ∀ x ∈ c.events,
        isSameCommonTimeout (s1.evs x).evTimeout (s1.evs ev).evTimeout = true := by
      intro x hx
      obtain ⟨-, hcx, hidx⟩ := (h.time.common_mem _ c hc x).mp hx
      rw [isSameCommonTimeout_iff, show (s1.evs x).evTimeout = _ from htv x, hself]
      exact (h.time.tv_ok x).same (h.time.tv_ok ev) hcx hcommon hidx
    have hsorted : c.events.Pairwise fun x y =>
        timeKey (s1.evs x).evTimeout ≤ timeKey (s1.evs y).evTimeout := by
      refine (h.time.common_sorted c (List.mem_of_getElem? hc)).imp fun {x y} hxy => ?_
      rwa [show (s1.evs x).evTimeout = _ from htv x, show (s1.evs y).evTimeout = _ from htv y]
    obtain ⟨a, b, hab, hins, ha, hb⟩ := insertCommonTimeoutInorder_spec s1.evs ev c.events hsame
      hsorted
    simp only [show ∀ x, (s1.evs x).evTimeout = _ from htv] at ha hb
    refine ⟨s.timeheap, _, s.evmap.mm, ?_, hinv _ _ _ h.map.mm (sameTimers_modify _ _ _)
      (h.time.insertCommon hflag hcommon hc hab ha hb), sameTimers_modify _ _ _,
      headsKept_modify hc hab, nofun⟩
    rw [if_pos (show s1.isCommon _ = true from hcommon),
      show s1.commonTimeoutQueues[_]? = _ from hc]
    dsimp only
    rw [hins]
    rfl
  | false =>
    obtain ⟨heap, mm, hpush, hmm, ⟨hok, hmem, -⟩⟩ :=
      minHeapPush_spec (minHeapElemGreater_iff htv) h.time.heap_ok h.map.mm
        (h.time.not_mem_heap hflag)
    refine ⟨heap, s.commonTimeoutQueues, mm, ?_, hinv _ _ _ hmm rfl
      (h.time.insertHeap hcommon hok hmem), rfl, HeadsKept.refl _ _, fun _ => rfl⟩
    rw [if_neg (show ¬ s1.isCommon _ = true from ne_true_of_eq_false hcommon)]
    rw [show minHeapPush (minHeapElemGreater s1.evs) s1.timeheap s1.evmap.mm ev = _ from hpush]
    rfl

end

end Libevent
