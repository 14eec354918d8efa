import Libevent.Proofs.Event.Ops

/-!
# `Libevent.Proofs.Event.Sound`: the deadlines of the common timeouts

`DeadlineAt s i`: when the list number `i` has events, its timer is active, or it is pending in
the time heap with a deadline that is not after that of the first event. `Sound` is the
invariant of the base together with the deadlines of all the lists, or of all but one: the one
whose timer has just fired, until `common_timeout_callback` has gone through the list. A
deletion keeps it (`eventDelNolock_sound`).
-/

namespace Libevent

open Lib

variable {β : Type} {s s' : EventBase β} {ev : EvId} {i : Nat} {skip : Option Nat} {e' : Event}
  {c : CommonTimeoutList} {fl : EvFlags} {d : CommonTimeoutList}

/-- The timer of the list number `i` does not miss the first event of the list. -/
def DeadlineAt (s : EventBase β) (i : Nat) : Prop :=
  ∀ (c : CommonTimeoutList) (head : EvId), s.commonTimeoutQueues[i]? = some c →
    c.events.head? = some head → (s.evs c.timeoutEvent).evFlags.active = true ∨
      ((s.evs c.timeoutEvent).evFlags.timeout = true ∧
        timeKey (s.evs c.timeoutEvent).evTimeout ≤ timeKey (s.evs head).evTimeout.masked)

/-- The invariant, with the deadlines of all the lists but `skip`. -/
structure Sound (skip : Option Nat) (s : EventBase β) : Prop where
  inv : Inv s
  persist : ∀ e, PersistOk s.commonTimeoutQueues.length (s.evs e)
  deadline : ∀ i, skip ≠ some i → DeadlineAt s i

theorem Sound.congr (h : Sound skip s) (hv : s'.view = s.view)
    (hnow : s'.tvNow.tvUsec < 1000000) : Sound skip s' := by
  have hevs : s'.evs = s.evs := congrArg (fun v => v.1) hv
  have hqueues : s'.commonTimeoutQueues = s.commonTimeoutQueues := congrArg (fun v => v.2.1) hv
  refine ⟨h.inv.congr hv hnow, ?_, fun i hi => ?_⟩
  · rw [hevs, hqueues]; exact h.persist
  unfold DeadlineAt
  rw [hevs, hqueues]
  exact h.deadline i hi

/-- `PersistOk` looks at three fields. -/
theorem PersistOk.congr {n : Nat} {e : Event} (h : PersistOk n e) (hc : e'.evClosure = e.evClosure)
    (hio : e'.evIoTimeout = e.evIoTimeout) (htv : e'.evTimeout = e.evTimeout) : PersistOk n e' := by
  unfold PersistOk
  rw [hc, hio, htv]
  exact h

/-! ### Timers and heads of the lists -/

section
variable (h : Inv s) (hc : s.commonTimeoutQueues[i]? = some c)
include h hc

theorem Inv.timer_internal : (s.evs c.timeoutEvent).evFlags.internal = true :=
  h.timers.timer c (List.mem_of_getElem? hc)

theorem Inv.timer_ne (hint : s.External ev) : c.timeoutEvent ≠ ev := fun heq => by
  have := h.timer_internal hc
  rw [heq, hint] at this
  cases this

/-- Two lists have two timers. -/
theorem Inv.timer_idx {j : Nat} (hd : s.commonTimeoutQueues[j]? = some d)
    (heq : c.timeoutEvent = d.timeoutEvent) : i = j := by
  have hnodup := h.timers.nodup
  obtain ⟨hi, rfl⟩ := List.getElem?_eq_some_iff.mp hc
  obtain ⟨hj, rfl⟩ := List.getElem?_eq_some_iff.mp hd
  have hi' : i < (s.commonTimeoutQueues.map CommonTimeoutList.timeoutEvent).length := by
    simpa using hi
  have hj' : j < (s.commonTimeoutQueues.map CommonTimeoutList.timeoutEvent).length := by
    simpa using hj
  have hmap : (s.commonTimeoutQueues.map CommonTimeoutList.timeoutEvent)[i] =
      (s.commonTimeoutQueues.map CommonTimeoutList.timeoutEvent)[j] := by simpa using heq
  exact hnodup.getElem_inj_iff.mp hmap

end

/-- The timers are in no list: their timeouts are not common. -/
theorem Inv.internal_not_mem (h : Inv s) (hint : (s.evs ev).evFlags.internal = true)
    (hc : c ∈ s.commonTimeoutQueues) : ev ∉ c.events := by
  intro hm
  obtain ⟨i, hi⟩ := List.getElem?_of_mem hc
  obtain ⟨-, hcommon, -⟩ := (h.time.common_mem i c hi ev).mp hm
  have hlt := ((h.ev ev).internal hint).2.2.2.2.2
  rw [isCommonTimeout_of_lt (by omega)] at hcommon
  cases hcommon

/-- The first event of a list has the least deadline, also without the magic bits. -/
theorem TimeInv.head_le {evs : EvId → Event} {heap : MinHeap EvId} {queues : List CommonTimeoutList}
    (h : TimeInv evs heap queues) (hc : queues[i]? = some c) {x y : EvId}
    (hx : c.events.head? = some x) (hy : y ∈ c.events) :
    timeKey (evs x).evTimeout.masked ≤ timeKey (evs y).evTimeout.masked := by
  have hxm : x ∈ c.events := List.mem_of_mem_head? hx
  have hle : timeKey (evs x).evTimeout ≤ timeKey (evs y).evTimeout := by
    have hsorted := h.common_sorted c (List.mem_of_getElem? hc)
    cases hl : c.events with
    | nil => rw [hl] at hx; cases hx
    | cons z l =>
      rw [hl] at hx hy hsorted
      cases hx
      rcases List.mem_cons.mp hy with rfl | hy
      · exact le_refl _
      · exact List.rel_of_pairwise_cons hsorted hy
  obtain ⟨-, hcx, hix⟩ := (h.common_mem i c hc x).mp hxm
  obtain ⟨-, hcy, hiy⟩ := (h.common_mem i c hc y).mp hy
  exact (timeKey_masked_le ((h.tv_ok x).same (h.tv_ok y) hcx hcy (hix.trans hiy.symm))).mpr hle

/-! ### The deadline of one list -/

/-- The new event keeps its deadline; if it is a timer, it stays active or pending. -/
structure TimerKept (e e' : Event) : Prop where
  deadline : e'.evTimeout = e.evTimeout
  active : e.evFlags.internal = true → e.evFlags.active = true → e'.evFlags.active = true
  timeout : e.evFlags.internal = true → e.evFlags.timeout = true → e'.evFlags.timeout = true

theorem Alike.timerKept {e : Event} (h : Alike e e') : TimerKept e e' :=
  ⟨h.deadline, by rw [h.flags]; exact fun _ => id, by rw [h.flags]; exact fun _ => id⟩

section
variable (h : DeadlineAt s i) (hinv : Inv s)
include h hinv

/-- One event changes, and the lists do not. -/
theorem DeadlineAt.change (hqueues : s'.commonTimeoutQueues = s.commonTimeoutQueues)
    (hevs : s'.evs = upd s.evs ev e') (hk : TimerKept (s.evs ev) e') : DeadlineAt s' i := by
  intro c head hc hhead
  rw [hqueues] at hc
  have hold := h c head hc hhead
  have hint := hinv.timer_internal hc
  rw [hevs, upd_congr Event.evTimeout hk.deadline head]
  by_cases ht : c.timeoutEvent = ev
  · rw [ht, upd_self, hk.deadline]
    rw [ht] at hold hint
    exact hold.imp (hk.active hint) (And.imp_left (hk.timeout hint))
  · rw [upd_ne _ _ ht]
    exact hold

/-- An event that is not a timer leaves its list: the first event of the list is not earlier
than the one before. -/
theorem DeadlineAt.erase (hint : s.External ev)
    (hqueues : s'.commonTimeoutQueues = eraseCommon ev s.commonTimeoutQueues)
    (hevs : ∀ x, x ≠ ev → s'.evs x = s.evs x) (htv : (s'.evs ev).evTimeout = (s.evs ev).evTimeout) :
    DeadlineAt s' i := by
  have htv' : ∀ x, (s'.evs x).evTimeout = (s.evs x).evTimeout := fun x => by
    by_cases hx : x = ev
    · rw [hx, htv]
    · rw [hevs x hx]
  intro c' head hc' hhead
  rw [hqueues, eraseCommon_getElem?, Option.map_eq_some_iff] at hc'
  obtain ⟨c, hc, rfl⟩ := hc'
  have hmem : head ∈ c.events := List.mem_of_mem_erase (List.mem_of_mem_head? hhead)
  obtain ⟨x, hx⟩ : ∃ x, c.events.head? = some x := by
    cases hl : c.events with
    | nil => rw [hl] at hmem; cases hmem
    | cons x l => exact ⟨x, rfl⟩
  rw [hevs _ (hinv.timer_ne hc hint), htv']
  exact (h c x hc hx).imp_right (And.imp_right fun hle =>
    le_trans hle (hinv.time.head_le hc hx hmem))

/-- Only the timer of another list changes. -/
theorem DeadlineAt.of_other {j : Nat} (hd : s.commonTimeoutQueues[j]? = some d) (hij : i ≠ j)
    (hqueues : s'.commonTimeoutQueues = s.commonTimeoutQueues)
    (hevs : ∀ x, x ≠ d.timeoutEvent → s'.evs x = s.evs x) : DeadlineAt s' i := by
  intro c head hc hhead
  rw [hqueues] at hc
  have hne : c.timeoutEvent ≠ d.timeoutEvent := fun heq => hij (hinv.timer_idx hc hd heq)
  have hhd : head ≠ d.timeoutEvent := fun heq =>
    hinv.internal_not_mem (hinv.timer_internal hd) (List.mem_of_getElem? hc)
      (heq ▸ List.mem_of_mem_head? hhead)
  rw [hevs _ hne, hevs _ hhd]
  exact h c head hc hhead

end

/-- An active timer. -/
theorem DeadlineAt.of_active (hc : s.commonTimeoutQueues[i]? = some c)
    (hact : (s.evs c.timeoutEvent).evFlags.active = true) : DeadlineAt s i := by
  intro c' head hc' _
  cases hc.symm.trans hc'
  exact .inl hact

/-! ### Operations -/

section
variable (h : Sound skip s) (hinv : Inv s')
  (hqueues : s'.commonTimeoutQueues = s.commonTimeoutQueues)
include h hinv hqueues

/-- One event changes, and the lists do not. -/
theorem Sound.change (hevs : s'.evs = upd s.evs ev e')
    (hp : PersistOk s.commonTimeoutQueues.length e') (hk : TimerKept (s.evs ev) e') :
    Sound skip s' where
  inv := hinv
  persist := by rw [hqueues, hevs]; exact forall_upd (PersistOk _) h.persist hp
  deadline := fun i hi => (h.deadline i hi).change h.inv hqueues hevs hk

/-- New flags for `ev`, which leave the timeout and the active flag of a timer alone. -/
theorem Sound.setFlags (hevs : s'.evs = updFlags s.evs ev fl)
    (hk : TimerKept (s.evs ev) { s.evs ev with evFlags := fl }) : Sound skip s' :=
  h.change hinv hqueues hevs ((h.persist ev).congr rfl rfl rfl) hk

end

/-- Changes that neither the structures nor the deadlines see. -/
theorem Sound.alike (h : Sound skip s) (ha : Alike (s.evs ev) e')
    (hio : e'.evIoTimeout = (s.evs ev).evIoTimeout) :
    Sound skip (s.setEv ev e') :=
  h.change (h.inv.alike ha) rfl rfl ((h.persist ev).congr ha.closure hio ha.deadline) ha.timerKept

/-- The timeout with which a persistent event is added again is cleared. -/
theorem Sound.clearIoTimeout (h : Sound skip s) (ha : Alike (s.evs ev) e')
    (hio : e'.evIoTimeout = {}) : Sound skip (s.setEv ev e') :=
  h.change (h.inv.alike ha) rfl rfl (fun _ => .inl hio) ha.timerKept

theorem Event.activated_fields (e : Event) (res : Nat) (ncalls : Int) :
    let e' := e.activated res ncalls
    e'.evClosure = e.evClosure ∧ e'.evIoTimeout = e.evIoTimeout ∧ TimerKept e e' := by
  unfold Event.activated Event.noted
  dsimp only
  split
  · exact ⟨rfl, rfl, rfl, fun _ => id, fun _ => id⟩
  split
  · exact ⟨rfl, rfl, rfl, fun _ => id, fun _ => id⟩
  split
  · exact ⟨rfl, rfl, rfl, fun _ _ => rfl, fun _ => id⟩
  · exact ⟨rfl, rfl, rfl, fun _ _ => rfl, fun _ => id⟩

theorem Sound.activated (h : Sound skip s) (hkind : KindOk (s.evs ev)) (res : Nat)
    (ncalls : Int) : Sound skip (s.activated ev res ncalls) := by
  obtain ⟨hcl, hio, hk⟩ := (s.evs ev).activated_fields res ncalls
  obtain ⟨-, hqueues, -⟩ := activated_rest s ev res ncalls
  exact h.change (eventActiveNolock_spec h.inv hkind res ncalls).2 hqueues
    (activated_evs s ev res ncalls) ((h.persist ev).congr hcl hio hk.deadline) hk

/-- The timer of the list that was left out becomes active. -/
theorem Sound.activated_timer (h : Sound (some i) s) (hc : s.commonTimeoutQueues[i]? = some c)
    (res : Nat) (ncalls : Int) :
    Sound none (s.activated c.timeoutEvent res ncalls) := by
  obtain ⟨-, hev, -, hfin, -, -⟩ := (h.inv.ev c.timeoutEvent).internal (h.inv.timer_internal hc)
  have hkind : KindOk (s.evs c.timeoutEvent) := fun hs => by
    rw [hev] at hs
    cases hs
  have hs := h.activated hkind res ncalls
  refine ⟨hs.inv, hs.persist, fun j _ => ?_⟩
  by_cases hij : i = j
  · subst hij
    obtain ⟨-, hqueues, -⟩ := activated_rest s c.timeoutEvent res ncalls
    refine DeadlineAt.of_active (by rw [hqueues]; exact hc) ?_
    rw [activated_evs, upd_self]
    unfold Event.activated
    rw [if_neg (by simp [hfin])]
    split
    · next hact => exact hact
    · rfl
  · exact hs.deadline j (by simpa using hij)

/-- An event that is not a timer leaves its list; apart from that, flags change. -/
theorem Sound.erased (h : Sound skip s) (hinv : Inv s') (hevs : s'.evs = updFlags s.evs ev fl)
    (hcommon : s'.commonTimeoutQueues = eraseCommon ev s.commonTimeoutQueues)
    (hint : s.External ev) : Sound skip s' := by
  refine ⟨hinv, ?_, fun i hi => ?_⟩
  · rw [hcommon, eraseCommon_length, hevs]
    exact forall_upd (PersistOk _) h.persist ((h.persist ev).congr rfl rfl rfl)
  · exact (h.deadline i hi).erase h.inv hint hcommon (fun x hx => by rw [hevs]; exact upd_ne _ _ hx)
      (by rw [hevs, updFlags, upd_self])

/-- `event_del` of an event that is not a timer. -/
theorem Sound.deleted (h : Sound skip s) (hd : Deleted s ev fl s')
    (hint : s.External ev) : Sound skip s' :=
  h.erased hd.inv hd.evs hd.common hint

theorem eventDelNolock_sound {evsel evsigsel : EventOp β} (hsel : evsel.NoFault)
    (hsig : evsigsel.NoFault) (h : Sound skip s) (hint : s.External ev)
    (hfin : (s.evs ev).evFlags.finalizing = false) :
    Yields StaleWrite (eventDelNolock evsel evsigsel s ev false) fun p =>
      Sound skip p.2 ∧ Deleted s ev (s.evs ev).evFlags.unqueued p.2 :=
  ((eventDelNolock_yields hsel hsig h.inv (by simp [hfin])).weaken fun _ => And.left).mono
    fun _ hp => ⟨h.deleted hp hint, hp⟩

/-- `event_del` of a timer. -/
theorem Sound.deleted_timer (h : Sound none s) (hc : s.commonTimeoutQueues[i]? = some c)
    (hd : Deleted s c.timeoutEvent fl s') :
    Sound (some i) s' := by
  have hqueues : s'.commonTimeoutQueues = s.commonTimeoutQueues := by
    rw [hd.common]
    exact eraseCommon_eq_self fun d hd' => h.inv.internal_not_mem (h.inv.timer_internal hc) hd'
  refine ⟨hd.inv, ?_, fun j hj => ?_⟩
  · rw [hqueues, hd.evs]
    exact forall_upd (PersistOk _) h.persist ((h.persist _).congr rfl rfl rfl)
  refine (h.deadline j (by simp)).of_other h.inv hc (fun hji => hj (by rw [hji])) hqueues
    fun x hx => ?_
  rw [hd.evs, upd_ne _ _ hx]

end Libevent
