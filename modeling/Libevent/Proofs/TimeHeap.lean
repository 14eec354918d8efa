import Libevent.Event.Base
import Libevent.Proofs.Event.Timeval
import Libevent.Proofs.MinHeap

/-!
# `Libevent.Proofs.TimeHeap`: sequences of calls of the time heap

`TimeHeap.Reaches s held`: from `min_heap_ctor_`, a sequence of `min_heap_push_`, `min_heap_pop_`,
`min_heap_erase_` and `min_heap_adjust_` leads to `s`, and `held` are the events that have been
pushed and not yet removed. `held` follows the calls, not what they return: `min_heap_pop_` removes
the top, and `min_heap_erase_` the event that it is given. `min_heap_adjust_` comes after a change
of `ev_timeout`, and an event that is pushed is not in the heap.

`timeHeap_ok` is the state of the heap after every such sequence, and what the next call returns.
-/

namespace Libevent

/-- The time heap, the events and the allocator. -/
structure TimeHeap where
  evs : EvId → Event := fun _ => {}
  heap : MinHeap EvId := { p := fun _ => 0 }
  mm : Mm := {}

namespace TimeHeap

/-- `ev->ev_timeout = tv`. -/
def setTimeout (s : TimeHeap) (ev : EvId) (tv : Timeval) : TimeHeap :=
  { s with evs := Function.update s.evs ev { s.evs ev with evTimeout := tv } }

/-- `min_heap_push_` on the events as they are. -/
def push (s : TimeHeap) (ev : EvId) : Bool × TimeHeap :=
  match minHeapPush (minHeapElemGreater s.evs) s.heap s.mm ev with
  | (ok, heap, mm) => (ok, { s with heap := heap, mm := mm })

/-- `min_heap_pop_`. -/
def pop (s : TimeHeap) : Option EvId × TimeHeap :=
  match minHeapPop (minHeapElemGreater s.evs) s.heap with
  | (top, heap) => (top, { s with heap := heap })

/-- `min_heap_erase_`. -/
def erase (s : TimeHeap) (ev : EvId) : Bool × TimeHeap :=
  match minHeapErase (minHeapElemGreater s.evs) s.heap ev with
  | (ok, heap) => (ok, { s with heap := heap })

/-- `min_heap_adjust_`. -/
def adjust (s : TimeHeap) (ev : EvId) : Bool × TimeHeap :=
  match minHeapAdjust (minHeapElemGreater s.evs) s.heap s.mm ev with
  | (ok, heap, mm) => (ok, { s with heap := heap, mm := mm })

/-- A cell is free, or `mm_realloc` succeeds. -/
def CanGrow (s : TimeHeap) : Prop := s.heap.n < s.heap.a ∨ s.mm.alloc.1 = true

instance (s : TimeHeap) : Decidable s.CanGrow :=
  inferInstanceAs (Decidable (_ ∨ _))

/-- The states that sequences of calls reach, with the events that have been pushed and not yet
removed. A push into a heap that cannot grow adds nothing, and `min_heap_adjust_` pushes an event
that is not in the heap. -/
inductive Reaches : TimeHeap → Finset EvId → Prop where
  | ctor (evs : EvId → Event) (mm : Mm) : Reaches { evs := evs, mm := mm } ∅
  | push {s : TimeHeap} {held : Finset EvId} (h : Reaches s held) (ev : EvId) (tv : Timeval)
      (hnew : ev ∉ held) :
      Reaches ((s.setTimeout ev tv).push ev).2 (if s.CanGrow then insert ev held else held)
  | pop {s : TimeHeap} {held : Finset EvId} (h : Reaches s held) :
      Reaches s.pop.2 (if held = ∅ then ∅ else held.erase (s.heap.p 0))
  | erase {s : TimeHeap} {held : Finset EvId} (h : Reaches s held) (ev : EvId) :
      Reaches (s.erase ev).2 (held.erase ev)
  | adjust {s : TimeHeap} {held : Finset EvId} (h : Reaches s held) (ev : EvId) (tv : Timeval) :
      Reaches ((s.setTimeout ev tv).adjust ev).2
        (if ev ∈ held ∨ s.CanGrow then insert ev held else held)

/-- The key that the heap is ordered by. -/
def key (s : TimeHeap) (ev : EvId) : Int ×ₗ Nat := timeKey (s.evs ev).evTimeout

/-- `min_heap_elem_greater` compares the keys. -/
theorem greater_iff (s : TimeHeap) (x y : EvId) :
    minHeapElemGreater s.evs x y = true ↔ s.key y < s.key x :=
  evutilTimercmpGt_iff _ _

/-- The heap is in order and holds the events of `held`, and the others know that they are not
in it. -/
structure Holds (s : TimeHeap) (held : Finset EvId) : Prop where
  ok : MinHeap.Ok s.key s.heap
  mem : ∀ ev, s.heap.Mem ev ↔ ev ∈ held
  out : ∀ ev, ev ∉ held → s.heap.idx ev = -1

variable {s : TimeHeap} {held : Finset EvId} {ev : EvId}

/-- What is not held is not in the heap. -/
theorem Holds.not_mem (h : s.Holds held) (hev : ev ∉ held) : ¬ s.heap.Mem ev :=
  fun hm => hev ((h.mem ev).mp hm)

/-- The other events keep their keys. -/
theorem key_setTimeout (s : TimeHeap) (tv : Timeval) {x : EvId} (hx : x ≠ ev) :
    (s.setTimeout ev tv).key x = s.key x := by
  simp [key, setTimeout, hx]

section
variable (h : s.Holds held)
include h

/-- The `ev_timeout` of an event that is not in the heap may change. -/
theorem Holds.setTimeout (tv : Timeval) (hev : ev ∉ held) : (s.setTimeout ev tv).Holds held where
  ok := h.ok.congr_key fun _ hx =>
    key_setTimeout s tv fun heq => hev ((h.mem ev).mp (heq ▸ hx))
  mem := h.mem
  out := h.out

/-- `min_heap_push_` adds the event when the heap can grow. -/
theorem Holds.push (hev : ev ∉ held) :
    ((s.push ev).1 = true ↔ s.CanGrow) ∧
      (s.push ev).2.Holds (if s.CanGrow then insert ev held else held) := by
  have hgrow : (s.push ev).1 = true ↔ s.CanGrow := by
    unfold TimeHeap.push minHeapPush minHeapReserve CanGrow
    grind
  refine ⟨hgrow, ?_⟩
  obtain ⟨mm, hpush | ⟨heap, hpush, hp⟩⟩ :=
    minHeapPush_cases s.greater_iff h.ok s.mm (h.not_mem hev)
  · have hfull : ¬s.CanGrow := fun hg => by simp [TimeHeap.push, hpush] at hgrow; exact hgrow hg
    simp only [TimeHeap.push, hpush, if_neg hfull]
    exact ⟨h.ok, h.mem, h.out⟩
  have hroom : s.CanGrow := hgrow.mp (by simp only [TimeHeap.push, hpush])
  simp only [TimeHeap.push, hpush, if_pos hroom]
  have hmem : ∀ x, heap.Mem x ↔ x ∈ insert ev held := by
    intro x
    rw [hp.mem x, Finset.mem_insert, h.mem x]
  refine ⟨hp.ok, hmem, fun x hx => ?_⟩
  rw [hp.idx x (fun hm => hx ((hmem x).mp hm))]
  exact h.out x fun hin => hx (Finset.mem_insert_of_mem hin)

/-- `min_heap_erase_` removes an event of the heap. -/
theorem Holds.erase (ev : EvId) :
    ((s.erase ev).1 = true ↔ ev ∈ held) ∧ (s.erase ev).2.Holds (held.erase ev) := by
  by_cases hin : ev ∈ held
  · obtain ⟨heap, herase, he⟩ := minHeapErase_spec s.greater_iff h.ok ((h.mem ev).mpr hin)
    simp only [TimeHeap.erase, herase]
    refine ⟨iff_of_true trivial hin, he.ok, fun x => ?_, fun x hx => ?_⟩
    · rw [he.mem x, Finset.mem_erase, h.mem x]
    by_cases heq : x = ev
    · rw [heq, he.gone]
    · have hout : x ∉ held := fun hxin => hx (Finset.mem_erase.mpr ⟨heq, hxin⟩)
      rw [he.idx x (h.not_mem hout), h.out x hout]
  · have herase : minHeapErase (minHeapElemGreater s.evs) s.heap ev = (false, s.heap) := by
      rw [minHeapErase, if_pos (h.out ev hin)]
    simp only [TimeHeap.erase, herase, Finset.erase_eq_of_notMem hin]
    exact ⟨iff_of_false Bool.false_ne_true hin, h.ok, h.mem, h.out⟩

/-- The heap is empty when it holds no event. -/
theorem Holds.n_eq_zero : s.heap.n = 0 ↔ held = ∅ := by
  rw [Finset.eq_empty_iff_forall_notMem]
  constructor
  · intro hn ev hev
    obtain ⟨i, hi, -⟩ := (h.mem ev).mpr hev
    omega
  · intro hnone
    by_contra hn
    exact hnone _ ((h.mem _).mp ⟨0, by omega, rfl⟩)

/-- `min_heap_pop_` removes the top. -/
theorem Holds.pop : s.pop.1 = minHeapTop s.heap ∧
    s.pop.2.Holds (if held = ∅ then ∅ else held.erase (s.heap.p 0)) := by
  by_cases hn : s.heap.n = 0
  · have hnone := h.n_eq_zero.mp hn
    have hpop : minHeapPop (minHeapElemGreater s.evs) s.heap = (none, s.heap) := by
      rw [minHeapPop, if_pos hn]
    simp only [TimeHeap.pop, hpop, minHeapTop, if_pos hn, if_pos hnone]
    exact ⟨trivial, h.ok, hnone ▸ h.mem, hnone ▸ h.out⟩
  -- the top is erased
  have htop : s.heap.Mem (s.heap.p 0) := ⟨0, by omega, rfl⟩
  have herased := (h.erase (s.heap.p 0)).2
  obtain ⟨heap, herase, -⟩ := minHeapErase_spec s.greater_iff h.ok htop
  simp only [TimeHeap.erase, herase] at herased
  simp only [TimeHeap.pop, minHeapPop_eq h.ok hn, herase, minHeapTop, if_neg hn,
    if_neg (h.n_eq_zero.not.mp hn)]
  exact ⟨trivial, herased⟩

/-- `min_heap_adjust_` keeps an event of the heap and pushes another one. -/
theorem Holds.adjust (ev : EvId) (tv : Timeval) :
    (((s.setTimeout ev tv).adjust ev).1 = true ↔ ev ∈ held ∨ s.CanGrow) ∧
      ((s.setTimeout ev tv).adjust ev).2.Holds
        (if ev ∈ held ∨ s.CanGrow then insert ev held else held) := by
  by_cases hin : ev ∈ held
  · obtain ⟨heap, hadjust, hok, hmem, hidx⟩ := minHeapAdjust_spec (s.setTimeout ev tv).greater_iff
      h.ok ((h.mem ev).mpr hin) (fun x hx => key_setTimeout s tv hx) s.mm
    have hrun : (s.setTimeout ev tv).adjust ev = (true, { s.setTimeout ev tv with heap := heap }) :=
      congrArg (fun r : Bool × MinHeap EvId × Mm =>
        (r.1, { s.setTimeout ev tv with heap := r.2.1, mm := r.2.2 })) hadjust
    simp only [hrun, if_pos (Or.inl hin), Finset.insert_eq_of_mem hin]
    exact ⟨iff_of_true trivial (.inl hin), hok, fun x => (hmem x).trans (h.mem x),
      fun x hx => (hidx x (h.not_mem hx)).trans (h.out x hx)⟩
  -- it is pushed
  have hadjust : (s.setTimeout ev tv).adjust ev = (s.setTimeout ev tv).push ev := by
    simp only [TimeHeap.adjust, TimeHeap.push, minHeapAdjust]
    rw [if_pos (show (s.setTimeout ev tv).heap.idx ev = -1 from h.out ev hin)]
  rw [hadjust]
  simp only [hin, false_or]
  exact (h.setTimeout tv hin).push hin

end

/-- Every sequence of calls keeps the heap. -/
theorem Reaches.holds (h : Reaches s held) : s.Holds held := by
  induction h with
  | ctor evs mm =>
    refine ⟨MinHeap.Ok.empty 0, fun ev => ?_, fun ev _ => rfl⟩
    simp [MinHeap.Mem]
  | push _ ev tv hnew ih => exact ((ih.setTimeout tv hnew).push hnew).2
  | pop _ ih => exact ih.pop.2
  | erase _ ev ih => exact (ih.erase ev).2
  | adjust _ ev tv ih => exact (ih.adjust ev tv).2

end TimeHeap

/-- The time heap after any sequence of calls: the first `n` cells hold the events that have been
pushed and not yet removed, once each; each of them knows its cell, and the others have the index
`-1`; no event is greater than its children, and the top is a least one. The next call returns the
top, or says whether the event is in the heap or the heap can grow. -/
theorem timeHeap_ok {s : TimeHeap} {held : Finset EvId} (h : s.Reaches held) :
    (∀ ev, ev ∈ held ↔ ∃ i, i < s.heap.n ∧ s.heap.p i = ev) ∧
    (∀ i j, i < s.heap.n → j < s.heap.n → s.heap.p i = s.heap.p j → i = j) ∧
    (∀ i, i < s.heap.n → s.heap.idx (s.heap.p i) = i) ∧
    (∀ ev, ev ∉ held → s.heap.idx ev = -1) ∧
    (∀ i, 0 < i → i < s.heap.n →
      minHeapElemGreater s.evs (s.heap.p ((i - 1) / 2)) (s.heap.p i) = false) ∧
    (minHeapTop s.heap = none ↔ held = ∅) ∧
    (∀ top, minHeapTop s.heap = some top →
      top = s.heap.p 0 ∧ top ∈ held ∧ ∀ ev ∈ held, minHeapElemGreater s.evs top ev = false) ∧
    s.pop.1 = minHeapTop s.heap ∧
    ∀ ev, ((s.erase ev).1 = true ↔ ev ∈ held) ∧
      ∀ tv, (ev ∉ held → (((s.setTimeout ev tv).push ev).1 = true ↔ s.CanGrow)) ∧
        (((s.setTimeout ev tv).adjust ev).1 = true ↔ ev ∈ held ∨ s.CanGrow) := by
  have hs := h.holds
  -- what is not greater comes first in the order of the keys
  have hle : ∀ x y, s.key x ≤ s.key y → minHeapElemGreater s.evs x y = false := by
    intro x y hxy
    rw [Bool.eq_false_iff, ne_eq, s.greater_iff, not_lt]
    exact hxy
  refine ⟨fun ev => (hs.mem ev).symm, fun i j hi hj => hs.ok.inj hi hj, hs.ok.idx, hs.out,
    fun i h0 hi => hle _ _ (hs.ok.order i h0 hi), ?_, fun top htop => ?_, hs.pop.1, fun ev =>
    ⟨(hs.erase ev).1, fun tv => ⟨fun hev => ((hs.setTimeout tv hev).push hev).1,
      (hs.adjust ev tv).1⟩⟩⟩
  · rw [← hs.n_eq_zero, minHeapTop]
    split <;> simp_all
  obtain ⟨hmem, hmin⟩ := hs.ok.top_le htop
  refine ⟨?_, (hs.mem top).mp hmem, fun ev hev => hle _ _ (hmin ev ((hs.mem ev).mpr hev))⟩
  unfold minHeapTop at htop
  split at htop
  · cases htop
  · exact (Option.some.inj htop).symm

/-- Four events, one of which is erased, one of which gets an earlier timeout and one of which is
popped. -/
def sampleTimeHeap : TimeHeap :=
  let s := (({ } : TimeHeap).setTimeout 1 ⟨5, 0⟩).push 1 |>.2
  let s := (s.setTimeout 2 ⟨3, 0⟩).push 2 |>.2
  let s := (s.setTimeout 3 ⟨4, 7⟩).push 3 |>.2
  let s := (s.setTimeout 4 ⟨1, 0⟩).push 4 |>.2
  let s := (s.erase 2).2
  let s := ((s.setTimeout 1 ⟨4, 6⟩).adjust 1).2
  s.pop.2

/-- The heap that is left holds two events, and the next one is popped. -/
theorem timeHeap_ok_sample :
    sampleTimeHeap.pop.1 = some 1 ∧ sampleTimeHeap.heap.idx 2 = -1 ∧
      sampleTimeHeap.heap.idx 4 = -1 ∧
      ∀ ev ∈ ({1, 3} : Finset EvId), minHeapElemGreater sampleTimeHeap.evs 1 ev = false := by
  obtain ⟨held, hreach, rfl⟩ : ∃ held, sampleTimeHeap.Reaches held ∧ held = {1, 3} :=
    ⟨_, .pop (.adjust (.erase (.push (.push (.push (.push (.ctor _ _) 1 ⟨5, 0⟩ (by decide)) 2 ⟨3, 0⟩
      (by decide)) 3 ⟨4, 7⟩ (by decide)) 4 ⟨1, 0⟩ (by decide)) 2) 1 ⟨4, 6⟩), by decide⟩
  obtain ⟨-, -, -, hout, -, -, htop, hpop, -⟩ := timeHeap_ok hreach
  have h1 : minHeapTop sampleTimeHeap.heap = some 1 := by decide
  exact ⟨hpop.trans h1, hout 2 (by decide), hout 4 (by decide), (htop 1 h1).2.2⟩

end Libevent
