import Libevent.Lib.HeapOrder
import Libevent.MinHeap

/-!
# `Libevent.Proofs.MinHeap`: the time heap keeps its elements and their order

`MinHeap.Ok key s`: every element of the heap knows its cell (so no element is there twice), and the
cells are in heap order. `min_heap_push_` adds one element, `min_heap_erase_` removes one, and both
keep `Ok` (`minHeapPush_spec`, `minHeapErase_spec`). A sift works on a heap with a hole (`Holed`).
-/

namespace Libevent

open Lib (HeapOrder UpHole DownHole)

variable {hole i : Nat}

namespace MinHeap

section
variable {α : Type} [DecidableEq α] {s : MinHeap α} {e : α}

/-- `x` is in the heap. -/
def Mem (s : MinHeap α) (x : α) : Prop := ∃ i, i < s.n ∧ s.p i = x

theorem place_p (s : MinHeap α) (i : Nat) (e : α) : (s.place i e).p = Function.update s.p i e := by
  funext j
  by_cases h : j = i
  · subst h; simp [place]
  · simp [place, h]

@[simp] theorem place_n (s : MinHeap α) (i : Nat) (e : α) : (s.place i e).n = s.n := rfl

@[simp] theorem clearIdx_n (s : MinHeap α) (e : α) : (s.clearIdx e).n = s.n := rfl

/-- The heap with a hole that `e` is going to fill: the other cells know their places, and
none of them holds `e`. -/
structure Holed (s : MinHeap α) (hole : Nat) (e : α) : Prop where
  idx : ∀ i, i < s.n → i ≠ hole → s.idx (s.p i) = i
  ne : ∀ i, i < s.n → i ≠ hole → s.p i ≠ e

/-- Another cell `i` moves into the hole and leaves the hole behind. -/
theorem Holed.move (h : s.Holed hole e) (hi : i < s.n)
    (hne : i ≠ hole) : (s.place hole (s.p i)).Holed i e where
  idx := fun j hj hji => by
    by_cases hjh : j = hole
    · simp [place, hjh]
    have hval : s.p j ≠ s.p i := by
      intro heq
      have h1 := h.idx j hj hjh
      rw [heq, h.idx i hi hne] at h1
      omega
    simpa [place, hjh, hval] using h.idx j hj hjh
  ne := fun j hj hji => by
    by_cases hjh : j = hole
    · simpa [place, hjh] using h.ne i hi hne
    · simpa [place, hjh] using h.ne j hj hjh

/-- The elements besides the one that fills the hole stay. -/
theorem Holed.mem_move (hi : i < s.n) (hne : i ≠ hole) (hhole : hole < s.n) (x : α) :
    (∃ j, j < s.n ∧ j ≠ i ∧ (s.place hole (s.p i)).p j = x) ↔
      ∃ j, j < s.n ∧ j ≠ hole ∧ s.p j = x := by
  constructor
  · rintro ⟨j, hj, hji, rfl⟩
    by_cases hjh : j = hole
    · exact ⟨i, hi, hne, by simp [place, hjh]⟩
    · exact ⟨j, hj, hjh, by simp [place, hjh]⟩
  · rintro ⟨j, hj, hjh, rfl⟩
    by_cases hji : j = i
    · exact ⟨hole, hhole, Ne.symm hne, by simp [place, hji]⟩
    · exact ⟨j, hj, hji, by simp [place, hjh]⟩

/-- The hole is filled. -/
theorem Holed.idx_fill (h : s.Holed hole e) :
    ∀ i, i < s.n → (s.place hole e).idx ((s.place hole e).p i) = i := by
  intro i hi
  by_cases hih : i = hole
  · simp [place, hih]
  · simpa [place, hih, h.ne i hi hih] using h.idx i hi hih

end

end MinHeap

section
variable {α κ : Type} [DecidableEq α] [LinearOrder κ] {key : α → κ} {key' : α → κ}
  {s s' : MinHeap α} {e : α}

namespace MinHeap

variable (key) in
/-- What a sift that ends well leaves behind: `e` is in the heap, together with what was in
the cells besides the hole, and the elements outside the heap keep their `min_heap_idx`. -/
structure Sifted (s : MinHeap α) (hole : Nat) (e : α) (s' : MinHeap α) : Prop where
  n : s'.n = s.n
  a : s'.a = s.a
  order : HeapOrder key s'.p s.n
  idx : ∀ i, i < s.n → s'.idx (s'.p i) = i
  mem : ∀ x, s'.Mem x ↔ (x = e ∧ hole < s.n) ∨ ∃ j, j < s.n ∧ j ≠ hole ∧ s.p j = x
  other : ∀ x, x ≠ e → (∀ j, j < s.n → j ≠ hole → s.p j ≠ x) → s'.idx x = s.idx x

/-- The end of a sift. -/
theorem Holed.fill (h : s.Holed hole e) (horder : HeapOrder key (Function.update s.p hole e) s.n) :
    Sifted key s hole e (s.place hole e) where
  n := rfl
  a := rfl
  order := by rw [place_p]; exact horder
  idx := h.idx_fill
  mem := fun x => by
    constructor
    · rintro ⟨j, hj, rfl⟩
      by_cases hjh : j = hole
      · exact .inl ⟨by simp [place, hjh], hjh ▸ hj⟩
      · exact .inr ⟨j, hj, hjh, by simp [place, hjh]⟩
    · rintro (⟨rfl, hlt⟩ | ⟨j, hj, hjh, rfl⟩)
      · exact ⟨hole, hlt, by simp [place]⟩
      · exact ⟨j, hj, by simp [place, hjh]⟩
  other := fun x hx _ => by simp [place, hx]

/-- A sift that first moves the cell `i` into the hole. -/
theorem Sifted.of_move (hi : i < s.n) (hne : i ≠ hole)
    (hhole : hole < s.n) (h : Sifted key (s.place hole (s.p i)) i e s') :
    Sifted key s hole e s' where
  n := h.n
  a := h.a
  order := h.order
  idx := h.idx
  mem := fun x => by
    rw [h.mem x]
    exact or_congr ⟨fun ⟨hx, _⟩ => ⟨hx, hhole⟩, fun ⟨hx, _⟩ => ⟨hx, hi⟩⟩
      (Holed.mem_move hi hne hhole x)
  other := fun x hx hout => by
    have hxi : x ≠ s.p i := fun heq => hout i hi hne heq.symm
    rw [h.other x hx]
    · simp [place, hxi]
    intro j hj hji heq
    by_cases hjh : j = hole
    · exact hxi (by simpa [place, hjh] using heq.symm)
    · exact hout j hj hjh (by simpa [place, hjh] using heq)

variable (key) in
/-- Every element knows its cell, and the cells are in heap order and allocated. -/
structure Ok (s : MinHeap α) : Prop where
  idx : ∀ i, i < s.n → s.idx (s.p i) = i
  order : HeapOrder key s.p s.n
  room : s.n ≤ s.a

omit [DecidableEq α] in
theorem Ok.empty (d : α) : Ok key ({ p := fun _ => d } : MinHeap α) where
  idx := fun _ h => absurd h (Nat.not_lt_zero _)
  order := fun _ _ h => absurd h (Nat.not_lt_zero _)
  room := Nat.le_refl 0

omit [DecidableEq α] in
/-- No element is in two cells. -/
theorem Ok.inj (h : Ok key s) {j : Nat} (hi : i < s.n) (hj : j < s.n)
    (heq : s.p i = s.p j) : i = j := by
  have h1 := h.idx i hi
  rw [heq, h.idx j hj] at h1
  omega

omit [DecidableEq α] in
/-- The top has the least key. -/
theorem Ok.top_le (h : Ok key s) (htop : minHeapTop s = some e) :
    s.Mem e ∧ ∀ x, s.Mem x → key e ≤ key x := by
  unfold minHeapTop at htop
  split at htop
  · cases htop
  next hn =>
  cases htop
  refine ⟨⟨0, by omega, rfl⟩, ?_⟩
  rintro x ⟨i, hi, rfl⟩
  exact h.order.root_le i hi

omit [DecidableEq α] in
/-- Keys may change for elements that are not in the heap. -/
theorem Ok.congr_key (h : Ok key s) (heq : ∀ x, s.Mem x → key' x = key x) : Ok key' s where
  idx := h.idx
  order := fun i h0 hi => by
    rw [heq _ ⟨i, hi, rfl⟩, heq _ ⟨(i - 1) / 2, by omega, rfl⟩]
    exact h.order i h0 hi
  room := h.room

/-- `min_heap_elem_init_` of an element that is not in the heap. -/
theorem Ok.clearIdx (h : Ok key s) (he : ¬ s.Mem e) : Ok key (s.clearIdx e) where
  idx := fun i hi => by
    have hne : s.p i ≠ e := fun heq => he ⟨i, hi, heq⟩
    simpa [MinHeap.clearIdx, hne] using h.idx i hi
  order := h.order
  room := h.room

end MinHeap

omit [DecidableEq α] in
/-- `min_heap_reserve_` changes the size of the allocation only, and nothing when it fails. -/
theorem minHeapReserve_cases (s : MinHeap α) (mm : Mm) (n : Nat) :
    ∃ mm', minHeapReserve s mm n = (false, s, mm') ∨
      ∃ a, minHeapReserve s mm n = (true, { s with a := a }, mm') ∧ n ≤ a := by
  unfold minHeapReserve
  by_cases h : s.a < n
  · rw [if_pos h]
    cases halloc : mm.alloc.1 with
    | true => exact ⟨mm.alloc.2, .inr ⟨_, rfl, by split <;> split <;> omega⟩⟩
    | false => exact ⟨mm.alloc.2, .inl rfl⟩
  · exact ⟨mm, .inr ⟨s.a, by rw [if_neg h], by omega⟩⟩

omit [DecidableEq α] in
theorem minHeapReserve_eq (s : MinHeap α) {mm : Mm} (hmm : mm.Reliable) (n : Nat) :
    ∃ a mm', minHeapReserve s mm n = (true, { s with a := a }, mm') ∧ mm'.Reliable ∧ n ≤ a := by
  unfold minHeapReserve
  by_cases h : s.a < n
  · simp only [if_pos h, hmm.alloc_fst]
    refine ⟨_, _, rfl, hmm, ?_⟩
    split <;> split <;> omega
  · exact ⟨s.a, mm, by rw [if_neg h], hmm, by omega⟩

namespace MinHeap

variable (key) in
/-- From `s` to `s'`, the element `e` has been put into the heap. -/
structure Pushed (e : α) (s s' : MinHeap α) : Prop where
  ok : Ok key s'
  mem : ∀ x, s'.Mem x ↔ x = e ∨ s.Mem x
  idx : ∀ x, ¬ s'.Mem x → s'.idx x = s.idx x

variable (key) in
/-- From `s` to `s'`, the element `e` has been taken out of the heap. -/
structure Erased (e : α) (s s' : MinHeap α) : Prop where
  ok : Ok key s'
  n : s'.n + 1 = s.n
  mem : ∀ x, s'.Mem x ↔ x ≠ e ∧ s.Mem x
  gone : s'.idx e = -1
  idx : ∀ x, ¬ s.Mem x → s'.idx x = s.idx x

end MinHeap

variable {greater : α → α → Bool}

/-- `min_heap_pop_` erases the top. -/
theorem minHeapPop_eq (h : MinHeap.Ok key s) (hn : s.n ≠ 0) :
    minHeapPop greater s = (some (s.p 0), (minHeapErase greater s (s.p 0)).2) := by
  have hidx : s.idx (s.p 0) = 0 := h.idx 0 (by omega)
  simp [minHeapPop, minHeapErase, hidx, hn]

variable (hgt : ∀ x y, greater x y = true ↔ key y < key x)
include hgt

/-- The rounds of `min_heap_shift_up_`. -/
theorem minHeapShiftUpLoop_sifted (e : α) :
    ∀ (fuel hole : Nat) (s : MinHeap α), hole ≤ fuel → hole < s.n → s.Holed hole e →
      UpHole key s.p s.n hole e →
      MinHeap.Sifted key s hole e (minHeapShiftUpLoop greater e fuel hole s) := by
  intro fuel
  induction fuel with
  | zero =>
    intro hole s hfuel _ hholed hup
    exact hholed.fill (hup.fill fun h => by omega)
  | succ fuel ih =>
    intro hole s hfuel hlt hholed hup
    unfold minHeapShiftUpLoop
    by_cases hcond : hole ≠ 0 ∧ greater (s.p ((hole - 1) / 2)) e = true
    · -- the parent moves down
      rw [if_pos hcond]
      have hkey := (hgt _ _).mp hcond.2
      have hmove := hup.move (by omega) hlt hkey.le
      rw [← MinHeap.place_p] at hmove
      exact (ih _ _ (by omega) (by rw [MinHeap.place_n]; omega)
        (hholed.move (by omega) (by omega)) hmove).of_move (by omega) (by omega) hlt
    · rw [if_neg hcond]
      refine hholed.fill (hup.fill fun hpos => ?_)
      rw [not_and, hgt, not_lt] at hcond
      exact hcond (by omega)

omit [DecidableEq α] in
/-- The child that `min_heap_shift_down_` looks at is one with the least key. -/
theorem minChild_spec (hchild : 2 * (hole + 1) ≤ s.n) :
    0 < minChild greater s hole ∧ minChild greater s hole < s.n ∧
      (minChild greater s hole - 1) / 2 = hole ∧
      ∀ i, 0 < i → i < s.n → (i - 1) / 2 = hole →
        key (s.p (minChild greater s hole)) ≤ key (s.p i) := by
  unfold minChild
  by_cases hleft : 2 * (hole + 1) = s.n ∨
      greater (s.p (2 * (hole + 1))) (s.p (2 * (hole + 1) - 1)) = true
  · rw [if_pos hleft]
    refine ⟨by omega, by omega, by omega, fun i h0 hi hpar => ?_⟩
    obtain rfl | rfl : i = 2 * (hole + 1) - 1 ∨ i = 2 * (hole + 1) := by omega
    · exact le_refl _
    rcases hleft with heq | hg
    · omega
    · exact ((hgt _ _).mp hg).le
  rw [if_neg hleft]
  rw [not_or, hgt, not_lt] at hleft
  refine ⟨by omega, by omega, by omega, fun i h0 hi hpar => ?_⟩
  obtain rfl | rfl : i = 2 * (hole + 1) - 1 ∨ i = 2 * (hole + 1) := by omega
  · exact hleft.2
  · exact le_refl _

/-- The rounds of `min_heap_shift_down_`. -/
theorem minHeapShiftDownLoop_sifted (e : α) :
    ∀ (fuel hole : Nat) (s : MinHeap α), s.n ≤ hole + fuel → s.Holed hole e →
      DownHole key s.p s.n hole e →
      MinHeap.Sifted key s hole e (minHeapShiftDownLoop greater e fuel hole s) := by
  intro fuel
  induction fuel with
  | zero =>
    intro hole s hfuel hholed hdown
    exact hholed.fill (hdown.fill fun i _ hi hpar => by omega)
  | succ fuel ih =>
    intro hole s hfuel hholed hdown
    unfold minHeapShiftDownLoop
    by_cases hchild : 2 * (hole + 1) ≤ s.n
    · obtain ⟨hc0, hcn, hpar, hmin⟩ := minChild_spec hgt hchild
      by_cases hg : greater e (s.p (minChild greater s hole)) = true
      · -- the least child moves up
        rw [if_pos ⟨hchild, hg⟩]
        have hmove := hdown.move hc0 hcn hpar hmin ((hgt _ _).mp hg).le
        rw [← MinHeap.place_p] at hmove
        exact (ih _ _ (by rw [MinHeap.place_n]; omega) (hholed.move hcn (by omega)) hmove).of_move
          hcn (by omega) (by omega)
      · rw [if_neg (fun h => hg h.2)]
        rw [hgt, not_lt] at hg
        exact hholed.fill (hdown.fill fun i h0 hi hp => le_trans hg (hmin i h0 hi hp))
    · rw [if_neg (fun h => hchild h.1)]
      exact hholed.fill (hdown.fill fun i _ hi hp => by omega)

/-- A hole is filled in one direction: towards the root when the parent is greater than `e`, and
towards the leaves otherwise. The keys of the other cells are those of a heap in order. -/
theorem minHeapShift_sifted (horder : HeapOrder key' s.p s.n)
    (hkeys : ∀ i, i < s.n → i ≠ hole → key (s.p i) = key' (s.p i)) (hholed : s.Holed hole e)
    (hinside : hole ≠ 0 → key e < key (s.p ((hole - 1) / 2)) → hole < s.n) :
    MinHeap.Sifted key s hole e (if hole ≠ 0 ∧ greater (s.p ((hole - 1) / 2)) e = true then
        minHeapShiftUpUnconditional greater s hole e
      else minHeapShiftDown greater s hole e) := by
  by_cases hup : hole ≠ 0 ∧ greater (s.p ((hole - 1) / 2)) e = true
  · rw [if_pos hup]
    have hkey := (hgt _ _).mp hup.2
    have hlt := hinside hup.1 hkey
    have hmove := (horder.upHole hkeys (by omega) hkey.le).move (by omega) hlt hkey.le
    rw [← MinHeap.place_p] at hmove
    exact (minHeapShiftUpLoop_sifted hgt e _ _ _ (Nat.le_refl _) (by rw [MinHeap.place_n]; omega)
      (hholed.move (by omega) (by omega)) hmove).of_move (by omega) (by omega) hlt
  · rw [if_neg hup]
    refine minHeapShiftDownLoop_sifted hgt e _ _ _ (Nat.le_add_left _ _) hholed
      (horder.downHole hkeys fun hpos _ => ?_)
    rw [not_and, hgt, not_lt] at hup
    exact hup (by omega)

/-- The end of `min_heap_push_`: there is room for an element that is not in the heap. -/
theorem minHeapShiftUp_pushed (h : MinHeap.Ok key s) (he : ¬ s.Mem e) {a : Nat} (ha : s.n + 1 ≤ a) :
    MinHeap.Pushed key e s (minHeapShiftUp greater { s with a := a, n := s.n + 1 } s.n e) := by
  unfold minHeapShiftUp
  have hsift := minHeapShiftUpLoop_sifted hgt e s.n s.n
    ({ s with a := a, n := s.n + 1 } : MinHeap α) (Nat.le_refl _) (Nat.lt_succ_self _)
    ⟨fun i hi hne => h.idx i (by simp only at hi; omega),
      fun i hi hne heq => he ⟨i, by simp only at hi; omega, heq⟩⟩ (h.order.upHole_last e)
  refine ⟨⟨fun i hi => hsift.idx i (hsift.n ▸ hi), hsift.n.symm ▸ hsift.order,
    by rw [hsift.n, hsift.a]; exact ha⟩, fun x => ?_, fun x hx => ?_⟩
  · rw [hsift.mem x]
    refine or_congr ⟨fun h => h.1, fun h => ⟨h, Nat.lt_succ_self _⟩⟩ ⟨?_, ?_⟩
    · rintro ⟨j, hj, hne, rfl⟩
      exact ⟨j, by simp only at hj; omega, rfl⟩
    · rintro ⟨j, hj, rfl⟩
      exact ⟨j, by simp only; omega, by omega, rfl⟩
  · rw [hsift.mem x, not_or, not_and] at hx
    exact hsift.other x (fun heq => hx.1 heq (Nat.lt_succ_self _))
      fun j hj hne heq => hx.2 ⟨j, hj, hne, heq⟩

/-- `min_heap_push_` of an element that is not in the heap. -/
theorem minHeapPush_spec (h : MinHeap.Ok key s) {mm : Mm} (hmm : mm.Reliable) (he : ¬ s.Mem e) :
    ∃ s' mm', minHeapPush greater s mm e = (true, s', mm') ∧ mm'.Reliable ∧
      MinHeap.Pushed key e s s' := by
  obtain ⟨a, mm', hres, hmm', ha⟩ := minHeapReserve_eq s hmm (s.n + 1)
  exact ⟨_, mm', by simp only [minHeapPush, hres], hmm', minHeapShiftUp_pushed hgt h he ha⟩

/-- `min_heap_push_` with any allocator: it changes nothing when it fails. -/
theorem minHeapPush_cases (h : MinHeap.Ok key s) (mm : Mm) (he : ¬ s.Mem e) :
    ∃ mm', minHeapPush greater s mm e = (false, s, mm') ∨
      ∃ s', minHeapPush greater s mm e = (true, s', mm') ∧ MinHeap.Pushed key e s s' := by
  obtain ⟨mm', hres | ⟨a, hres, ha⟩⟩ := minHeapReserve_cases s mm (s.n + 1)
  · exact ⟨mm', .inl (by simp only [minHeapPush, hres])⟩
  · exact ⟨mm', .inr ⟨_, by simp only [minHeapPush, hres], minHeapShiftUp_pushed hgt h he ha⟩⟩

/-- `min_heap_erase_` of an element of the heap. -/
theorem minHeapErase_spec (h : MinHeap.Ok key s) (he : s.Mem e) :
    ∃ s', minHeapErase greater s e = (true, s') ∧ MinHeap.Erased key e s s' := by
  obtain ⟨hole, hlt, rfl⟩ := he
  have hidx := h.idx hole hlt
  have hne1 : s.idx (s.p hole) ≠ -1 := by omega
  have hnat : (s.idx (s.p hole)).toNat = hole := by rw [hidx]; rfl
  set last := s.p (s.n - 1)
  set s1 : MinHeap α := { s with n := s.n - 1 } with hs1
  have hholed : s1.Holed hole last :=
    ⟨fun i hi _ => h.idx i (by simp only [hs1] at hi; omega), fun i hi _ heq => by
      simp only [hs1] at hi
      have := h.inj (by omega) (by omega) heq
      omega⟩
  have horder : HeapOrder key s1.p s1.n := h.order.congr (Nat.sub_le _ _) fun _ _ => rfl
  -- a hole in the last cell is in order with its parent
  have hinside : hole ≠ 0 → key last < key (s1.p ((hole - 1) / 2)) → hole < s1.n := by
    intro hpos hkey
    by_contra hge
    simp only [hs1] at hge
    obtain rfl : hole = s.n - 1 := by omega
    exact absurd (h.order _ (by omega) hlt) (not_le.mpr hkey)
  have hs := minHeapShift_sifted hgt horder (fun _ _ _ => rfl) hholed hinside
  set s' := if hole ≠ 0 ∧ greater (s1.p ((hole - 1) / 2)) last = true then
    minHeapShiftUpUnconditional greater s1 hole last else minHeapShiftDown greater s1 hole last
  have hrun : minHeapErase greater s (s.p hole) = (true, s'.clearIdx (s.p hole)) := by
    unfold minHeapErase
    rw [if_neg hne1, hnat]
    show (if hole ≠ 0 ∧ greater (s1.p ((hole - 1) / 2)) last = true then _ else _) = _
    rw [← apply_ite (fun x : MinHeap α => (true, x.clearIdx (s.p hole)))]
  have hn : s'.n = s.n - 1 := hs.n
  have hmem : ∀ x, s'.Mem x ↔ x ≠ s.p hole ∧ s.Mem x := by
    intro x
    rw [hs.mem x]
    constructor
    · rintro (⟨rfl, hh⟩ | ⟨j, hj, hjh, rfl⟩)
      · refine ⟨fun heq => ?_, s.n - 1, by omega, rfl⟩
        have := h.inj (by omega) hlt heq
        simp only [hs1] at hh
        omega
      · simp only [hs1] at hj
        exact ⟨fun heq => hjh (h.inj (by omega) hlt heq), j, by omega, rfl⟩
    · rintro ⟨hx, j, hj, rfl⟩
      have hjh : j ≠ hole := fun heq => hx (by rw [heq])
      by_cases hjl : j = s.n - 1
      · exact .inl ⟨by rw [hjl], by simp only [hs1]; omega⟩
      · exact .inr ⟨j, by simp only [hs1]; omega, hjh, rfl⟩
  have hroom : s'.n ≤ s'.a := by
    rw [hn, hs.a]
    exact (Nat.sub_le _ _).trans h.room
  refine ⟨_, hrun, ⟨fun i hi => ?_, hn.symm ▸ hs.order, hroom⟩, by rw [MinHeap.clearIdx_n]; omega,
    hmem, by simp [MinHeap.clearIdx], fun x hx => ?_⟩
  · have hx : s'.p i ≠ s.p hole := ((hmem _).mp ⟨i, hi, rfl⟩).1
    have := hs.idx i (hs.n ▸ hi)
    simpa [MinHeap.clearIdx, hx] using this
  have hne : x ≠ s.p hole := fun heq => hx ⟨hole, hlt, heq.symm⟩
  have hkept : s'.idx x = s1.idx x := by
    refine hs.other x (fun heq => hx ⟨s.n - 1, by omega, heq.symm⟩) fun j hj _ heq => ?_
    simp only [hs1] at hj
    exact hx ⟨j, by omega, heq⟩
  simpa [MinHeap.clearIdx, hne] using hkept

/-- `min_heap_adjust_` of an element of the heap whose key has changed. -/
theorem minHeapAdjust_spec (h : MinHeap.Ok key' s) (he : s.Mem e)
    (hkeys : ∀ x, x ≠ e → key x = key' x) (mm : Mm) :
    ∃ s', minHeapAdjust greater s mm e = (true, s', mm) ∧ MinHeap.Ok key s' ∧
      (∀ x, s'.Mem x ↔ s.Mem x) ∧ ∀ x, ¬ s.Mem x → s'.idx x = s.idx x := by
  obtain ⟨hole, hlt, rfl⟩ := he
  have hidx := h.idx hole hlt
  have hne1 : s.idx (s.p hole) ≠ -1 := by omega
  have hnat : (s.idx (s.p hole)).toNat = hole := by rw [hidx]; rfl
  have hother : ∀ i, i < s.n → i ≠ hole → s.p i ≠ s.p hole :=
    fun i hi hne heq => hne (h.inj hi hlt heq)
  have hs := minHeapShift_sifted hgt h.order (fun i hi hne => hkeys _ (hother i hi hne))
    ⟨fun i hi _ => h.idx i hi, hother⟩ fun _ _ => hlt
  rw [minHeapAdjust, if_neg hne1, hnat, ← apply_ite (fun x : MinHeap α => (true, x, mm))]
  refine ⟨_, rfl, ⟨fun i hi => hs.idx i (hs.n ▸ hi), hs.n.symm ▸ hs.order,
    by rw [hs.n, hs.a]; exact h.room⟩, fun x => ?_, fun x hx => ?_⟩
  · rw [hs.mem x]
    constructor
    · rintro (⟨rfl, -⟩ | ⟨j, hj, -, rfl⟩)
      · exact ⟨hole, hlt, rfl⟩
      · exact ⟨j, hj, rfl⟩
    · rintro ⟨j, hj, rfl⟩
      by_cases hjh : j = hole
      · exact .inl ⟨by rw [hjh], hlt⟩
      · exact .inr ⟨j, hj, hjh, rfl⟩
  · exact hs.other x (fun heq => hx ⟨hole, hlt, heq.symm⟩) fun j hj _ heq => hx ⟨j, hj, heq⟩

end

end Libevent
