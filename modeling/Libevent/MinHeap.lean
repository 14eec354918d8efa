import Libevent.Basic

/-!
# `Libevent.MinHeap`: the time heap

`minheap-internal.h`. `p` are the cells of the array (those from `n` on hold nothing), `a` is
the size of the allocation, and `idx` is the field `ev_timeout_pos.min_heap_idx` of each
element. The elements are compared with `greater`, for `min_heap_elem_greater`.
-/

namespace Libevent

/-- `min_heap_t`, together with the `min_heap_idx` of the elements. -/
structure MinHeap (α : Type) where
  p : Nat → α
  n : Nat := 0
  a : Nat := 0
  idx : α → Int := fun _ => -1

namespace MinHeap

variable {α : Type} [DecidableEq α] (s : MinHeap α)

/-- `(s->p[i] = e)->ev_timeout_pos.min_heap_idx = i`. -/
def place (i : Nat) (e : α) : MinHeap α :=
  { s with
      p := fun j => if j = i then e else s.p j
      idx := fun x => if x = e then i else s.idx x }

/-- `e->ev_timeout_pos.min_heap_idx = -1`. -/
def clearIdx (e : α) : MinHeap α :=
  { s with idx := fun x => if x = e then -1 else s.idx x }

end MinHeap

section
variable {α : Type} [DecidableEq α] (greater : α → α → Bool) (s : MinHeap α)

/-- `min_heap_top_`. -/
def minHeapTop : Option α :=
  if s.n = 0 then none else some (s.p 0)

/-- `min_heap_reserve_`: false when `mm_realloc` fails. -/
def minHeapReserve (mm : Mm) (n : Nat) : Bool × MinHeap α × Mm :=
  if s.a < n then
    let a := if s.a = 0 then 8 else s.a * 2
    if mm.alloc.1 then (true, { s with a := if a < n then n else a }, mm.alloc.2)
    else (false, s, mm.alloc.2)
  else (true, s, mm)

/-- The loop of `min_heap_shift_up_`. The hole is halved in each round, so `hole` rounds are
enough. -/
def minHeapShiftUpLoop (e : α) : (fuel hole : Nat) → MinHeap α → MinHeap α
  | 0, hole, s => s.place hole e
  | fuel + 1, hole, s =>
    if hole ≠ 0 ∧ greater (s.p ((hole - 1) / 2)) e then
      minHeapShiftUpLoop e fuel ((hole - 1) / 2) (s.place hole (s.p ((hole - 1) / 2)))
    else s.place hole e

/-- `min_heap_shift_up_`. -/
def minHeapShiftUp (hole : Nat) (e : α) : MinHeap α :=
  minHeapShiftUpLoop greater e hole hole s

/-- `min_heap_shift_up_unconditional_`: the first round does not compare. -/
def minHeapShiftUpUnconditional (hole : Nat) (e : α) : MinHeap α :=
  minHeapShiftUp greater (s.place hole (s.p ((hole - 1) / 2))) ((hole - 1) / 2) e

/-- The child of the hole that `min_heap_shift_down_` looks at: the right one, unless it is
not there or greater than the left one. -/
def minChild (hole : Nat) : Nat :=
  if 2 * (hole + 1) = s.n ∨ greater (s.p (2 * (hole + 1))) (s.p (2 * (hole + 1) - 1)) then
    2 * (hole + 1) - 1
  else 2 * (hole + 1)

/-- The loop of `min_heap_shift_down_`. The hole grows in each round, so `n` rounds are
enough. -/
def minHeapShiftDownLoop (e : α) : (fuel hole : Nat) → MinHeap α → MinHeap α
  | 0, hole, s => s.place hole e
  | fuel + 1, hole, s =>
    if 2 * (hole + 1) ≤ s.n ∧ greater e (s.p (minChild greater s hole)) then
      minHeapShiftDownLoop e fuel (minChild greater s hole)
        (s.place hole (s.p (minChild greater s hole)))
    else s.place hole e

/-- `min_heap_shift_down_`. -/
def minHeapShiftDown (hole : Nat) (e : α) : MinHeap α :=
  minHeapShiftDownLoop greater e s.n hole s

/-- `min_heap_push_`: false when the heap cannot grow. -/
def minHeapPush (mm : Mm) (e : α) : Bool × MinHeap α × Mm :=
  match minHeapReserve s mm (s.n + 1) with
  | (false, s, mm) => (false, s, mm)
  | (true, s, mm) => (true, minHeapShiftUp greater { s with n := s.n + 1 } s.n e, mm)

/-- `min_heap_pop_`. -/
def minHeapPop : Option α × MinHeap α :=
  if s.n = 0 then (none, s)
  else
    let e := s.p 0
    let last := s.p (s.n - 1)
    (some e, (minHeapShiftDown greater { s with n := s.n - 1 } 0 last).clearIdx e)

/-- `min_heap_erase_`: false when `e` is not in a heap. -/
def minHeapErase (e : α) : Bool × MinHeap α :=
  if s.idx e = -1 then (false, s)
  else
    let hole := (s.idx e).toNat
    let last := s.p (s.n - 1)
    let s := { s with n := s.n - 1 }
    if hole ≠ 0 ∧ greater (s.p ((hole - 1) / 2)) last then
      (true, (minHeapShiftUpUnconditional greater s hole last).clearIdx e)
    else (true, (minHeapShiftDown greater s hole last).clearIdx e)

/-- `min_heap_adjust_`, after the key of `e` has changed: false when `e` is not in a heap and the
heap cannot grow. -/
def minHeapAdjust (mm : Mm) (e : α) : Bool × MinHeap α × Mm :=
  if s.idx e = -1 then minHeapPush greater s mm e
  else
    let hole := (s.idx e).toNat
    if hole ≠ 0 ∧ greater (s.p ((hole - 1) / 2)) e then
      (true, minHeapShiftUpUnconditional greater s hole e, mm)
    else (true, minHeapShiftDown greater s hole e, mm)

end

end Libevent
