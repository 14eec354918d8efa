import Mathlib.Data.Nat.Bitwise
import Mathlib.Tactic

/-!
# `Libevent.Basic`: shared vocabulary of the model

The types every part of the model uses: what stops a run (`Fault`), the outcomes of
`mm_malloc` and its relatives (`Mm`), and the bit masks of `event2/event.h`.

The build that is modelled is the one for Linux on a 64-bit machine: `size_t`, `off_t` and
pointers are 64 bits wide, `int` is 32 bits wide, and assertions are compiled in.
-/

namespace Libevent

/-- The content of a buffer, or a string without its terminating zero. -/
abbrev Bytes := List UInt8

/-- Why a run stops inside a function. `assertFailed` is `EVUTIL_ASSERT` (or `event_errx`):
the process aborts. `outOfFuel` would be a loop of the source that goes on longer than the
bound that the model gives it. The others are undefined behaviour in the source: the model
does not continue after them. -/
inductive Fault where
  | assertFailed
  | useAfterFree
  | nullDeref
  | outOfBounds
  | notLinked
  | outOfFuel
  deriving DecidableEq, Repr

/-- The outcomes of the allocator. Call number `i` of `mm_malloc`, `mm_calloc` or
`mm_realloc` returns `NULL` when `fails i` holds. -/
structure Mm where
  calls : Nat := 0
  fails : Nat → Bool := fun _ => false

namespace Mm

/-- One allocation: whether it succeeds, and the allocator after the call. -/
def alloc (mm : Mm) : Bool × Mm :=
  (!mm.fails mm.calls, { mm with calls := mm.calls + 1 })

/-- No allocation fails. -/
def Reliable (mm : Mm) : Prop :=
  ∀ i, mm.fails i = false

theorem Reliable.alloc_fst {mm : Mm} (h : mm.Reliable) : mm.alloc.1 = true := by
  simp [alloc, h mm.calls]

theorem Reliable.congr {mm mm' : Mm} (h : mm.Reliable) (hfails : mm'.fails = mm.fails) :
    mm'.Reliable := fun i => by rw [hfails]; exact h i

@[simp] theorem reliable_alloc_snd {mm : Mm} : mm.alloc.2.Reliable ↔ mm.Reliable := Iff.rfl

end Mm

def INT_MAX : Nat := 2 ^ 31 - 1

def EV_SIZE_MAX : Nat := 2 ^ 64 - 1

def EV_SSIZE_MAX : Nat := 2 ^ 63 - 1

/-! ### Event masks (`event2/event.h`) -/

def EV_TIMEOUT : Nat := 0x01
def EV_READ : Nat := 0x02
def EV_WRITE : Nat := 0x04
def EV_SIGNAL : Nat := 0x08
def EV_PERSIST : Nat := 0x10
def EV_ET : Nat := 0x20
def EV_FINALIZE : Nat := 0x40
def EV_CLOSED : Nat := 0x80

/-- `mask & bits` as a C condition. -/
def hasAny (mask bits : Nat) : Bool :=
  mask &&& bits != 0

/-- The address of a `struct event`. -/
abbrev EvId := Nat

end Libevent
