import Mathlib.Tactic
import Mathlib.Data.List.DropRight

/-!
# `Libevent.Lib.Span`: scanning a list up to the first element that fails a test

`takeWhile` and `dropWhile` cut a list at the first element that fails the test. `span_unique` says
that there is only one such cut, so that a scanner is evaluated by naming the two parts.
-/

namespace Libevent.Lib

variable {α : Type} {p : α → Bool} {l a b : List α}

/-- The list is empty, or its head fails the test. -/
def Stops (p : α → Bool) (l : List α) : Prop := ∀ x ∈ l.head?, p x = false

@[simp] theorem stops_nil : Stops p [] := by simp [Stops]

@[simp] theorem stops_cons {x : α} : Stops p (x :: l) ↔ p x = false := by
  simp [Stops]

theorem stops_dropWhile (p : α → Bool) (l : List α) : Stops p (l.dropWhile p) := by
  induction l with
  | nil => exact stops_nil
  | cons x l ih =>
    cases hx : p x with
    | true => rwa [List.dropWhile_cons_of_pos hx]
    | false =>
      rw [List.dropWhile_cons_of_neg (by simp [hx])]
      exact stops_cons.mpr hx

section
variable (ha : ∀ x ∈ a, p x = true) (hb : Stops p b)
include ha hb

/-- A cut in front of the first element that fails the test is the cut of `takeWhile` and
`dropWhile`. -/
theorem span_unique : (a ++ b).takeWhile p = a ∧ (a ++ b).dropWhile p = b := by
  induction a with
  | nil =>
    cases b with
    | nil => simp
    | cons x b => simp [stops_cons.mp hb]
  | cons x a ih =>
    have hx : p x = true := ha x List.mem_cons_self
    obtain ⟨htake, hdrop⟩ := ih fun y hy => ha y (List.mem_cons_of_mem x hy)
    simp [hx, htake, hdrop]

theorem takeWhile_append_stops : (a ++ b).takeWhile p = a :=
  (span_unique ha hb).1

theorem dropWhile_append_stops : (a ++ b).dropWhile p = b :=
  (span_unique ha hb).2

end

/-- Nothing is dropped from a list whose head fails the test. -/
theorem dropWhile_of_stops (h : Stops p l) : l.dropWhile p = l := by
  simpa using dropWhile_append_stops (a := []) (by simp) h

theorem takeWhile_of_forall (h : ∀ x ∈ l, p x = true) : l.takeWhile p = l := by
  simpa using takeWhile_append_stops (b := []) h stops_nil

theorem forall_ne_of_not_mem [DecidableEq α] {c : α} (h : c ∉ l) :
    ∀ x ∈ l, decide (x ≠ c) = true := by
  intro x hx
  simpa using ne_of_mem_of_not_mem hx h

/-- The rest of a list behind a scan for `c` begins with `c`. -/
theorem cut_of_dropWhile_ne [DecidableEq α] {rest : List α} {b c : α}
    (h : l.dropWhile (· ≠ c) = b :: rest) : l = l.takeWhile (· ≠ c) ++ c :: rest := by
  have hb : b = c := by
    have hstops := stops_dropWhile (fun x => decide (x ≠ c)) l
    rw [h] at hstops
    simpa using stops_cons.mp hstops
  calc l = l.takeWhile (· ≠ c) ++ l.dropWhile (· ≠ c) := List.takeWhile_append_dropWhile.symm
    _ = l.takeWhile (· ≠ c) ++ c :: rest := by rw [h, hb]

end Libevent.Lib
