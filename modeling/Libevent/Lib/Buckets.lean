import Mathlib.Data.List.Perm.Basic
import Mathlib.Tactic

/-!
# `Libevent.Lib.Buckets`: elements that are kept in a list of lists

A hash table is a list of buckets, and its elements are those of the list `flatten`, in some order.
`flatten_modify_append` and `flatten_modify_erase` say what an insertion into one bucket and a
removal from it do to the elements. `countP_cons_congr` compares two counts that differ in one
element.
-/

namespace Libevent.Lib

variable {α : Type} {bs : List (List α)} {a : α}

theorem mem_flatten_iff_getElem? :
    a ∈ bs.flatten ↔ ∃ (k : Nat) (bucket : List α), bs[k]? = some bucket ∧ a ∈ bucket := by
  rw [List.mem_flatten]
  constructor
  · rintro ⟨bucket, hbucket, ha⟩
    obtain ⟨k, hk⟩ := List.mem_iff_getElem?.mp hbucket
    exact ⟨k, bucket, hk, ha⟩
  · rintro ⟨k, bucket, hk, ha⟩
    exact ⟨bucket, List.mem_of_getElem? hk, ha⟩

/-- Appending to one bucket adds one element. -/
theorem flatten_modify_append (bs : List (List α)) {k : Nat} (hk : k < bs.length) (a : α) :
    (bs.modify k (· ++ [a])).flatten.Perm (a :: bs.flatten) := by
  induction bs generalizing k with
  | nil => exact absurd hk (Nat.not_lt_zero k)
  | cons bucket bs ih =>
    cases k with
    | zero =>
      rw [List.modify_zero_cons, List.flatten_cons, List.append_assoc]
      exact List.perm_middle
    | succ k =>
      have hrest := ih (Nat.lt_of_succ_lt_succ hk)
      exact (hrest.append_left bucket).trans List.perm_middle

variable [DecidableEq α]

/-- Erasing from the bucket that an element is in removes that element. -/
theorem flatten_modify_erase {k : Nat} {bucket : List α} (hk : bs[k]? = some bucket)
    (ha : a ∈ bucket) :
    bs.flatten.Perm (a :: (bs.modify k (·.erase a)).flatten) := by
  induction bs generalizing k with
  | nil => simp at hk
  | cons first bs ih =>
    cases k with
    | zero =>
      obtain rfl : first = bucket := by simpa using hk
      exact (List.perm_cons_erase ha).append_right bs.flatten
    | succ k =>
      have hrest := ih (by simpa using hk)
      exact (hrest.append_left first).trans List.perm_middle

omit [DecidableEq α] in
/-- Two counts over a list whose first element is the only one that is counted differently. -/
theorem countP_cons_congr {p q : α → Bool} {l : List α} (h : ∀ x ∈ l, p x = q x) :
    (a :: l).countP q + (if p a then 1 else 0) = (a :: l).countP p + (if q a then 1 else 0) := by
  have hrest : l.countP p = l.countP q := List.countP_congr fun x hx => by rw [h x hx]
  rw [List.countP_cons, List.countP_cons]
  omega

end Libevent.Lib
