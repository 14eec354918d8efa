import Mathlib.Logic.Basic
import Mathlib.Tactic

/-!
# `Libevent.Lib.Indexed`: an array without holes and the positions of its keys

The first `n` entries of an array have different keys, and next to each key its position is kept,
plus one, so that 0 says that the array has no entry for the key. Such an array is a finite map
(`lookup`). An entry is added at the end. The hole that a deletion leaves is filled with the last
entry, whose position is then corrected.

* `Indexed.push`, `Indexed.set`, `Indexed.remove`: what the operations make of the map.
-/

namespace Libevent.Lib

variable {ε κ : Type} {k : κ} {i : Nat}

/-- `pos` has the positions, plus one, of the first `n` entries. -/
structure Indexed (n : Nat) (entry : Nat → ε) (key : ε → κ) (pos : κ → Nat) : Prop where
  listed : ∀ i, i < n → pos (key (entry i)) = i + 1
  found : ∀ k i, pos k = i + 1 → i < n ∧ key (entry i) = k

/-- The entry of a key. -/
def lookup (entry : Nat → ε) (pos : κ → Nat) (k : κ) : Option ε :=
  match pos k with
  | 0 => none
  | i + 1 => some (entry i)

variable {n : Nat} {entry entry' : Nat → ε} {key : ε → κ} {pos pos' : κ → Nat}

theorem lookup_eq_none_iff : lookup entry pos k = none ↔ pos k = 0 := by
  rw [lookup]
  split
  · next hpos => simp [hpos]
  · next i hpos => simp [hpos]

theorem lookup_of_pos (hpos : pos k = i + 1) : lookup entry pos k = some (entry i) := by
  rw [lookup, hpos]

theorem Indexed.lookup_entry (h : Indexed n entry key pos) (hi : i < n) :
    lookup entry pos (key (entry i)) = some (entry i) :=
  lookup_of_pos (h.listed i hi)

theorem Indexed.key_injective (h : Indexed n entry key pos) {j : Nat} (hi : i < n) (hj : j < n)
    (hkey : key (entry i) = key (entry j)) : i = j := by
  have hi' := h.listed i hi
  have hj' := h.listed j hj
  rw [hkey] at hi'
  omega

theorem Indexed.empty (hpos : ∀ k, pos k = 0) : Indexed 0 entry key pos where
  listed := fun i hi => absurd hi (by omega)
  found := fun k i hk => by
    rw [hpos] at hk
    omega

variable [DecidableEq κ]

/-- A new key gets an entry at the end. -/
theorem Indexed.push (h : Indexed n entry key pos) {e : ε} (hnew : pos (key e) = 0)
    (hold : ∀ i, i < n → entry' i = entry i) (hlast : entry' n = e)
    (hpos : ∀ k, pos' k = if k = key e then n + 1 else pos k) :
    Indexed (n + 1) entry' key pos' ∧
      ∀ k, lookup entry' pos' k = if k = key e then some e else lookup entry pos k := by
  constructor
  · constructor
    · intro i hi
      rcases Nat.lt_or_ge i n with hlt | hge
      · -- the key of an old entry has a position already
        have hne : key (entry i) ≠ key e := by
          intro heq
          have hi' := h.listed i hlt
          rw [heq] at hi'
          omega
        rw [hold i hlt, hpos, if_neg hne]
        exact h.listed i hlt
      · obtain rfl : i = n := by omega
        rw [hlast, hpos, if_pos rfl]
    · intro k i hk
      rw [hpos] at hk
      split at hk
      · next heq =>
        obtain rfl : i = n := by omega
        exact ⟨by omega, hlast.symm ▸ heq.symm⟩
      · obtain ⟨hi, hkey⟩ := h.found k i hk
        exact ⟨by omega, by rw [hold i hi, hkey]⟩
  · intro k
    by_cases hk : k = key e
    · rw [if_pos hk, lookup_of_pos (by rw [hpos, if_pos hk]), hlast]
    rw [if_neg hk]
    have hsame : pos' k = pos k := by rw [hpos, if_neg hk]
    cases hk' : pos k with
    | zero => rw [lookup_eq_none_iff.mpr hk', lookup_eq_none_iff.mpr (hsame.trans hk')]
    | succ i =>
      rw [lookup_of_pos hk', lookup_of_pos (hsame.trans hk'), hold i (h.found k i hk').1]

/-- The entry of a key is replaced by another one for this key. -/
theorem Indexed.set (h : Indexed n entry key pos) (hi : pos k = i + 1) {e : ε} (hkey : key e = k)
    (hset : ∀ j, j < n → entry' j = if j = i then e else entry j) :
    Indexed n entry' key pos ∧
      ∀ x, lookup entry' pos x = if x = k then some e else lookup entry pos x := by
  have hkeys : ∀ j, j < n → key (entry' j) = key (entry j) := by
    intro j hj
    rw [hset j hj]
    split
    · next heq => rw [hkey, heq, (h.found k i hi).2]
    · rfl
  constructor
  · constructor
    · intro j hj
      rw [hkeys j hj]
      exact h.listed j hj
    · intro x j hx
      obtain ⟨hj, hxkey⟩ := h.found x j hx
      exact ⟨hj, (hkeys j hj).trans hxkey⟩
  intro x
  cases hx : pos x with
  | zero =>
    have hne : x ≠ k := by
      rintro rfl
      omega
    rw [if_neg hne, lookup_eq_none_iff.mpr hx, lookup_eq_none_iff.mpr hx]
  | succ j =>
    obtain ⟨hj, hxkey⟩ := h.found x j hx
    rw [lookup_of_pos hx, lookup_of_pos hx, hset j hj]
    by_cases hxk : x = k
    · rw [if_pos hxk, if_pos]
      subst hxk
      omega
    · rw [if_neg hxk, if_neg]
      rintro rfl
      exact hxk (hxkey.symm.trans (h.found k j hi).2)

/-- The entry of a key is deleted, and the last one comes in its place. -/
theorem Indexed.remove (h : Indexed (n + 1) entry key pos) (hi : pos k = i + 1)
    (hentry : ∀ j, j < n → entry' j = if j = i then entry n else entry j)
    (hpos : ∀ x, pos' x = if x = k then 0 else if x = key (entry n) then i + 1 else pos x) :
    Indexed n entry' key pos' ∧
      ∀ x, lookup entry' pos' x = if x = k then none else lookup entry pos x := by
  obtain ⟨hin, hik⟩ := h.found k i hi
  have hlast : pos (key (entry n)) = n + 1 := h.listed n (by omega)
  have hfound : ∀ x j, pos' x = j + 1 → x ≠ k ∧ j < n ∧ lookup entry pos x = some (entry' j) ∧
      key (entry' j) = x := by
    intro x j hx
    rw [hpos] at hx
    split at hx
    · omega
    next hxk =>
    split at hx
    · -- the last entry, which has moved into the hole
      next hxn =>
      obtain rfl : j = i := by omega
      have hjn : j ≠ n := by
        rintro rfl
        exact hxk (hxn.trans hik)
      rw [hentry j (by omega), if_pos rfl]
      exact ⟨hxk, by omega, lookup_of_pos (hxn ▸ hlast), hxn.symm⟩
    next hxn =>
    obtain ⟨hj, hxkey⟩ := h.found x j hx
    have hji : j ≠ i := by
      rintro rfl
      exact hxk (hxkey.symm.trans hik)
    have hjn : j ≠ n := by
      rintro rfl
      exact hxn hxkey.symm
    rw [hentry j (by omega), if_neg hji]
    exact ⟨hxk, by omega, lookup_of_pos hx, hxkey⟩
  constructor
  · constructor
    · intro j hj
      rw [hentry j hj]
      split
      · next hji =>
        subst hji
        have hne : key (entry n) ≠ k := by
          intro heq
          rw [heq] at hlast
          omega
        rw [hpos, if_neg hne, if_pos rfl]
      next hji =>
      have hjpos := h.listed j (by omega)
      have hjk : key (entry j) ≠ k := by
        intro heq
        rw [heq] at hjpos
        omega
      have hjn : key (entry j) ≠ key (entry n) := by
        intro heq
        rw [heq] at hjpos
        omega
      rw [hpos, if_neg hjk, if_neg hjn]
      exact hjpos
    · intro x j hx
      obtain ⟨-, hj, -, hxkey⟩ := hfound x j hx
      exact ⟨hj, hxkey⟩
  · intro x
    cases hx : pos' x with
    | zero =>
      rw [lookup_eq_none_iff.mpr hx]
      by_cases hxk : x = k
      · rw [if_pos hxk]
      rw [if_neg hxk]
      rw [hpos, if_neg hxk] at hx
      split at hx
      · omega
      · rw [lookup_eq_none_iff.mpr hx]
    | succ j =>
      obtain ⟨hxk, -, hlookup, -⟩ := hfound x j hx
      rw [lookup_of_pos hx, if_neg hxk, hlookup]

end Libevent.Lib
