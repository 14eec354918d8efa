import Libevent.Inet
import Mathlib.Tactic

/-!
# `Libevent.Proofs.Inet`: `evutil_inet_ntop` and the size of its buffer

For an IPv6 address, the text is compared with the size of the buffer without its `NUL`, so that a
text that is as long as the buffer is cut by one character, and `dst` is returned.
`evutilInetNtop_full_iff`: this is the only case in which the result is not `NULL` exactly when the
text does not fit, with the whole text there otherwise.
-/

namespace Libevent

theorem dottedText_length_le (a b c d : UInt8) : (dottedText a b c d).length ≤ 15 := by
  have hbyte : ∀ x : UInt8, (Nat.toDigits 10 x.toNat).length ≤ 3 := fun x =>
    (Nat.length_toDigits_le_iff (by decide) (by decide)).mpr (x.toNat_lt.trans (by decide))
  have ha := hbyte a
  have hb := hbyte b
  have hc := hbyte c
  have hd := hbyte d
  simp [dottedText]
  omega

/-- A word takes four digits and a colon. -/
theorem wordsText_length_le {words : List Nat} (hwords : ∀ i, words.getD i 0 < 65536)
    (gap : Option Nat) (fuel i : Nat) : (wordsText words gap fuel i).length ≤ 5 * fuel := by
  induction fuel generalizing i with
  | zero => simp [wordsText]
  | succ fuel ih =>
    have hhex : (Nat.toDigits 16 (words.getD i 0)).length ≤ 4 :=
      (Nat.length_toDigits_le_iff (by decide) (by decide)).mpr (hwords i)
    have hgap := ih (i + zeroRun words i)
    have hnext := ih (i + 1)
    unfold wordsText
    split
    · split
      · split <;> simp only [List.length_append, List.length_cons, List.length_nil] <;> omega
      · split <;> simp only [List.length_append, List.length_cons, List.length_nil] <;> omega
    · simp

/-- `buf` is large enough. -/
theorem inet6_text_length_le (addr : Fin 16 → UInt8) : (InetAddr.inet6 addr).text.length ≤ 63 := by
  have hdotted := dottedText_length_le (addr 12) (addr 13) (addr 14) (addr 15)
  have hwords : ∀ i, ((List.range 8).map fun i =>
      (addr (Fin.ofNat 16 (2 * i))).toNat * 256 + (addr (Fin.ofNat 16 (2 * i + 1))).toNat).getD i
        0 <
        65536 := by
    intro i
    rw [List.getD_eq_getElem?_getD, List.getElem?_map]
    cases (List.range 8)[i]? with
    | none => simp
    | some j =>
      have h1 := (addr (Fin.ofNat 16 (2 * j))).toNat_lt
      have h2 := (addr (Fin.ofNat 16 (2 * j + 1))).toNat_lt
      simp only [Option.map_some, Option.getD_some]
      omega
  unfold InetAddr.text
  dsimp only
  generalize (List.range 8).map (fun i => (addr (Fin.ofNat 16 (2 * i))).toNat * 256 +
    (addr (Fin.ofNat 16 (2 * i + 1))).toNat) = words at *
  split
  · have hhex : (Nat.toDigits 16 (words.getD 5 0)).length ≤ 4 :=
      (Nat.length_toDigits_le_iff (by decide) (by decide)).mpr (hwords 5)
    split <;> simp only [List.length_append, List.length_cons, List.length_nil] <;> omega
  · exact (wordsText_length_le hwords _ 8 0).trans (by decide)

variable {mem text : List Char} {len : Nat}

/-- A text that fits leaves alone what is behind the buffer. -/
theorem writeText_drop (h : text.length ≤ len) : (writeText mem text).drop len = mem.drop len := by
  rw [writeText, List.drop_append, List.drop_of_length_le h, List.nil_append, List.drop_drop,
    Nat.add_sub_cancel' h]

theorem evutilSnprintf_drop (mem text : List Char) (len : Nat) :
    (evutilSnprintf mem len text).2.drop len = mem.drop len := by
  unfold evutilSnprintf
  split
  · rfl
  rw [List.drop_set_of_lt (by omega), writeText_drop]
  simp only [List.length_append, List.length_take, List.length_cons, List.length_nil]
  omega

theorem strlcpy_drop (mem text : List Char) (len : Nat) :
    (strlcpy mem text len).drop len = mem.drop len := by
  unfold strlcpy
  split
  · rfl
  rw [writeText_drop]
  simp only [List.length_append, List.length_take, List.length_cons, List.length_nil]
  omega

theorem strlcpy_fits (h : text.length + 1 ≤ len) :
    (strlcpy mem text len).take (text.length + 1) = text ++ ['\x00'] := by
  have htext : text.take (len - 1) = text := List.take_of_length_le (by omega)
  rw [strlcpy, if_neg (by omega), htext]
  exact List.take_left' (by simp)

/-- `evutil_snprintf` sets the last byte of the buffer, which is the `NUL` or behind it. -/
theorem evutilSnprintf_fits (h : text.length + 1 ≤ len) :
    (evutilSnprintf mem len text).2.take (text.length + 1) = text ++ ['\x00'] := by
  have htext : text.take (len - 1) = text := List.take_of_length_le (by omega)
  rw [evutilSnprintf, if_neg (by omega), htext]
  rw [List.take_set, writeText, List.take_left' (by simp)]
  by_cases hlast : len - 1 = text.length
  · rw [hlast]
    simp
  · exact List.set_eq_of_length_le (by simp only [List.length_append, List.length_singleton]; omega)

/-- The result is `NULL` exactly when the text and its `NUL` do not fit, the text is complete
otherwise, and nothing is written behind the buffer: this holds if and only if the text is not that
of an IPv6 address and as long as the buffer. -/
theorem evutilInetNtop_full_iff (src : InetAddr) (mem : List Char) (len : Nat) (hlen : 1 ≤ len) :
    (((evutilInetNtop src mem len).1 = false ↔ len < src.text.length + 1) ∧
      (src.text.length + 1 ≤ len →
        (evutilInetNtop src mem len).2.take (src.text.length + 1) = src.text ++ ['\x00']) ∧
      (evutilInetNtop src mem len).2.drop len = mem.drop len) ↔
    ∀ addr, src = .inet6 addr → src.text.length ≠ len := by
  cases src with
  | inet a =>
    refine iff_of_true ⟨?_, evutilSnprintf_fits, evutilSnprintf_drop mem _ len⟩ (by rintro _ ⟨⟩)
    simp only [evutilInetNtop, evutilSnprintf, if_neg (Nat.ne_of_gt hlen), decide_eq_false_iff_not]
    omega
  | inet6 addr =>
    simp only [evutilInetNtop, List.take_of_length_le (inet6_text_length_le addr)]
    by_cases hlong : (InetAddr.inet6 addr).text.length > len
    · simp only [if_pos hlong, true_iff]
      exact iff_of_true ⟨by omega, fun h => by omega, trivial⟩ fun _ _ => by omega
    simp only [if_neg hlong, Bool.true_eq_false, false_iff]
    constructor
    · rintro ⟨hnull, -⟩ _ - heq
      exact hnull (by omega)
    intro hne
    have := hne addr rfl
    exact ⟨by omega, strlcpy_fits, strlcpy_drop mem _ len⟩

/-- `::1`. -/
def loopback : InetAddr := .inet6 fun i => if i.val = 15 then 1 else 0

/-- The loopback address fits. -/
theorem evutilInetNtop_full_loopback :
    (evutilInetNtop loopback [] 4).2.take (loopback.text.length + 1) = loopback.text ++ ['\x00'] :=
  ((evutilInetNtop_full_iff loopback [] 4 (by decide)).mpr fun _ _ => by decide).2.1 (by decide)

/-- In three bytes, the result is `dst`, with `::`. -/
theorem evutilInetNtop_cuts : evutilInetNtop loopback ['?', '?', '?'] 3 =
    (true, [':', ':', '\x00']) ∧ loopback.text.length = 3 := by
  decide

end Libevent
