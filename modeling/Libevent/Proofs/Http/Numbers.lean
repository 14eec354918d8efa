import Libevent.Http.Body
import Libevent.Lib.Span

/-!
# `Libevent.Proofs.Http.Numbers`: what `strtoll` reads

`Scanned` cuts a text into the parts that `strtoll` distinguishes: white space, a sign, the prefix
of base 16, digits, and the rest. `strtoll_scanned` gives its result for such a text, and
`strtoll_cases` says that it finds no number in any other.
-/

namespace Libevent

open Lib

/-! ### Digits -/

/-- A digit is none of the bytes that mean something else to `strtoll` or to the line reader. -/
structure OrdinaryByte (b : UInt8) : Prop where
  space : isSpace b = false
  plus : b ≠ 43
  minus : b ≠ 45
  x : b ≠ 120
  upperX : b ≠ 88
  nul : b ≠ NUL
  lf : b ≠ LF

variable {b : UInt8}

theorem ordinaryByte_of_isDigitOf {base : Nat} (h : isDigitOf base b = true) : OrdinaryByte b := by
  have hvalue : digitValue b ≠ none := by
    intro hnone
    simp [isDigitOf, hnone] at h
  constructor <;> simp only [digitValue, isSpace, SP, NUL, LF] at hvalue ⊢ <;> grind

theorem stops_isSpace_of_ordinary (h : OrdinaryByte b) (l : Bytes) : Stops isSpace (b :: l) :=
  stops_cons.mpr h.space

/-! ### The parts of a number -/

/-- The parts of a text in which `strtoll` finds a number. -/
structure Scanned (base : Nat) (s ws sign pre digits rest : Bytes) : Prop where
  eq : s = ws ++ (sign ++ (pre ++ (digits ++ rest)))
  space : ∀ b ∈ ws, isSpace b = true
  sign : sign = [] ∨ sign = [43] ∨ sign = [45]
  hexPrefix : (pre = [] ∧ ¬ (base = 16 ∧ hasHexPrefix (digits ++ rest) = true)) ∨
    (base = 16 ∧ (pre = [48, 120] ∨ pre = [48, 88]))
  ne_nil : digits ≠ []
  digits : ∀ b ∈ digits, isDigitOf base b = true
  stops : Stops (isDigitOf base) rest

variable {base : Nat} {s ws sign pre digits rest : Bytes}

section
variable (h : Scanned base s ws sign pre digits rest)
include h

/-- The number starts with an ordinary byte. -/
theorem Scanned.exists_head : ∃ b l, pre ++ (digits ++ rest) = b :: l ∧ OrdinaryByte b := by
  rcases h.hexPrefix with ⟨rfl, -⟩ | ⟨-, rfl | rfl⟩
  · obtain ⟨b, l, rfl⟩ := List.exists_cons_of_ne_nil h.ne_nil
    exact ⟨b, l ++ rest, rfl, ordinaryByte_of_isDigitOf (h.digits b List.mem_cons_self)⟩
  · exact ⟨48, 120 :: (digits ++ rest), rfl, by constructor <;> decide⟩
  · exact ⟨48, 88 :: (digits ++ rest), rfl, by constructor <;> decide⟩

theorem Scanned.dropWhile_isSpace : s.dropWhile isSpace = sign ++ (pre ++ (digits ++ rest)) := by
  have hstops : Stops isSpace (sign ++ (pre ++ (digits ++ rest))) := by
    obtain ⟨b, l, hb, hord⟩ := h.exists_head
    rcases h.sign with rfl | rfl | rfl
    · rw [hb]
      exact stops_isSpace_of_ordinary hord l
    · exact stops_cons.mpr rfl
    · exact stops_cons.mpr rfl
  rw [h.eq]
  exact dropWhile_append_stops h.space hstops

theorem Scanned.takeSign : takeSign (sign ++ (pre ++ (digits ++ rest))) =
      (decide (sign = [45]), pre ++ (digits ++ rest)) := by
  obtain ⟨b, l, hb, hord⟩ := h.exists_head
  rcases h.sign with rfl | rfl | rfl
  · rw [hb]
    simp [Libevent.takeSign, hord.minus, hord.plus]
  · rfl
  · rfl

theorem Scanned.drop_prefix : (if base = 16 ∧ hasHexPrefix (pre ++ (digits ++ rest)) = true then
      (pre ++ (digits ++ rest)).drop 2 else pre ++ (digits ++ rest)) = digits ++ rest := by
  rcases h.hexPrefix with ⟨rfl, hno⟩ | ⟨rfl, hpre⟩
  · rw [List.nil_append, if_neg hno]
  obtain ⟨b, l, rfl⟩ := List.exists_cons_of_ne_nil h.ne_nil
  have hb := h.digits b List.mem_cons_self
  rcases hpre with rfl | rfl <;> simp [hasHexPrefix, hb]

end

/-- The number, within the range of `ev_int64_t`. -/
def clampedValue (negative : Bool) (n : Nat) : Int :=
  if negative then max EV_INT64_MIN (-n) else min EV_INT64_MAX n

/-- `strtoll` on a text with a number. -/
theorem strtoll_scanned (h : Scanned base s ws sign pre digits rest) : evutilStrtoll s base =
      (clampedValue (sign = [45]) (digitsValue base digits), rest) := by
  simp only [evutilStrtoll, h.dropWhile_isSpace, h.takeSign, h.drop_prefix,
    takeWhile_append_stops h.digits h.stops, dropWhile_append_stops h.digits h.stops,
    if_neg h.ne_nil, clampedValue]

/-- The sign in front of a text. -/
theorem exists_sign (t : Bytes) :
    ∃ sign, (sign = [] ∨ sign = [43] ∨ sign = [45]) ∧ t = sign ++ (takeSign t).2 := by
  cases t with
  | nil => exact ⟨[], .inl rfl, rfl⟩
  | cons b l =>
    by_cases hminus : b = 45
    · subst hminus
      exact ⟨[45], .inr (.inr rfl), rfl⟩
    by_cases hplus : b = 43
    · subst hplus
      exact ⟨[43], .inr (.inl rfl), rfl⟩
    · exact ⟨[], .inl rfl, by simp [takeSign, hminus, hplus]⟩

/-- A prefix of base 16 in front of a text. -/
theorem hasHexPrefix_iff {t : Bytes} (h : hasHexPrefix t = true) :
    ∃ pre, (pre = [48, 120] ∨ pre = [48, 88]) ∧ t = pre ++ t.drop 2 := by
  match t, h with
  | z :: x :: d :: l, h =>
    simp only [hasHexPrefix, Bool.and_eq_true, Bool.or_eq_true, decide_eq_true_eq] at h
    obtain ⟨⟨rfl, rfl | rfl⟩, -⟩ := h
    · exact ⟨[48, 120], .inl rfl, rfl⟩
    · exact ⟨[48, 88], .inr rfl, rfl⟩

/-- `strtoll` finds a number, or it returns 0 and the text as it is. -/
theorem strtoll_cases (base : Nat) (s : Bytes) : evutilStrtoll s base = (0, s) ∨
      ∃ ws sign pre digits rest, Scanned base s ws sign pre digits rest := by
  obtain ⟨sign, hsign, ht⟩ := exists_sign (s.dropWhile isSpace)
  have hs := List.takeWhile_append_dropWhile (p := isSpace) (l := s)
  have hspace : ∀ b ∈ s.takeWhile isSpace, isSpace b = true :=
    fun b hb => List.mem_takeWhile_imp hb
  generalize hsigned : takeSign (s.dropWhile isSpace) = signed at ht
  obtain ⟨neg, t⟩ := signed
  -- the digits start behind the prefix
  obtain ⟨pre, hpre, hdrop⟩ : ∃ pre, ((pre = [] ∧ ¬ (base = 16 ∧ hasHexPrefix t = true)) ∨
        (base = 16 ∧ (pre = [48, 120] ∨ pre = [48, 88]))) ∧
      t = pre ++ (if base = 16 ∧ hasHexPrefix t = true then t.drop 2 else t) := by
    by_cases hhex : base = 16 ∧ hasHexPrefix t = true
    · obtain ⟨pre, hpre, heq⟩ := hasHexPrefix_iff hhex.2
      exact ⟨pre, .inr ⟨hhex.1, hpre⟩, by rwa [if_pos hhex]⟩
    · exact ⟨[], .inl ⟨rfl, hhex⟩, by rw [if_neg hhex, List.nil_append]⟩
  generalize hbody : (if base = 16 ∧ hasHexPrefix t = true then t.drop 2 else t) = body at hdrop
  have hcut := List.takeWhile_append_dropWhile (p := isDigitOf base) (l := body)
  by_cases hnil : body.takeWhile (isDigitOf base) = []
  · left
    simp only [evutilStrtoll, hsigned, hbody, hnil, if_true]
  right
  refine ⟨s.takeWhile isSpace, sign, pre, body.takeWhile (isDigitOf base),
    body.dropWhile (isDigitOf base), ?_, hspace, hsign, ?_, hnil,
    fun b hb => List.mem_takeWhile_imp hb, stops_dropWhile _ _⟩
  · rw [hcut, ← hdrop, ← ht, hs]
  rw [hcut]
  rcases hpre with ⟨rfl, hno⟩ | hpre
  · rw [List.nil_append] at hdrop
    exact .inl ⟨rfl, hdrop ▸ hno⟩
  · exact .inr hpre

/-- A text that starts with a byte that cannot be a part of a number. -/
theorem strtoll_bad (hspace : isSpace b = false) (hplus : b ≠ 43) (hminus : b ≠ 45)
    (hdigit : isDigitOf base b = false) (l : Bytes) :
    evutilStrtoll (b :: l) base = (0, b :: l) := by
  rcases strtoll_cases base (b :: l) with hzero | ⟨ws, sign, pre, digits, rest, hscan⟩
  · exact hzero
  exfalso
  have heq := hscan.eq
  cases ws with
  | cons c ws =>
    have hc := hscan.space c List.mem_cons_self
    rw [← (List.cons.inj heq).1, hspace] at hc
    cases hc
  | nil =>
    rcases hscan.sign with rfl | rfl | rfl
    · rcases hscan.hexPrefix with ⟨rfl, -⟩ | ⟨rfl, rfl | rfl⟩
      · obtain ⟨c, digits', rfl⟩ := List.exists_cons_of_ne_nil hscan.ne_nil
        have hc := hscan.digits c List.mem_cons_self
        rw [← (List.cons.inj heq).1, hdigit] at hc
        cases hc
      · rw [(List.cons.inj heq).1] at hdigit
        cases hdigit
      · rw [(List.cons.inj heq).1] at hdigit
        cases hdigit
    · exact hplus (List.cons.inj heq).1
    · exact hminus (List.cons.inj heq).1

/-! ### Plain digits -/

/-- A text of digits, and then something that ends them, is scanned as it is. -/
theorem scanned_digits (hne : digits ≠ []) (hdigits : ∀ b ∈ digits, isDigitOf base b = true)
    (hstops : Stops (isDigitOf base) rest) (hx : ∀ b ∈ rest.head?, b ≠ 120 ∧ b ≠ 88) :
    Scanned base (digits ++ rest) [] [] [] digits rest := by
  refine ⟨rfl, by simp, .inl rfl, .inl ⟨rfl, ?_⟩, hne, hdigits, hstops⟩
  rintro ⟨-, hprefix⟩
  obtain ⟨pre, hpre, heq⟩ := hasHexPrefix_iff hprefix
  -- the second byte would be an `x`, but it is a digit or ends the digits
  match digits, hne with
  | [z], _ =>
    cases rest with
    | nil => rcases hpre with rfl | rfl <;> simp at heq
    | cons x rest =>
      have hxne := hx x rfl
      rcases hpre with rfl | rfl
      · exact hxne.1 (by simpa using (List.cons.inj (List.cons.inj heq).2).1)
      · exact hxne.2 (by simpa using (List.cons.inj (List.cons.inj heq).2).1)
  | z :: x :: l, _ =>
    have hord := ordinaryByte_of_isDigitOf (hdigits x (by simp))
    rcases hpre with rfl | rfl
    · exact hord.x (by simpa using (List.cons.inj (List.cons.inj heq).2).1)
    · exact hord.upperX (by simpa using (List.cons.inj (List.cons.inj heq).2).1)

end Libevent
