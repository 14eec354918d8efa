import Libevent.Proofs.Http.Uri

/-!
# `Libevent.Proofs.Http.UriCodec`: decoding inverts encoding

`decodeText` is what `evhttp_decode_uri_internal` makes of a text. `decodeUriLoop_eq`: the loop
ends, it stays in the memory of both strings, and `decodeText` is what it writes.

`uridecode_uriencode`: what `evhttp_uriencode` makes of any bytes is decoded to these bytes.
-/

namespace Libevent

/-! ### Texts -/

/-- One round, for the text `c :: l`: what is written, `decode_plus`, and the text that is left. -/
def decodeStep (ctl : Int) (plus : Bool) (c : UInt8) (l : Bytes) : UInt8 × Bool × Bytes :=
  if c = QUESTION then (c, plus || decide (ctl < 0), l)
  else if c = PLUS && plus then (SP, plus, l)
  else match l with
    | x :: y :: rest =>
      if c = PERCENT && isXdigit x && isXdigit y then
        (UInt8.ofNat (digitsValue 16 [x, y]), plus, rest)
      else (c, plus, l)
    | _ => (c, plus, l)

theorem decodeStep_length_le (ctl : Int) (plus : Bool) (c : UInt8) (l : Bytes) :
    (decodeStep ctl plus c l).2.2.length ≤ l.length := by
  fun_cases decodeStep ctl plus c l <;> simp only [List.length_cons] <;> omega

/-- What is decoded from a text. -/
def decodeText (ctl : Int) : Bool → Bytes → Bytes
  | _, [] => []
  | plus, c :: l =>
    (decodeStep ctl plus c l).1 ::
      decodeText ctl (decodeStep ctl plus c l).2.1 (decodeStep ctl plus c l).2.2
termination_by _ text => text.length
decreasing_by
  exact Nat.lt_succ_of_le (decodeStep_length_le ctl plus c l)

/-! ### The loop -/

theorem readAt_append (pre l : Bytes) (n : Nat) :
    readAt (pre ++ l) (pre.length + n) = readAt l n := by
  unfold readAt
  rw [List.getElem?_append_right (Nat.le_add_right ..), Nat.add_sub_cancel_left]

theorem writeAt_append (out : Bytes) (t c : UInt8) (tail : Bytes) :
    writeAt (out ++ t :: tail) out.length c = .ok (out ++ c :: tail) := by
  simp [writeAt]

/-- One round reads the bytes `used`, which are in front of what is left. -/
theorem decodeUriByte_eq (ctl : Int) (plus : Bool) (pre : Bytes) (c : UInt8) (l : Bytes)
    (hsmall : (pre ++ c :: l).length < 2 ^ 31) :
    ∃ used, c :: l = used ++ (decodeStep ctl plus c l).2.2 ∧ used ≠ [] ∧
      decodeUriByte (pre ++ c :: l ++ [NUL]) (pre ++ c :: l).length ctl pre.length plus =
        .ok ((decodeStep ctl plus c l).1, pre.length + used.length - 1,
          (decodeStep ctl plus c l).2.1) := by
  simp only [List.length_append] at hsmall
  have hread := readAt_append pre (c :: l ++ [NUL])
  have hone : (pre.length + 1) % 2 ^ 32 = pre.length + 1 := by omega
  have htwo : (pre.length + 2) % 2 ^ 32 = pre.length + 2 := by omega
  have hzero : readAt (pre ++ (c :: l ++ [NUL])) pre.length = .ok c := hread 0
  unfold decodeUriByte
  rw [List.append_assoc, hzero, hone, htwo]
  fun_cases decodeStep ctl plus c l with
  | case1 => exact ⟨[c], rfl, by simp, by simp_all [bind, Except.bind, pure, Except.pure]⟩
  | case2 => exact ⟨[c], rfl, by simp, by simp_all [bind, Except.bind, pure, Except.pure]⟩
  | case3 =>
    exact ⟨[c, _, _], rfl, by simp, by simp_all [bind, Except.bind, pure, Except.pure, readAt]⟩
  | case4 hquestion hplus x y rest hescape =>
    refine ⟨[c], rfl, by simp, ?_⟩
    cases hx : isXdigit x <;> cases hy : isXdigit y <;>
      simp_all [bind, Except.bind, pure, Except.pure, readAt]
  | case5 _ hquestion hplus =>
    -- behind the last two bytes there is no escape
    have hshort : l.length < 2 := by rcases l with _ | ⟨x, _ | ⟨y, rest⟩⟩ <;> simp_all
    refine ⟨[c], rfl, by simp, ?_⟩
    show (if c = QUESTION then _ else _) = _
    rw [if_neg hquestion, if_neg hplus, if_neg (by simp; exact fun h => by omega)]
    rfl

/-- The loop, when the text `text` is left and `out` is written. -/
theorem decodeUriLoop_eq (ctl : Int) : ∀ (fuel : Nat) (plus : Bool) (text pre out tail : Bytes),
    text.length < fuel → (pre ++ text).length < 2 ^ 31 → text.length < tail.length →
    ∃ tail', tail'.length + (decodeText ctl plus text).length + 1 = tail.length ∧
      decodeUriLoop (pre ++ text ++ [NUL]) (pre ++ text).length ctl fuel pre.length out.length plus
        (out ++ tail) = .ok (out.length + (decodeText ctl plus text).length,
          out ++ decodeText ctl plus text ++ NUL :: tail') := by
  intro fuel
  induction fuel with
  | zero => exact fun _ _ _ _ _ hfuel => absurd hfuel (Nat.not_lt_zero _)
  | succ fuel ih =>
    intro plus text pre out tail hfuel hsmall htail
    obtain ⟨t, tail, rfl⟩ := List.exists_cons_of_length_pos (Nat.zero_lt_of_lt htail)
    rw [decodeUriLoop]
    cases text with
    | nil =>
      refine ⟨tail, by simp [decodeText], ?_⟩
      rw [writeAt_append]
      simp [decodeText, bind, Except.bind, pure, Except.pure]
    | cons c l =>
      obtain ⟨used, hused, hne, hbyte⟩ := decodeUriByte_eq ctl plus pre c l hsmall
      have hpos := List.length_pos_iff.mpr hne
      rw [if_pos (by simp), hbyte, decodeText]
      generalize decodeStep ctl plus c l = r at *
      obtain ⟨b, plus', l'⟩ := r
      rw [hused] at hsmall ⊢
      have hlen := congrArg List.length hused
      simp only [List.length_cons, List.length_append] at hlen hfuel hsmall htail
      obtain ⟨tail', htail', hrun⟩ := ih plus' l' (pre ++ used) (out ++ [b]) tail (by omega)
        (by simp only [List.length_append]; omega) (by omega)
      refine ⟨tail', by simp only [List.length_cons]; omega, ?_⟩
      have hi : (pre.length + used.length - 1 + 1) % 2 ^ 32 = (pre ++ used).length := by
        rw [List.length_append]
        omega
      have hj : out.length + 1 = (out ++ [b]).length := by simp
      show (writeAt (out ++ t :: tail) out.length b >>=
          fun ret => decodeUriLoop _ _ _ _ _ _ _ ret) =
        _
      rw [writeAt_append, hi, hj, ← List.append_assoc pre, ← List.singleton_append (x := b),
        ← List.append_assoc out]
      refine hrun.trans ?_
      simp [Nat.add_assoc, Nat.add_comm 1]

/-! ### The round trip -/

/-- Escapes are read back. -/
theorem hexDigitUpper_escape (b : UInt8) : isXdigit (hexDigitUpper (b.toNat / 16)) = true ∧
    isXdigit (hexDigitUpper (b.toNat % 16)) = true ∧
    UInt8.ofNat (digitsValue 16 [hexDigitUpper (b.toNat / 16), hexDigitUpper (b.toNat % 16)]) =
      b := by
  have hall : ∀ n : Fin 256, isXdigit (hexDigitUpper (n / 16)) = true ∧
      isXdigit (hexDigitUpper (n % 16)) = true ∧
      digitsValue 16 [hexDigitUpper (n / 16), hexDigitUpper (n % 16)] = n := by decide +kernel
  obtain ⟨hx, hy, hvalue⟩ := hall ⟨b.toNat, b.toNat_lt⟩
  exact ⟨hx, hy, by rw [hvalue]; simp⟩

theorem decodeText_encodeByte (ctl : Int) (plus : Bool) (b : UInt8) (l : Bytes) :
    decodeText ctl plus (uriencodeByte plus b ++ l) = b :: decodeText ctl plus l := by
  obtain ⟨hx, hy, hvalue⟩ := hexDigitUpper_escape b
  unfold uriencodeByte
  split
  · next hb =>
    have hne : b ≠ QUESTION ∧ b ≠ PLUS ∧ b ≠ PERCENT := by
      refine ⟨?_, ?_, ?_⟩ <;> rintro rfl <;> exact absurd hb (by decide)
    have hstep : decodeStep ctl plus b l = (b, plus, l) := by
      fun_cases decodeStep ctl plus b l <;> simp_all
    show decodeText ctl plus (b :: l) = _
    rw [decodeText, hstep]
  split
  · next hb =>
    obtain ⟨rfl, rfl⟩ : b = SP ∧ plus = true := by simpa using hb
    show decodeText ctl true (PLUS :: l) = _
    rw [decodeText, show decodeStep ctl true PLUS l = (SP, true, l) from rfl]
  show decodeText ctl plus (PERCENT :: _ :: _ :: l) = _
  have hstep : decodeStep ctl plus PERCENT (hexDigitUpper (b.toNat / 16) ::
      hexDigitUpper (b.toNat % 16) :: l) = (b, plus, l) := by
    have hquestion : PERCENT ≠ QUESTION := by decide
    have hplus : PERCENT ≠ PLUS := by decide
    simp [decodeStep, hx, hy, hvalue, hquestion, hplus]
  rw [decodeText, hstep]

theorem decodeText_encode (ctl : Int) (plus : Bool) (s : Bytes) :
    decodeText ctl plus (s.flatMap (uriencodeByte plus)) = s := by
  induction s with
  | nil => rw [List.flatMap_nil, decodeText]
  | cons b s ih => rw [List.flatMap_cons, decodeText_encodeByte, ih]

/-- Encoded text has no byte that ends it, and nothing but unreserved bytes, `+` and escapes. -/
theorem encoded_plain (plus : Bool) (s : Bytes) : NUL ∉ s.flatMap (uriencodeByte plus) ∧
    endOfRun (fun b => charIsUnreserved b || b = PLUS) (s.flatMap (uriencodeByte plus)) = [] := by
  have hnul : ¬ isXdigit NUL = true := by decide
  induction s with
  | nil => exact ⟨List.not_mem_nil, rfl⟩
  | cons b s ih =>
    obtain ⟨hx, hy, -⟩ := hexDigitUpper_escape b
    rw [List.flatMap_cons]
    refine ⟨fun hmem => (List.mem_append.mp hmem).elim ?_ ih.1, ?_⟩
    · unfold uriencodeByte
      split
      · next hb => exact fun h => absurd hb (List.mem_singleton.mp h ▸ by decide)
      split
      · decide
      simp only [List.mem_cons, List.not_mem_nil, or_false]
      rintro (h | h | h)
      · exact absurd h (by decide)
      · exact hnul (h ▸ hx)
      · exact hnul (h ▸ hy)
    · rw [endOfRun_append]
      · exact ih.2
      unfold uriencodeByte
      split
      · next hb => simp [endOfRun, hb]
      split
      · rfl
      · exact endOfRun_percent (by decide) (by simp [hx, hy]) []

/-- `evhttp_uridecode` of a text ends and keeps to the two strings. -/
theorem evhttpUridecode_eq {text : Bytes} (plus : Bool) (htext : NUL ∉ text)
    (hsmall : text.length < 2 ^ 31) :
    ∃ rest out, out = decodeText (if plus then 1 else 0) plus text ∧
      rest.length + out.length = text.length ∧
      evhttpUridecode (text ++ [NUL]) plus = .ok (out.length, out ++ NUL :: rest) := by
  have hcstr : cstr (text ++ [NUL]) = text :=
    Lib.takeWhile_append_stops
      (fun b hb => by simpa using fun h : b = NUL => htext (h ▸ hb)) (by simp)
  obtain ⟨rest, hrest, hrun⟩ := decodeUriLoop_eq (if plus then 1 else 0) (text.length + 1) plus text
    [] [] (List.replicate (text.length + 1) NUL) (Nat.lt_succ_self _) hsmall (by simp)
  refine ⟨rest, _, rfl, by simpa using hrest, ?_⟩
  unfold evhttpUridecode
  rw [hcstr]
  cases plus <;> simpa using hrun

/-- Decoding inverts encoding, for all bytes and both meanings of `+`. Encoded text has only
unreserved bytes, `+` and escapes. Decoding any text ends, without a read or a write outside of the
memory of the two strings, and gives at most as many bytes. -/
theorem uridecode_uriencode :
    (∀ (s : Bytes) (plus : Bool), ∃ text, evhttpUriencode s plus = text ++ [NUL] ∧
      endOfRun (fun b => charIsUnreserved b || b = PLUS) text = [] ∧
      (text.length < 2 ^ 31 → ∃ rest,
        evhttpUridecode (evhttpUriencode s plus) plus = .ok (s.length, s ++ NUL :: rest))) ∧
    ∀ (text : Bytes) (plus : Bool), NUL ∉ text → text.length < 2 ^ 31 → ∃ out rest,
      evhttpUridecode (text ++ [NUL]) plus = .ok (out.length, out ++ NUL :: rest) ∧
      out.length ≤ text.length ∧ (out ++ NUL :: rest).length = text.length + 1 := by
  refine ⟨fun s plus => ?_, fun text plus htext hsmall => ?_⟩
  · obtain ⟨hnul, hplain⟩ := encoded_plain plus s
    refine ⟨_, rfl, hplain, fun hsmall => ?_⟩
    obtain ⟨rest, out, hout, -, hrun⟩ := evhttpUridecode_eq plus hnul hsmall
    rw [decodeText_encode] at hout
    subst hout
    exact ⟨rest, hrun⟩
  · obtain ⟨rest, out, -, hlen, hrun⟩ := evhttpUridecode_eq plus htext hsmall
    refine ⟨out, rest, hrun, by omega, ?_⟩
    rw [List.length_append, List.length_cons]
    omega

/-- The bytes `a`, space, `%` and `NUL`. -/
theorem uridecode_uriencode_four :
    ∃ rest, evhttpUridecode (evhttpUriencode [97, 32, 37, 0] true) true =
    .ok (4, [97, 32, 37, 0] ++ NUL :: rest) := by
  obtain ⟨text, htext, -, hround⟩ := uridecode_uriencode.1 [97, 32, 37, 0] true
  refine hround ?_
  have hlen := congrArg List.length htext
  rw [List.length_append, show (evhttpUriencode [97, 32, 37, 0] true).length = 9 from rfl] at hlen
  omega

end Libevent
