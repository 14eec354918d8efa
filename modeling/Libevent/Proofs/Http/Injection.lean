import Libevent.Proofs.Http.RoundTrip

/-!
# `Libevent.Proofs.Http.Injection`: which accepted headers are read back as one header each

`evhttp_add_header` accepts a value with line ends when each run of them is followed by white space.
The parser splits at every `LF`. `makeHeader_reads_iff` gives the exact condition on the accepted
pairs under which the text of the list is read back as one header for each pair, up to the blank
line that `evhttp_make_header` wrote.
-/

namespace Libevent

open Lib

variable {evcon : Option EvhttpConnection} {a l value : Bytes} {b : UInt8} {key : Bytes}
  {header : Evkeyval} {headers : List Evkeyval}

/-! ### The condition -/

/-- Every `LF` is followed by white space. -/
def lfFolded : Bytes → Bool
  | [] => true
  | b :: l => (b ≠ LF || l.head?.any isLws) && lfFolded l

/-- The text ends in a `CR`, apart from white space. -/
def endsInCr (text : Bytes) : Bool := (evutilRtrimLws text).getLast? = some CR

/-- The first line of a value, as the parser reads it. -/
def firstLine (value : Bytes) : Bytes := stripCr (value.takeWhile (· ≠ LF))

/-- A header that is read back as one header. -/
def Evkeyval.clean (header : Evkeyval) : Bool :=
  !header.key.head?.any isLws && lfFolded header.value && !endsInCr (firstLine header.value)

/-! ### Line ends inside a text -/

/-- Inside the text, a byte of a line end is followed by another one or by white space. -/
def EolChain (l : Bytes) : Prop :=
  l.IsChain fun b c => isEol b = true → (isEol c || isLws c) = true

theorem eolFollowed_iff (l : Bytes) :
    EolFollowed l ↔ EolChain l ∧ ∀ b ∈ l.getLast?, isEol b = false := by
  induction l with
  | nil => simp [EolFollowed, EolChain]
  | cons b l ih =>
    rw [EolFollowed, ih]
    cases l with
    | nil => simp [EolChain]
    | cons c l => simp [EolChain, and_assoc]

/-- White space at the end is trimmed. -/
theorem rtrim_append_lws (text : Bytes) {ws : Bytes} (hws : ∀ b ∈ ws, isLws b = true) :
    evutilRtrimLws (text ++ ws) = evutilRtrimLws text := by
  simp only [evutilRtrimLws, List.rdropWhile, List.reverse_append]
  rw [List.dropWhile_append_of_pos fun b hb => hws b (List.mem_reverse.mp hb)]

theorem endsInCr_iff (text : Bytes) :
    endsInCr text = true ↔ ∃ pre ws, text = pre ++ CR :: ws ∧ ∀ b ∈ ws, isLws b = true := by
  constructor
  · intro h
    have hlast : (evutilRtrimLws text).getLast? = some CR := by simpa [endsInCr] using h
    obtain ⟨pre, hpre⟩ := List.getLast?_eq_some_iff.mp hlast
    have hcut : evutilRtrimLws text ++ text.rtakeWhile isLws = text :=
      List.rdropWhile_append_rtakeWhile
    refine ⟨pre, text.rtakeWhile isLws, ?_, fun b hb => List.mem_rtakeWhile_imp hb⟩
    rw [hpre, List.append_assoc] at hcut
    exact hcut.symm
  rintro ⟨pre, ws, rfl, hws⟩
  have hcr : evutilRtrimLws (pre ++ [CR]) = pre ++ [CR] :=
    List.rdropWhile_concat_neg isLws pre CR (by decide)
  have hsplit : pre ++ CR :: ws = (pre ++ [CR]) ++ ws := by simp
  rw [hsplit, endsInCr, rtrim_append_lws _ hws, hcr]
  simp

/-- The parts of a text without a `CR` in front do not matter. -/
theorem endsInCr_append (ha : CR ∉ a) (text : Bytes) :
    endsInCr (a ++ text) = endsInCr text := by
  rw [Bool.eq_iff_iff, endsInCr_iff, endsInCr_iff]
  constructor
  · rintro ⟨pre, ws, heq, hws⟩
    rcases List.append_eq_append_iff.mp heq with ⟨a', rfl, rfl⟩ | ⟨c, rfl, hc⟩
    · exact ⟨a', ws, rfl, hws⟩
    cases c with
    | nil => exact ⟨[], ws, hc.symm, hws⟩
    | cons x c =>
      obtain ⟨rfl, -⟩ := List.cons.inj hc
      exact absurd (by simp) ha
  · rintro ⟨pre, ws, rfl, hws⟩
    exact ⟨a ++ pre, ws, by simp, hws⟩

theorem EolChain.part {l' : Bytes} (h : EolChain l) (hl : l' <:+: l) : EolChain l' :=
  List.IsChain.infix h hl

/-- Inside a line, a value is accepted unless it ends in a `CR`. -/
theorem isValidValue_rtrim {text : Bytes} (hchain : EolChain text) (hlf : LF ∉ text) :
    evhttpHeaderIsValidValue (evutilRtrimLws text) = !endsInCr text := by
  have hpre : evutilRtrimLws text <+: text := List.rdropWhile_prefix isLws text
  rw [Bool.eq_iff_iff, evhttpHeaderIsValidValue_iff, eolFollowed_iff]
  have hchain' := hchain.part hpre.isInfix
  simp only [hchain', true_and, endsInCr, Bool.not_eq_true', decide_eq_false_iff_not]
  constructor
  · intro h hlast
    have := h CR hlast
    cases this
  intro h b hb
  have hne : b ≠ CR := by
    rintro rfl
    exact h hb
  have hne' : b ≠ LF := by
    rintro rfl
    exact hlf (hpre.subset (List.mem_of_getLast? hb))
  simp [isEol, hne, hne']

theorem isEol_eq_false (hcr : b ≠ CR) (hlf : b ≠ LF) : isEol b = false := by
  simp [isEol, hcr, hlf]

/-- Text without a line end may stand in front. -/
theorem EolChain.append (ha : ∀ b ∈ a, isEol b = false) (hl : EolChain l) : EolChain (a ++ l) := by
  refine List.isChain_append.mpr ⟨?_, hl, ?_⟩
  · exact ((eolFollowed_iff a).mp (EolFollowed.of_not_isEol ha)).1
  intro x hx y _ heol
  rw [ha x (List.mem_of_getLast? hx)] at heol
  cases heol

/-! ### One line of a value -/

/-- Where the parser splits the first line of a header. The key may itself hold a colon. -/
theorem exists_split_colon (hcr : CR ∉ key) (hlf : LF ∉ key) (hlws : Stops isLws key) :
    ∃ skey between, key ++ [COLON, SP] = skey ++ COLON :: between ∧ COLON ∉ skey ∧
      Stops isLws skey ∧ (CR ∉ skey ∧ LF ∉ skey) ∧ CR ∉ between ∧ LF ∉ between := by
  by_cases hcolon : COLON ∈ key
  · obtain ⟨skey, between, rfl, hskey⟩ := List.eq_append_cons_of_mem hcolon
    simp only [List.mem_append, List.mem_cons, not_or] at hcr hlf
    refine ⟨skey, between ++ [COLON, SP], by simp, hskey, ?_, ⟨hcr.1, hlf.1⟩, ?_, ?_⟩
    · cases skey with
      | nil => exact stops_nil
      | cons b skey => exact hlws
    · simpa [hcr.2.2] using (by decide : CR ≠ COLON ∧ CR ≠ SP)
    · simpa [hlf.2.2] using (by decide : LF ≠ COLON ∧ LF ≠ SP)
  · exact ⟨key, [SP], by simp, hcolon, hlws, ⟨hcr, hlf⟩, by decide, by decide⟩

/-- The line behind a key and a colon is accepted unless it ends in a `CR`. -/
theorem evhttpParseHeaderLine_value {first : Bytes} (hkey : Stops isLws key) (hcr : CR ∉ key)
    (hlf : LF ∉ key) (hfirst : LF ∉ first) (hchain : EolChain first) (headers : List Evkeyval) :
    if endsInCr first then
      evhttpParseHeaderLine headers (key ++ [COLON, SP] ++ first) = none
    else
      ∃ header, evhttpParseHeaderLine headers (key ++ [COLON, SP] ++ first) =
        some (headers ++ [header]) := by
  obtain ⟨skey, between, heq, hcolon, hlws, ⟨hskcr, hsklf⟩, hbcr, hblf⟩ :=
    exists_split_colon hcr hlf hkey
  -- the value starts behind the spaces that follow the colon
  have hcut := List.takeWhile_append_dropWhile (p := (· = SP)) (l := between ++ first)
  have hsp : CR ∉ (between ++ first).takeWhile (· = SP) := by
    intro hmem
    have := List.mem_takeWhile_imp hmem
    simp [CR, SP] at this
  have hline : EolChain (between ++ first) := hchain.append fun b hb =>
    isEol_eq_false (ne_of_mem_of_not_mem hb hbcr) (ne_of_mem_of_not_mem hb hblf)
  have hvalue := hline.part (List.dropWhile_suffix (· = SP)).isInfix
  have hvlf : LF ∉ (between ++ first).dropWhile (· = SP) := by
    intro hmem
    have hmem' := (List.dropWhile_suffix (· = SP)).subset hmem
    rcases List.mem_append.mp hmem' with h | h
    · exact hblf h
    · exact hfirst h
  have hends : endsInCr ((between ++ first).dropWhile (· = SP)) = endsInCr first := by
    rw [← endsInCr_append hsp, hcut, endsInCr_append hbcr]
  rw [heq, List.append_assoc, List.cons_append, evhttpParseHeaderLine_field hcolon hlws,
    evhttpAddHeader, isValidValue_rtrim hvalue hvlf, hends]
  cases endsInCr first <;> simp [hskcr, hsklf]

theorem evhttpParseHeaderLine_fold_nil (hb : isLws b = true) (line : Bytes) :
    evhttpParseHeaderLine [] (b :: line) = none := by
  simp [evhttpParseHeaderLine, hb, evhttpAppendToLastHeader]

/-- A line that starts with a `CR` has no key that could be added. -/
theorem evhttpParseHeaderLine_cr (headers : List Evkeyval) (line : Bytes) :
    evhttpParseHeaderLine headers (CR :: line) = none := by
  have hhead : ((CR :: line).head?.any isLws) = false := rfl
  have hkey : (CR :: line).takeWhile (· ≠ COLON) = CR :: line.takeWhile (· ≠ COLON) := rfl
  simp only [evhttpParseHeaderLine, hhead, strsepColon, hkey]
  cases (CR :: line).dropWhile (· ≠ COLON) with
  | nil => rfl
  | cons c rest => simp [evhttpAddHeader]

/-! ### What a text does to the parser -/

/-- The parser reads the text, whatever follows it, and then has `n` headers. -/
def Passes (evcon : Option EvhttpConnection) (req : HeaderState) (text : Bytes) (n : Nat) :
    Prop :=
  ∃ req' : HeaderState, req'.inputHeaders.length = n ∧
    req'.headersSize ≤ req.headersSize + text.length ∧
    ∀ x, (headerMachine evcon).settle (req, none) (text ++ x) =
      (headerMachine evcon).settle (req', none) x

/-- The parser ends inside the text: with an error, or at a line that it takes for the blank line.
-/
def Breaks (evcon : Option EvhttpConnection) (req : HeaderState) (text : Bytes) : Prop :=
  ∃ (req' : HeaderState) (status : MessageReadStatus) (left : Bytes),
    (status = .allDataRead → left ≠ []) ∧
    ∀ x, (headerMachine evcon).settle (req, none) (text ++ x) = ((req', some status), left ++ x)

/-- The parser passes the text, or it breaks there. -/
def Goes (evcon : Option EvhttpConnection) (req : HeaderState) (text : Bytes) (passes : Bool)
    (n : Nat) : Prop :=
  if passes then Passes evcon req text n else Breaks evcon req text

variable {req req' : HeaderState} {text line : Bytes} {n : Nat}

@[simp] theorem goes_true : Goes evcon req text true n ↔ Passes evcon req text n := by
  simp [Goes]

@[simp] theorem goes_false : Goes evcon req text false n ↔ Breaks evcon req text := by
  simp [Goes]

/-- The first line of the text. -/
theorem settle_line (hpre : LF ∉ line) (req : HeaderState) (x : Bytes) :
    (headerMachine evcon).settle (req, none) (line ++ LF :: x) =
      (headerMachine evcon).settle ((evhttpParseHeadersTurn evcon req (stripCr line)).2,
        (evhttpParseHeadersTurn evcon req (stripCr line)).1) x :=
  Consumer.settle_of_some (headerMachine_move req (evbufferReadln_line hpre x))

/-- A line that is read, with a text behind it. -/
theorem line_cases (hpre : LF ∉ line) (hnul : NUL ∉ line) (hne : stripCr line ≠ [])
    (hlimit : Within evcon (req.headersSize + line.length)) (text : Bytes) :
    match evhttpParseHeaderLine req.inputHeaders (stripCr line) with
    | none => Breaks evcon req (line ++ LF :: text)
    | some headers => ∃ req' : HeaderState, req'.inputHeaders = headers ∧
        req'.headersSize ≤ req.headersSize + line.length ∧
        ∀ passes n, Goes evcon req' text passes n →
          Goes evcon req (line ++ LF :: text) passes n := by
  have hlen := length_stripCr_le line
  have hnul' : NUL ∉ stripCr line := by
    intro hmem
    unfold stripCr at hmem
    split at hmem
    · exact hnul (List.mem_of_mem_dropLast hmem)
    · exact hnul hmem
  have hwithin : Within evcon (req.headersSize + (stripCr line).length) := hlimit.mono (by omega)
  have hturn := evhttpParseHeadersTurn_line hne hnul' hwithin
  have hsettle : ∀ x, (headerMachine evcon).settle (req, none) (line ++ LF :: text ++ x) =
      (headerMachine evcon).settle ((evhttpParseHeadersTurn evcon req (stripCr line)).2,
        (evhttpParseHeadersTurn evcon req (stripCr line)).1) (text ++ x) := by
    intro x
    rw [List.append_assoc]
    exact settle_line hpre req (text ++ x)
  rw [hturn] at hsettle
  cases hparse : evhttpParseHeaderLine req.inputHeaders (stripCr line) with
  | none =>
    simp only [hparse] at hsettle
    refine ⟨⟨req.inputHeaders, req.headersSize + (stripCr line).length⟩, .dataCorrupted, text,
      nofun, fun x => ?_⟩
    rw [hsettle x, Consumer.settle_of_none (headerMachine_ended _ _ _)]
  | some headers =>
    simp only [hparse] at hsettle
    refine ⟨⟨headers, req.headersSize + (stripCr line).length⟩, rfl, by simp only; omega, ?_⟩
    intro passes n hgoes
    cases passes with
    | true =>
      obtain ⟨req'', hn, hsize, hx⟩ := goes_true.mp hgoes
      refine goes_true.mpr ⟨req'', hn, ?_, fun x => (hsettle x).trans (hx x)⟩
      simp only [List.length_append, List.length_cons] at hsize ⊢
      omega
    | false =>
      obtain ⟨req'', status, left, hstatus, hx⟩ := goes_false.mp hgoes
      exact goes_false.mpr ⟨req'', status, left, hstatus, fun x => (hsettle x).trans (hx x)⟩

theorem passes_nil (req : HeaderState) : Passes evcon req [] req.inputHeaders.length :=
  ⟨req, rfl, by simp, fun _ => rfl⟩

/-- A blank line with some text behind it. -/
theorem breaks_blank (hpre : LF ∉ line) (hblank : stripCr line = [])
    (hlimit : Within evcon req.headersSize) (hne : text ≠ []) :
    Breaks evcon req (line ++ LF :: text) := by
  refine ⟨req, .allDataRead, text, fun _ => hne, fun x => ?_⟩
  rw [List.append_assoc, List.cons_append, settle_line hpre, hblank,
    evhttpParseHeadersTurn_blank hlimit, Consumer.settle_of_none (headerMachine_ended _ _ _)]

/-! ### The lines of a value -/

theorem stripCr_cons (h : b ≠ CR ∨ l ≠ []) : stripCr (b :: l) = b :: stripCr l := by
  cases l with
  | nil =>
    have hb : b ≠ CR := by simpa using h
    simp [stripCr, hb]
  | cons c l =>
    simp only [stripCr, List.getLast?_cons_cons]
    split <;> rfl

theorem stripCr_append (ha : CR ∉ a) (l : Bytes) : stripCr (a ++ l) = a ++ stripCr l := by
  induction a with
  | nil => rfl
  | cons b a ih =>
    rw [List.mem_cons, not_or] at ha
    rw [List.cons_append, stripCr_cons (.inl fun h => ha.1 h.symm), ih ha.2, List.cons_append]

theorem EolFollowed.suffix (h : EolFollowed (a ++ l)) : EolFollowed l := by
  induction a with
  | nil => exact h
  | cons b a ih => exact ih h.2

theorem lfFolded_append {line : Bytes} (hline : LF ∉ line) (l : Bytes) :
    lfFolded (line ++ l) = lfFolded l := by
  induction line with
  | nil => rfl
  | cons b line ih =>
    rw [List.mem_cons, not_or] at hline
    have hb : b ≠ LF := fun h => hline.1 h.symm
    simp [lfFolded, hb, ih hline.2]

/-- The lines that follow an `LF` of an accepted value. -/
structure Continues (value : Bytes) : Prop where
  nul : NUL ∉ value
  followed : EolFollowed value
  head : ∃ c ∈ value.head?, (isEol c || isLws c) = true

/-- What is behind the first line `raw` of a value: nothing, or lines that should start with white
space. -/
inductive Trails (value raw : Bytes) : (text : Bytes) → Prop where
  | last (hraw : raw = value ++ [CR]) (hfold : lfFolded value = true) : Trails value raw []
  | more {value' : Bytes} (hvalue : value = raw ++ LF :: value') (hcont : Continues value')
      (hfold : lfFolded value = (value'.head?.any isLws && lfFolded value')) :
      Trails value raw (value' ++ CRLF)

/-- The first line of a value, and what is behind it. -/
theorem exists_first_line (hnul : NUL ∉ value) (hfol : EolFollowed value) :
    ∃ raw text, value ++ CRLF = raw ++ LF :: text ∧ LF ∉ raw ∧ NUL ∉ raw ∧
      stripCr raw = firstLine value ∧ Trails value raw text := by
  by_cases hlf : LF ∈ value
  · obtain ⟨raw, value', rfl, hraw⟩ := List.eq_append_cons_of_mem hlf
    rw [List.mem_append, List.mem_cons, not_or, not_or] at hnul
    have hrest := hfol.suffix
    refine ⟨raw, value' ++ CRLF, by simp, hraw, hnul.1, ?_, .more rfl ?_ ?_⟩
    · rw [firstLine, takeWhile_append_stops (forall_ne_of_not_mem hraw) stops_ne_lf]
    · exact ⟨hnul.2.2, hrest.2, hrest.1 rfl⟩
    · rw [lfFolded_append hraw]
      simp [lfFolded]
  have hfirst : firstLine value = value := by
    have hlast := ((eolFollowed_iff value).mp hfol).2
    have hcr : value.getLast? ≠ some CR := by
      intro h
      cases hlast CR h
    rw [firstLine, takeWhile_of_forall (forall_ne_of_not_mem hlf), stripCr, if_neg hcr]
  refine ⟨value ++ [CR], [], by simp [CRLF], ?_, ?_, ?_, .last rfl ?_⟩
  · rw [List.mem_append, not_or]
    exact ⟨hlf, by decide⟩
  · rw [List.mem_append, not_or]
    exact ⟨hnul, by decide⟩
  · rw [stripCr_append_cr, hfirst]
  · have := lfFolded_append hlf []
    rwa [List.append_nil] at this

/-- The lines behind the first one go to the header before them when each of them starts with white
space. If one does not, the parser ends there. -/
theorem continues_goes (hvalue : Continues value) (hne : req.inputHeaders ≠ [])
    (hlimit : Within evcon (req.headersSize + (value ++ CRLF).length)) :
    Goes evcon req (value ++ CRLF) (value.head?.any isLws && lfFolded value)
      req.inputHeaders.length := by
  induction hn : value.length using Nat.strong_induction_on generalizing value req with
  | _ n ih =>
    obtain ⟨raw, text, heq, hraw, hnul, -, htrails⟩ :=
      exists_first_line hvalue.nul hvalue.followed
    obtain ⟨c, hc, hkind⟩ := hvalue.head
    obtain ⟨l, rfl⟩ : ∃ l, value = c :: l := List.head?_eq_some_iff.mp hc
    rw [heq] at hlimit ⊢
    simp only [List.length_append, List.length_cons] at hlimit
    have hwithin : Within evcon (req.headersSize + raw.length) := hlimit.mono (by omega)
    by_cases hlws : isLws c = true
    · -- a continuation line
      simp only [List.head?_cons, Option.any_some, hlws]
      have hcr : c ≠ CR := by
        rintro rfl
        cases hlws
      obtain ⟨raw', rfl⟩ : ∃ raw', raw = c :: raw' := by
        cases raw with
        | nil =>
          obtain rfl := (List.cons.inj heq).1
          cases hlws
        | cons b raw' => exact ⟨raw', by rw [(List.cons.inj heq).1]⟩
      obtain ⟨headers, hparse, hlen⟩ := evhttpParseHeaderLine_fold hne hlws (stripCr raw')
      have hstep := line_cases hraw hnul (by simp [stripCr_cons (.inl hcr)]) hwithin text
      rw [stripCr_cons (.inl hcr), hparse] at hstep
      obtain ⟨req', rfl, hsize, hgoes⟩ := hstep
      have hne' : req'.inputHeaders ≠ [] := by
        rw [← List.length_pos_iff, hlen]
        exact List.length_pos_iff.mpr hne
      rw [← hlen]
      cases htrails with
      | last _ hfold =>
        rw [hfold]
        exact hgoes _ _ (goes_true.mpr (passes_nil req'))
      | @more value' hvalue' hcont hfold =>
        have hlt : value'.length < n := by
          rw [← hn, hvalue']
          simp only [List.length_append, List.length_cons]
          omega
        rw [hfold]
        exact hgoes _ _ (ih value'.length hlt hcont hne' (hlimit.mono (by omega)) rfl)
    · have hlws' : isLws c = false := by simpa using hlws
      simp only [List.head?_cons, Option.any_some, hlws']
      by_cases hblank : stripCr raw = []
      · refine breaks_blank hraw hblank (hlimit.mono (by omega)) ?_
        cases htrails with
        | last hraw' =>
          rw [hraw', stripCr_append_cr] at hblank
          cases hblank
        | more => simp [CRLF]
      -- the line starts with a carriage return
      obtain ⟨raw', rfl⟩ : ∃ raw', raw = CR :: raw' := by
        cases raw with
        | nil => exact absurd rfl hblank
        | cons b raw' =>
          obtain ⟨rfl, -⟩ := List.cons.inj heq
          have hlf : c ≠ LF := fun h => hraw (by simp [h])
          have hcr : c = CR := by simpa [hlws', isEol, hlf] using hkind
          exact ⟨raw', by rw [hcr]⟩
      have hne : raw' ≠ [] := by
        rintro rfl
        exact hblank rfl
      have hstep := line_cases hraw hnul hblank hwithin text
      rwa [stripCr_cons (.inr hne), evhttpParseHeaderLine_cr] at hstep

theorem Trails.goes {raw : Bytes} (h : Trails value raw text) (hne : req.inputHeaders ≠ [])
    (hlimit : Within evcon (req.headersSize + text.length)) :
    Goes evcon req text (lfFolded value) req.inputHeaders.length := by
  cases h with
  | last _ hfold =>
    rw [hfold]
    exact goes_true.mpr (passes_nil req)
  | more _ hcont hfold =>
    rw [hfold]
    exact continues_goes hcont hne hlimit

/-! ### One header -/

/-- What `evhttp_add_header` accepts, as C strings. -/
structure Evkeyval.Accepted (header : Evkeyval) : Prop where
  key_nul : NUL ∉ header.key
  key_cr : CR ∉ header.key
  key_lf : LF ∉ header.key
  value_nul : NUL ∉ header.value
  value_followed : EolFollowed header.value

/-- The first line of an accepted header. -/
theorem exists_header_line (hacc : header.Accepted) :
    ∃ line raw text, header.line = line ++ LF :: text ∧ LF ∉ line ∧ NUL ∉ line ∧
      stripCr line = header.key ++ [COLON, SP] ++ firstLine header.value ∧
      Trails header.value raw text := by
  obtain ⟨raw, text, heq, hraw, hnul, hfirst, htrails⟩ :=
    exists_first_line hacc.value_nul hacc.value_followed
  have hkeycr : CR ∉ header.key ++ [COLON, SP] := by
    rw [List.mem_append, not_or]
    exact ⟨hacc.key_cr, by decide⟩
  refine ⟨header.key ++ [COLON, SP] ++ raw, raw, text, ?_, ?_, ?_, ?_, htrails⟩
  · rw [Evkeyval.line, List.append_assoc _ header.value, heq, List.append_assoc _ raw]
  · simp only [List.mem_append, not_or]
    exact ⟨⟨hacc.key_lf, by decide⟩, hraw⟩
  · simp only [List.mem_append, not_or]
    exact ⟨⟨hacc.key_nul, by decide⟩, hnul⟩
  · rw [stripCr_append hkeycr, hfirst]

/-- The first line of a value is a part of the value, apart from its end. -/
theorem firstLine_part (value : Bytes) : firstLine value <:+: value := by
  have htake : value.takeWhile (· ≠ LF) <+: value := List.takeWhile_prefix _
  unfold firstLine stripCr
  split
  · exact ((List.dropLast_prefix _).trans htake).isInfix
  · exact htake.isInfix

theorem lf_not_mem_firstLine (value : Bytes) : LF ∉ firstLine value := by
  have hnot : LF ∉ value.takeWhile (· ≠ LF) := by
    intro hmem
    simpa using List.mem_takeWhile_imp hmem
  unfold firstLine stripCr
  split
  · exact fun hmem => hnot (List.mem_of_mem_dropLast hmem)
  · exact hnot

/-- A clean header adds one header. One that is not clean adds none, or the parser ends inside it.
-/
theorem header_cases (hacc : header.Accepted)
    (hlimit : Within evcon (req.headersSize + header.line.length)) :
    if header.clean then Passes evcon req header.line (req.inputHeaders.length + 1)
    else Breaks evcon req header.line ∨ Passes evcon req header.line req.inputHeaders.length := by
  obtain ⟨line, raw, text, hline, hlf, hnul, hstrip, htrails⟩ := exists_header_line hacc
  rw [hline, List.length_append, List.length_cons] at hlimit
  rw [hline]
  have hne : stripCr line ≠ [] := by simp [hstrip]
  have hwithin : Within evcon (req.headersSize + line.length) := hlimit.mono (by omega)
  have hstep := line_cases hlf hnul hne hwithin text
  rw [hstrip] at hstep
  by_cases hstops : Stops isLws header.key
  · have hkey : header.key.head?.any isLws = false := by
      cases hhead : header.key.head? with
      | none => rfl
      | some b => exact hstops b hhead
    have hchain : EolChain (firstLine header.value) :=
      ((eolFollowed_iff _).mp hacc.value_followed).1.part (firstLine_part _)
    have hparse := evhttpParseHeaderLine_value hstops hacc.key_cr hacc.key_lf
      (lf_not_mem_firstLine _) hchain req.inputHeaders
    cases hends : endsInCr (firstLine header.value) with
    | true =>
      rw [hends] at hparse
      rw [hparse] at hstep
      have hclean : header.clean = false := by simp [Evkeyval.clean, hends]
      rw [hclean]
      exact .inl hstep
    | false =>
      rw [hends] at hparse
      obtain ⟨added, hadded⟩ := hparse
      rw [hadded] at hstep
      obtain ⟨req', heq, hsize, hgoes⟩ := hstep
      have hne' : req'.inputHeaders ≠ [] := by simp [heq]
      have hafter := hgoes _ _ (htrails.goes hne' (hlimit.mono (by omega)))
      have hclean : header.clean = lfFolded header.value := by
        simp [Evkeyval.clean, hkey, hends]
      rw [← hclean] at hafter
      cases hc : header.clean with
      | true => simpa [hc, heq] using hafter
      | false => exact .inl (by simpa [hc] using hafter)
  · -- the parser takes the line for a continuation line
    obtain ⟨b, key', hkey, hb⟩ : ∃ b key', header.key = b :: key' ∧ isLws b = true := by
      cases hkey : header.key with
      | nil => exact absurd (hkey ▸ stops_nil) hstops
      | cons b key' =>
        refine ⟨b, key', rfl, ?_⟩
        rw [hkey] at hstops
        simpa using hstops
    have hclean : header.clean = false := by simp [Evkeyval.clean, hkey, hb]
    rw [hclean]
    rw [hkey, List.cons_append, List.cons_append] at hstep
    by_cases hheaders : req.inputHeaders = []
    · rw [hheaders, evhttpParseHeaderLine_fold_nil hb] at hstep
      exact .inl hstep
    obtain ⟨headers, hparse, hlen⟩ := evhttpParseHeaderLine_fold hheaders hb
      (key' ++ [COLON, SP] ++ firstLine header.value)
    rw [hparse] at hstep
    obtain ⟨req', rfl, hsize, hgoes⟩ := hstep
    have hne' : req'.inputHeaders ≠ [] := by
      rw [← List.length_pos_iff, hlen]
      exact List.length_pos_iff.mpr hheaders
    have hafter := hgoes _ _ (htrails.goes hne' (hlimit.mono (by omega)))
    rw [hlen] at hafter
    cases hfold : lfFolded header.value with
    | true => exact .inr (by simpa [hfold] using hafter)
    | false => exact .inl (by simpa [hfold] using hafter)

/-! ### The whole list -/

/-- The parser ended at the blank line behind the list, with `n` headers. -/
def ReadsBack (r : HeaderParser × Bytes) (n : Nat) (rest : Bytes) : Prop :=
  r.1.2 = some .allDataRead ∧ r.1.1.inputHeaders.length = n ∧ r.2 = rest

/-- The parser always ends on the text of a list. It never has more headers than there are in the
list when it ends at the blank line, and it has as many exactly when all of them are clean. -/
theorem settle_makeHeader (hacc : ∀ header ∈ headers, header.Accepted) (req : HeaderState)
    (hlimit : Within evcon (req.headersSize + (evhttpMakeHeader headers).length))
    (rest : Bytes) :
    let r := (headerMachine evcon).settle (req, none) (evhttpMakeHeader headers ++ rest)
    r.1.2 ≠ none ∧ (∀ n, ReadsBack r n rest → n ≤ req.inputHeaders.length + headers.length) ∧
      (ReadsBack r (req.inputHeaders.length + headers.length) rest ↔
        ∀ header ∈ headers, header.clean = true) := by
  induction headers generalizing req with
  | nil =>
    have hblank : evhttpMakeHeader [] ++ rest = [CR] ++ LF :: rest := rfl
    have hstrip : stripCr [CR] = [] := rfl
    rw [hblank, settle_line (by decide), hstrip,
      evhttpParseHeadersTurn_blank (hlimit.mono (by omega)),
      Consumer.settle_of_none (headerMachine_ended _ _ _)]
    refine ⟨nofun, ?_, ?_⟩
    · rintro n ⟨-, rfl, -⟩
      simp
    · simp [ReadsBack]
  | cons header headers ih =>
    have hmake : evhttpMakeHeader (header :: headers) =
        header.line ++ evhttpMakeHeader headers := by
      simp [evhttpMakeHeader]
    rw [hmake, List.length_append] at hlimit
    rw [hmake, List.append_assoc]
    have htail : ∀ header ∈ headers, header.Accepted :=
      fun h hmem => hacc h (List.mem_cons_of_mem header hmem)
    have hwithin : Within evcon (req.headersSize + header.line.length) := hlimit.mono (by omega)
    have hfirst := header_cases (hacc header List.mem_cons_self) hwithin
    cases hclean : header.clean with
    | true =>
      rw [hclean] at hfirst
      obtain ⟨req', hn, hsize, hx⟩ := hfirst
      obtain ⟨hended, hle, hiff⟩ := ih htail req' (hlimit.mono (by omega))
      rw [hx]
      simp only [hn, Nat.add_assoc, Nat.add_comm 1] at hle hiff
      refine ⟨hended, hle, ?_⟩
      simpa [hclean] using hiff
    | false =>
      rw [hclean] at hfirst
      have hnot : ¬ ∀ h ∈ header :: headers, h.clean = true := by
        intro hall
        rw [hall header List.mem_cons_self] at hclean
        cases hclean
      rcases hfirst with ⟨req', status, left, hleft, hx⟩ | ⟨req', hn, hsize, hx⟩
      · rw [hx]
        have hnever : ∀ n, ¬ ReadsBack ((req', some status),
            left ++ (evhttpMakeHeader headers ++ rest)) n rest := by
          rintro n ⟨hstatus, -, hrest⟩
          have hlen := congrArg List.length hrest
          have hpos := List.length_pos_iff.mpr (hleft (Option.some.inj hstatus))
          simp only [List.length_append] at hlen
          omega
        exact ⟨nofun, fun n h => absurd h (hnever n), fun h => absurd h (hnever _),
          fun h => absurd h hnot⟩
      · obtain ⟨hended, hle, -⟩ := ih htail req' (hlimit.mono (by omega))
        rw [hx]
        refine ⟨hended, fun n h => ?_, fun h => ?_, fun h => absurd h hnot⟩
        · have := hle n h
          rw [List.length_cons]
          omega
        · have := hle _ h
          rw [List.length_cons] at this
          omega

/-- The pairs are added one after another with `evhttp_add_header`. -/
def addHeaders (pairs : List Evkeyval) : Option (List Evkeyval) :=
  pairs.foldlM (fun headers pair => evhttpAddHeader headers pair.key pair.value) []

theorem foldlM_addHeader {pairs headers' : List Evkeyval} (h : pairs.foldlM (fun headers pair =>
      evhttpAddHeader headers pair.key pair.value) headers = some headers') :
    headers' = headers ++ pairs ∧ ∀ pair ∈ pairs,
      (CR ∉ pair.key ∧ LF ∉ pair.key) ∧ EolFollowed pair.value := by
  induction pairs generalizing headers with
  | nil =>
    cases h
    simp
  | cons pair pairs ih =>
    rw [List.foldlM_cons, Option.bind_eq_bind, Option.bind_eq_some_iff] at h
    obtain ⟨headers1, hadd, hrest⟩ := h
    obtain ⟨rfl, hpairs⟩ := ih hrest
    unfold evhttpAddHeader at hadd
    split at hadd
    · cases hadd
    next hkey =>
    split at hadd
    · next hvalue =>
      cases hadd
      refine ⟨by simp, ?_⟩
      rw [List.forall_mem_cons]
      exact ⟨⟨not_or.mp hkey, (evhttpHeaderIsValidValue_iff _).mp hvalue⟩, hpairs⟩
    · cases hadd

/-- Let `evhttp_add_header` accept the pairs (C strings, without `NUL`). The text that
`evhttp_make_header` writes for them, with any bytes behind it, is read by `evhttp_parse_headers_`
as one header for each pair, up to the blank line behind the list, exactly when every pair is clean:
its key does not start with white space, every `LF` in its value is followed by white space, and the
first line of its value does not end in a `CR`, apart from white space. -/
theorem makeHeader_reads_iff (evcon : Option EvhttpConnection) (pairs headers : List Evkeyval)
    (hstrings : ∀ pair ∈ pairs, NUL ∉ pair.key ∧ NUL ∉ pair.value)
    (hadd : addHeaders pairs = some headers) (headersSize : Nat)
    (hlimit : ∀ c ∈ evcon, headersSize + (evhttpMakeHeader headers).length ≤ c.maxHeadersSize)
    (rest : Bytes) :
    let (status, req, buffer) :=
      evhttpParseHeaders evcon ⟨[], headersSize⟩ (evhttpMakeHeader headers ++ rest)
    (status = .allDataRead ∧ req.inputHeaders.length = pairs.length ∧ buffer = rest) ↔
      ∀ pair ∈ pairs, pair.clean = true := by
  obtain ⟨rfl, hpairs⟩ := foldlM_addHeader hadd
  have hacc : ∀ pair ∈ headers, pair.Accepted := by
    intro pair hmem
    obtain ⟨⟨hcr, hlf⟩, hvalue⟩ := hpairs pair hmem
    obtain ⟨hkey, hnul⟩ := hstrings pair hmem
    exact ⟨hkey, hcr, hlf, hnul, hvalue⟩
  obtain ⟨hended, -, hiff⟩ := settle_makeHeader hacc ⟨[], headersSize⟩ hlimit rest
  rw [evhttpParseHeaders_eq fun hnone => absurd hnone hended, ← hiff]
  generalize (headerMachine evcon).settle (⟨[], headersSize⟩, none)
    (evhttpMakeHeader headers ++ rest) = r at hended
  obtain ⟨⟨req, _ | status⟩, buffer⟩ := r
  · exact absurd rfl hended
  · simp [ReadsBack, HeaderParser.result]

/-- A value with a continuation line. -/
theorem makeHeader_reads_fold :
    let pairs : List Evkeyval := [⟨ascii "A", ascii "x\r\n y"⟩, ⟨ascii "B", ascii "z"⟩]
    let (status, req, buffer) :=
      evhttpParseHeaders none ⟨[], 0⟩ (evhttpMakeHeader pairs ++ ascii "body")
    (status = .allDataRead ∧ req.inputHeaders.length = pairs.length ∧ buffer = ascii "body") ↔
      ∀ pair ∈ pairs, pair.clean = true := by
  intro pairs
  exact makeHeader_reads_iff none pairs pairs (by decide) (by decide) 0 nofun (ascii "body")

/-- `evhttp_add_header` accepts a value with a blank line in it, because white space follows. The
parser ends at this line, and the rest of the value is taken for the body. -/
theorem header_injected :
    let pairs : List Evkeyval := [⟨ascii "A", ascii "x\r\n\r\n <b>"⟩]
    addHeaders pairs = some pairs ∧ evhttpParseHeaders none ⟨[], 0⟩ (evhttpMakeHeader pairs) =
        (.allDataRead, ⟨[⟨ascii "A", ascii "x"⟩], 4⟩, ascii " <b>\r\n\r\n") := by
  decide

end Libevent
