import Libevent.Proofs.Http.Lines

/-!
# `Libevent.Proofs.Http.RoundTrip`: headers that are written are read back

What `evhttp_parse_headers_` does with one line, and `makeHeader_roundTrip`: the text that
`evhttp_make_header` writes for a list of plain headers is read back as this list, however it is cut
into pieces.
-/

namespace Libevent

open Lib

variable {evcon : Option EvhttpConnection} {l : Bytes} {a : Bytes} {req : HeaderState}

/-! ### Values -/

/-- Every byte of a line end is followed by another one, or by white space. -/
def EolFollowed : Bytes → Prop
  | [] => True
  | b :: l => (isEol b = true → ∃ c ∈ l.head?, isEol c || isLws c) ∧ EolFollowed l

theorem EolFollowed.of_not_isEol (h : ∀ b ∈ l, isEol b = false) : EolFollowed l := by
  induction l with
  | nil => trivial
  | cons b l ih =>
    refine ⟨fun hb => ?_, ih fun c hc => h c (List.mem_cons_of_mem b hc)⟩
    rw [h b List.mem_cons_self] at hb
    cases hb

/-- Text without a line end may stand in front. -/
theorem eolFollowed_append_of_not_isEol (h : ∀ b ∈ a, isEol b = false) :
    EolFollowed (a ++ l) ↔ EolFollowed l := by
  induction a with
  | nil => rfl
  | cons b a ih =>
    have hb := h b List.mem_cons_self
    have htail := ih fun c hc => h c (List.mem_cons_of_mem b hc)
    simp [EolFollowed, hb, htail]

/-- A run of line ends has to be followed by white space. -/
theorem eolFollowed_run (ha : ∀ b ∈ a, isEol b = true) (hne : a ≠ [])
    (hl : Stops isEol l) : EolFollowed (a ++ l) ↔ (∃ c ∈ l.head?, isLws c) ∧ EolFollowed l := by
  induction a with
  | nil => exact absurd rfl hne
  | cons b a ih =>
    have hb := ha b List.mem_cons_self
    have hrest : ∀ c ∈ a, isEol c = true := fun c hc => ha c (List.mem_cons_of_mem b hc)
    cases a with
    | nil =>
      have hhead : (∃ c ∈ l.head?, isEol c || isLws c) ↔ ∃ c ∈ l.head?, isLws c := by
        refine exists_congr fun c => and_congr_right fun hc => ?_
        simp [hl c hc]
      rw [List.singleton_append, EolFollowed, hhead]
      simp [hb]
    | cons c a =>
      rw [List.cons_append, EolFollowed, ih hrest (by simp)]
      simp [hrest c List.mem_cons_self]

/-- The loop of `evhttp_header_is_valid_value`. -/
theorem evhttpHeaderIsValidValueLoop_iff (fuel : Nat) (p : Bytes) (hfuel : p.length < fuel) :
    evhttpHeaderIsValidValueLoop fuel p = true ↔ EolFollowed p := by
  induction fuel generalizing p with
  | zero => omega
  | succ fuel ih =>
    -- the text up to the first line end, the run of line ends, and what is behind it
    have hcut := List.takeWhile_append_dropWhile (p := (!isEol ·)) (l := p)
    have hnot : ∀ b ∈ p.takeWhile (!isEol ·), isEol b = false := by
      intro b hb
      simpa using List.mem_takeWhile_imp hb
    have hstart := stops_dropWhile (!isEol ·) p
    rw [evhttpHeaderIsValidValueLoop]
    generalize p.takeWhile (!isEol ·) = a at hcut hnot
    generalize p.dropWhile (!isEol ·) = q at hcut hstart
    subst hcut
    rw [eolFollowed_append_of_not_isEol hnot]
    cases q with
    | nil => simp [EolFollowed]
    | cons e q =>
      have he : isEol e = true := by simpa using hstart
      have hrun := List.takeWhile_append_dropWhile (p := isEol) (l := e :: q)
      have hall : ∀ b ∈ (e :: q).takeWhile isEol, isEol b = true :=
        fun b hb => List.mem_takeWhile_imp hb
      have hne : (e :: q).takeWhile isEol ≠ [] := by simp [he]
      have hend := stops_dropWhile isEol (e :: q)
      dsimp only
      generalize (e :: q).takeWhile isEol = run at hrun hall hne
      generalize (e :: q).dropWhile isEol = r at hrun hend
      rw [← hrun, eolFollowed_run hall hne hend]
      have hlen : r.length < (e :: q).length := by
        have : 0 < run.length := List.length_pos_iff.mpr hne
        rw [← hrun, List.length_append]
        omega
      cases r with
      | nil => simp
      | cons b l =>
        rw [List.length_append] at hfuel
        have hloop := ih (b :: l) (by omega)
        by_cases hb : isLws b = true
        · simp [hloop]
        · simp [hb]

theorem evhttpHeaderIsValidValue_iff (value : Bytes) :
    evhttpHeaderIsValidValue value = true ↔ EolFollowed value :=
  evhttpHeaderIsValidValueLoop_iff _ value (Nat.lt_succ_self _)

/-! ### One line -/

/-- A line with a key that does not start with white space is split at the first colon. -/
theorem evhttpParseHeaderLine_field {key : Bytes} (hkey : COLON ∉ key) (hlws : Stops isLws key)
    (headers : List Evkeyval) (value : Bytes) :
    evhttpParseHeaderLine headers (key ++ COLON :: value) =
      evhttpAddHeader headers key (evutilRtrimLws (value.dropWhile (· = SP))) := by
  have hhead : ((key ++ COLON :: value).head?.any isLws) = false := by
    cases key with
    | nil => rfl
    | cons b key => simpa using hlws
  have hne := forall_ne_of_not_mem hkey
  have hstop : Stops (· ≠ COLON) (COLON :: value) := by simp
  simp only [evhttpParseHeaderLine, hhead, strsepColon, takeWhile_append_stops hne hstop,
    dropWhile_append_stops hne hstop]
  rfl

/-- A line that starts with white space goes to the header before it. -/
theorem evhttpParseHeaderLine_fold {headers : List Evkeyval} (hne : headers ≠ []) {b : UInt8}
    (hb : isLws b = true) (line : Bytes) :
    ∃ headers', evhttpParseHeaderLine headers (b :: line) = some headers' ∧
      headers'.length = headers.length := by
  obtain ⟨header, hlast⟩ : ∃ header, headers.getLast? = some header :=
    ⟨_, List.getLast?_eq_some_getLast hne⟩
  have hpos : 0 < headers.length := List.length_pos_iff.mpr hne
  simp only [evhttpParseHeaderLine, List.head?_cons, Option.any_some, hb, evhttpAppendToLastHeader,
    hlast]
  refine ⟨_, rfl, ?_⟩
  simp
  omega

/-- The turn for a line that is not empty and within the limit. -/
theorem evhttpParseHeadersTurn_line {line : Bytes} (hne : line ≠ []) (hnul : NUL ∉ line)
    (hlimit : Within evcon (req.headersSize + line.length)) :
    evhttpParseHeadersTurn evcon req line =
      match evhttpParseHeaderLine req.inputHeaders line with
      | none => (some .dataCorrupted, { req with headersSize := req.headersSize + line.length })
      | some headers =>
        (none, { inputHeaders := headers, headersSize := req.headersSize + line.length }) := by
  cases hline : evhttpParseHeaderLine req.inputHeaders line <;>
    simp only [evhttpParseHeadersTurn, hlimit.any_lt, cstr_of_not_mem hnul, hne, hline, if_false,
      Bool.false_eq_true]

/-- The blank line. -/
theorem evhttpParseHeadersTurn_blank (hlimit : Within evcon req.headersSize) :
    evhttpParseHeadersTurn evcon req [] = (some .allDataRead, req) := by
  simp [evhttpParseHeadersTurn, hlimit.any_lt, cstr]

/-! ### Plain headers -/

/-- A header whose text is split and trimmed back into the header. -/
structure Evkeyval.Plain (header : Evkeyval) : Prop where
  key_ne_nil : header.key ≠ []
  key_colon : COLON ∉ header.key
  key_cr : CR ∉ header.key
  key_lf : LF ∉ header.key
  key_nul : NUL ∉ header.key
  key_head : Stops isLws header.key
  value_cr : CR ∉ header.value
  value_lf : LF ∉ header.value
  value_nul : NUL ∉ header.value
  value_head : Stops (· = SP) header.value
  value_last : ∀ b ∈ header.value.getLast?, isLws b = false

/-- The bytes of the line without its end. -/
def Evkeyval.text (header : Evkeyval) : Bytes :=
  header.key ++ [COLON, SP] ++ header.value

/-- What the headers add to `headers_size`. -/
def headersLength (headers : List Evkeyval) : Nat :=
  (headers.map fun header => header.text.length).sum

variable {header : Evkeyval} {headers : List Evkeyval}

theorem Evkeyval.mem_text {b : UInt8} :
    b ∈ header.text ↔ b ∈ header.key ∨ b = COLON ∨ b = SP ∨ b ∈ header.value := by
  simp [Evkeyval.text]

theorem Evkeyval.Plain.text_lf (h : header.Plain) : LF ∉ header.text := by
  rw [Evkeyval.mem_text]
  rintro (hkey | hcolon | hsp | hvalue)
  · exact h.key_lf hkey
  · cases hcolon
  · cases hsp
  · exact h.value_lf hvalue

theorem Evkeyval.Plain.text_nul (h : header.Plain) : NUL ∉ header.text := by
  rw [Evkeyval.mem_text]
  rintro (hkey | hcolon | hsp | hvalue)
  · exact h.key_nul hkey
  · cases hcolon
  · cases hsp
  · exact h.value_nul hvalue

theorem Evkeyval.text_ne_nil (header : Evkeyval) : header.text ≠ [] := by
  simp [Evkeyval.text]

/-- Nothing is trimmed from the end of the value. -/
theorem rtrim_of_last {value : Bytes} (h : ∀ b ∈ value.getLast?, isLws b = false) :
    evutilRtrimLws value = value := by
  rw [evutilRtrimLws, List.rdropWhile_eq_self_iff]
  intro hne hlast
  have := h _ (List.getLast?_eq_some_getLast hne)
  cases this.symm.trans hlast

/-- The text of a plain header is read as the header. -/
theorem Evkeyval.Plain.parse (h : header.Plain) (headers : List Evkeyval) :
    evhttpParseHeaderLine headers header.text = some (headers ++ [header]) := by
  have htext : header.text = header.key ++ COLON :: (SP :: header.value) := by
    simp [Evkeyval.text]
  have htrim : (SP :: header.value).dropWhile (· = SP) = header.value := by
    rw [List.dropWhile_cons_of_pos (by simp), dropWhile_of_stops h.value_head]
  have hvalid : evhttpHeaderIsValidValue header.value = true := by
    rw [evhttpHeaderIsValidValue_iff]
    refine EolFollowed.of_not_isEol fun b hb => ?_
    simp [isEol, ne_of_mem_of_not_mem hb h.value_cr, ne_of_mem_of_not_mem hb h.value_lf]
  rw [htext, evhttpParseHeaderLine_field h.key_colon h.key_head, htrim, rtrim_of_last h.value_last]
  simp [evhttpAddHeader, h.key_cr, h.key_lf, hvalid]

/-! ### A list of lines -/

/-- Lines, each with its end, and the blank line behind them. -/
def linesText (lines : List Bytes) : Bytes :=
  lines.flatMap (· ++ CRLF) ++ CRLF

/-- What the lines add to `headers_size`. -/
def linesLength (lines : List Bytes) : Nat :=
  (lines.map List.length).sum

/-- A line that `evbuffer_readln` returns as it was written. -/
structure IsLine (line : Bytes) : Prop where
  ne_nil : line ≠ []
  lf : LF ∉ line
  nul : NUL ∉ line

/-- On a part of the text, the parser waits within the limit; on all of it, it ends with what the
lines make of the headers. -/
theorem headerMachine_lines {lines : List Bytes} (hlines : ∀ line ∈ lines, IsLine line)
    (req : HeaderState) {headers' : List Evkeyval}
    (hparse : lines.foldlM evhttpParseHeaderLine req.inputHeaders = some headers')
    (hlimit : Within evcon (req.headersSize + linesLength lines + 1)) {pre rest : Bytes}
    (hpre : pre <+: linesText lines ++ rest) :
    (∃ x, pre = linesText lines ++ x ∧ (headerMachine evcon).settle (req, none) pre =
        ((⟨headers', req.headersSize + linesLength lines⟩, some .allDataRead), x)) ∨
    (pre.length < (linesText lines).length ∧
      ∃ req' buffer, (headerMachine evcon).settle (req, none) pre = ((req', none), buffer) ∧
        Within evcon (req'.headersSize + buffer.length)) := by
  -- induction on the list: the line at its head has arrived, or only a part of it
  induction lines generalizing req pre with
  | nil =>
    cases hparse
    rcases line_arrived (@List.not_mem_nil _ LF) hpre with ⟨x, rfl, -⟩ | ⟨hwait, hlen⟩
    · refine .inl ⟨x, rfl, ?_⟩
      have hread : evbufferReadln (CRLF ++ x) = some ([], x) :=
        evbufferReadln_crlf List.not_mem_nil x
      have hmove : (headerMachine evcon).move (req, none) _ = _ := headerMachine_move req hread
      rw [evhttpParseHeadersTurn_blank (hlimit.mono (by omega))] at hmove
      rw [List.nil_append, Consumer.settle_of_some hmove,
        Consumer.settle_of_none (headerMachine_ended _ _ _)]
      rfl
    · refine .inr ⟨Nat.lt_succ_of_le hlen, req, pre, ?_, hlimit.mono ?_⟩
      · exact Consumer.settle_of_none (headerMachine_wait hwait)
      · simpa [linesLength] using hlen
  | cons line lines ih =>
    have hline : IsLine line := hlines line List.mem_cons_self
    have htail : ∀ line ∈ lines, IsLine line :=
      fun l hmem => hlines l (List.mem_cons_of_mem line hmem)
    have htext : linesText (line :: lines) = line ++ CRLF ++ linesText lines := by
      simp [linesText]
    have hsize : linesLength (line :: lines) = line.length + linesLength lines := rfl
    rw [List.foldlM_cons, Option.bind_eq_bind, Option.bind_eq_some_iff] at hparse
    obtain ⟨headers, hfirst, hparse⟩ := hparse
    rw [htext, List.append_assoc] at hpre
    rw [htext, hsize]
    rcases line_arrived hline.lf hpre with ⟨y, rfl, hy⟩ | ⟨hwait, hlen⟩
    · have hmove : (headerMachine evcon).move (req, none) (line ++ CRLF ++ y) =
          some ((⟨headers, req.headersSize + line.length⟩, none), y) := by
        rw [headerMachine_move req (evbufferReadln_crlf hline.lf y),
          evhttpParseHeadersTurn_line hline.ne_nil hline.nul (hlimit.mono (by omega)), hfirst]
      rw [Consumer.settle_of_some hmove]
      rcases ih htail ⟨headers, req.headersSize + line.length⟩ hparse
        (hlimit.mono (by simp only; omega)) hy with ⟨x, rfl, hx⟩ | ⟨hlen, hx⟩
      · refine .inl ⟨x, (List.append_assoc _ _ x).symm, ?_⟩
        rw [hx, Nat.add_assoc]
      · refine .inr ⟨?_, hx⟩
        simpa using hlen
    · refine .inr ⟨?_, req, pre, Consumer.settle_of_none (headerMachine_wait hwait), ?_⟩
      · have : (line ++ CRLF).length = line.length + 2 := by simp [CRLF]
        rw [List.length_append]
        omega
      · exact hlimit.mono (by omega)

/-! ### Lists of headers -/

theorem evhttpMakeHeader_eq (headers : List Evkeyval) :
    evhttpMakeHeader headers = linesText (headers.map Evkeyval.text) := by
  rw [linesText, List.flatMap_map]
  rfl

/-- The lines of plain headers are read as the headers. -/
theorem foldlM_plain (hplain : ∀ header ∈ headers, header.Plain) (before : List Evkeyval) :
    (headers.map Evkeyval.text).foldlM evhttpParseHeaderLine before = some (before ++ headers) := by
  induction headers generalizing before with
  | nil => simp
  | cons header headers ih =>
    rw [List.map_cons, List.foldlM_cons, (hplain header List.mem_cons_self).parse]
    have := ih (fun h hmem => hplain h (List.mem_cons_of_mem header hmem)) (before ++ [header])
    rwa [List.append_assoc] at this

/-- The text that `evhttp_make_header` writes for a list of plain headers arrives in pieces, with
other bytes behind it, and `evhttp_parse_headers_` is called after each piece. It ends exactly when
the blank line has arrived. Then it has the same list, and the bytes behind the blank line are left
in the buffer. The request has no header before; `headers_size` counts the line ends only while a
line is incomplete. -/
theorem makeHeader_roundTrip (evcon : Option EvhttpConnection) (headers : List Evkeyval)
    (hplain : ∀ header ∈ headers, header.Plain) (headersSize : Nat)
    (hlimit : ∀ c ∈ evcon, headersSize + headersLength headers + 1 ≤ c.maxHeadersSize)
    (rest : Bytes) (pieces : List Bytes)
    (hpieces : pieces.flatten <+: evhttpMakeHeader headers ++ rest) :
    let (status, req, buffer) := parsePieces evcon ⟨[], headersSize⟩ pieces
    (status = .allDataRead ↔ evhttpMakeHeader headers <+: pieces.flatten) ∧
      (status ≠ .allDataRead → status = .moreDataExpected) ∧
      (status = .allDataRead → req.inputHeaders = headers ∧
        pieces.flatten = evhttpMakeHeader headers ++ buffer) := by
  have hlines : ∀ line ∈ headers.map Evkeyval.text, IsLine line := by
    intro line hmem
    obtain ⟨header, hheader, rfl⟩ := List.mem_map.mp hmem
    exact ⟨header.text_ne_nil, (hplain header hheader).text_lf, (hplain header hheader).text_nul⟩
  have hlength : headersLength headers = linesLength (headers.map Evkeyval.text) := by
    rw [linesLength, List.map_map]
    rfl
  rw [hlength] at hlimit
  rw [evhttpMakeHeader_eq] at hpieces ⊢
  have hmachine {pre : Bytes} (hpre : pre <+: linesText (headers.map Evkeyval.text) ++ rest) :=
    headerMachine_lines hlines ⟨[], headersSize⟩ (foldlM_plain hplain []) hlimit hpre
  have hfits : ∀ pre, pre <+: pieces.flatten → HeaderParser.Fits evcon
      ((headerMachine evcon).settle (⟨[], headersSize⟩, none) pre) := by
    intro pre hpre hnone
    rcases hmachine (hpre.trans hpieces) with ⟨x, -, hx⟩ | ⟨-, req', buffer, hx, hfits⟩
    · rw [hx] at hnone
      cases hnone
    · rwa [hx]
  rw [parsePieces_eq hfits]
  rcases hmachine hpieces with ⟨x, hflat, hx⟩ | ⟨hlen, req', buffer, hx, -⟩
  · rw [hx]
    refine ⟨⟨fun _ => ⟨x, hflat.symm⟩, fun _ => rfl⟩, fun h => absurd rfl h, fun _ => ⟨?_, hflat⟩⟩
    exact List.nil_append headers
  · rw [hx]
    refine ⟨⟨nofun, fun h => ?_⟩, fun _ => rfl, nofun⟩
    exact absurd h.length_le (by omega)

/-- Two headers in two pieces, cut inside a line end, with the start of a body behind them. -/
theorem makeHeader_roundTrip_split :
    let headers : List Evkeyval := [⟨ascii "Host", ascii "a b"⟩, ⟨ascii "X", []⟩]
    let pieces := [ascii "Host: a b\r", ascii "\nX: \r\n\r\nbody"]
    let (status, req, buffer) := parsePieces (some { maxHeadersSize := 13 }) ⟨[], 0⟩ pieces
    (status = .allDataRead ↔ evhttpMakeHeader headers <+: pieces.flatten) ∧
      (status ≠ .allDataRead → status = .moreDataExpected) ∧
      (status = .allDataRead → req.inputHeaders = headers ∧
        pieces.flatten = evhttpMakeHeader headers ++ buffer) := by
  intro headers pieces
  refine makeHeader_roundTrip (some { maxHeadersSize := 13 }) headers ?_ 0 ?_ (ascii "body") pieces
    ⟨[], by decide⟩
  · simp only [headers, List.forall_mem_cons, List.not_mem_nil, false_imp_iff, implies_true,
      and_true]
    constructor <;> constructor <;>
      first | exact stops_nil | exact stops_cons.mpr rfl | (rintro b ⟨⟩ <;> rfl) | decide
  · rintro c ⟨⟩
    decide

end Libevent
