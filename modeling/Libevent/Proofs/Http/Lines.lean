import Libevent.Http.Headers
import Libevent.Lib.Consumer
import Libevent.Lib.Span

/-!
# `Libevent.Proofs.Http.Lines`: lines and the header parser as a machine

`evbuffer_readln` cuts a buffer behind the first `LF`. The loop of `evhttp_parse_headers_` is a
machine that takes one line in a move (`headerMachine`), so that its result on a stream does not
depend on how the stream arrives, as long as the limit on the size of the headers is not reached
while a line is incomplete (`parsePieces_eq`).
-/

namespace Libevent

open Lib

/-! ### `evbuffer_readln` -/

variable {rest : Bytes} {pre : Bytes}

theorem stops_ne_lf : Stops (· ≠ LF) (LF :: rest) := by simp

/-- A line and the rest of the buffer. -/
theorem evbufferReadln_line (h : LF ∉ pre) (rest : Bytes) :
    evbufferReadln (pre ++ LF :: rest) = some (stripCr pre, rest) := by
  have hpre := forall_ne_of_not_mem h
  simp only [evbufferReadln, dropWhile_append_stops hpre stops_ne_lf,
    takeWhile_append_stops hpre stops_ne_lf]

variable {buffer line : Bytes}

/-- What a buffer from which a line was read looks like. -/
theorem evbufferReadln_some (h : evbufferReadln buffer = some (line, rest)) :
    ∃ pre, LF ∉ pre ∧ buffer = pre ++ LF :: rest ∧ line = stripCr pre := by
  unfold evbufferReadln at h
  cases hdrop : buffer.dropWhile (· ≠ LF) with
  | nil =>
    rw [hdrop] at h
    cases h
  | cons b l =>
    rw [hdrop] at h
    cases h
    refine ⟨buffer.takeWhile (· ≠ LF), fun hmem => ?_, cut_of_dropWhile_ne hdrop, rfl⟩
    simpa using List.mem_takeWhile_imp hmem

theorem evbufferReadln_none (h : LF ∉ buffer) : evbufferReadln buffer = none := by
  have hall : buffer.dropWhile (· ≠ LF) = [] :=
    List.dropWhile_eq_nil_iff.mpr (forall_ne_of_not_mem h)
  simp only [evbufferReadln, hall]

@[simp] theorem stripCr_append_cr (line : Bytes) : stripCr (line ++ [CR]) = line := by
  simp [stripCr]

theorem length_stripCr_le (line : Bytes) : (stripCr line).length ≤ line.length := by
  unfold stripCr
  split
  · simp
  · exact le_rfl

/-- A line that ends in `CR LF`. -/
theorem evbufferReadln_crlf (h : LF ∉ line) (rest : Bytes) :
    evbufferReadln (line ++ CRLF ++ rest) = some (line, rest) := by
  have hcr : LF ∉ line ++ [CR] := by
    rw [List.mem_append, not_or]
    exact ⟨h, by decide⟩
  have hread := evbufferReadln_line hcr rest
  rw [stripCr_append_cr, List.append_assoc] at hread
  rwa [List.append_assoc]

/-- A part of a stream that starts with a line holds the whole line, or no line at all. -/
theorem line_arrived {more : Bytes} (h : LF ∉ line) (hpre : pre <+: line ++ CRLF ++ more) :
    (∃ x, pre = line ++ CRLF ++ x ∧ x <+: more) ∨
      (evbufferReadln pre = none ∧ pre.length ≤ line.length + 1) := by
  rcases List.prefix_or_prefix_of_prefix (List.prefix_append _ more) hpre with ⟨x, rfl⟩ | hpart
  · exact .inl ⟨x, rfl, (List.prefix_append_right_inj _).mp hpre⟩
  have hsnoc : line ++ CRLF = (line ++ [CR]) ++ [LF] := by simp [CRLF]
  rw [hsnoc, List.prefix_concat_iff] at hpart
  rcases hpart with rfl | hpart
  · exact .inl ⟨[], by simp [CRLF], List.nil_prefix⟩
  have hlf : LF ∉ line ++ [CR] := by
    rw [List.mem_append, not_or]
    exact ⟨h, by decide⟩
  refine .inr ⟨evbufferReadln_none fun hmem => hlf (hpart.subset hmem), ?_⟩
  simpa using hpart.length_le

theorem evbufferReadln_shrinks
    (h : evbufferReadln buffer = some (line, rest)) : rest.length < buffer.length := by
  obtain ⟨pre, -, rfl, -⟩ := evbufferReadln_some h
  simp
  omega

theorem evbufferReadln_stable (x : Bytes) (h : evbufferReadln buffer = some (line, rest)) :
    evbufferReadln (buffer ++ x) = some (line, rest ++ x) := by
  obtain ⟨pre, hpre, rfl, rfl⟩ := evbufferReadln_some h
  rw [List.append_assoc]
  exact evbufferReadln_line hpre (rest ++ x)

theorem cstr_of_not_mem {l : Bytes} (h : NUL ∉ l) : cstr l = l :=
  takeWhile_of_forall (forall_ne_of_not_mem h)

/-! ### The header parser -/

/-- The parser between two lines, and how it ended. -/
abbrev HeaderParser := HeaderState × Option MessageReadStatus

/-- The loop of `evhttp_parse_headers_`, one line a move. -/
def headerMachine (evcon : Option EvhttpConnection) : Consumer HeaderParser UInt8 where
  move s buffer :=
    match s, evbufferReadln buffer with
    | (req, none), some (line, rest) =>
      let (status, req) := evhttpParseHeadersTurn evcon req line
      some ((req, status), rest)
    | _, _ => none
  shrinks := by
    intro s buffer s' rest h
    dsimp only at h
    split at h
    · next hread =>
      cases h
      exact evbufferReadln_shrinks hread
    · cases h
  stable := by
    intro s buffer s' rest x h
    dsimp only at h
    split at h
    · next hread =>
      cases h
      simp only [evbufferReadln_stable x hread]
    · cases h

variable {evcon : Option EvhttpConnection} {req : HeaderState}

theorem headerMachine_move (req : HeaderState) (h : evbufferReadln buffer = some (line, rest)) :
    (headerMachine evcon).move (req, none) buffer =
      some (((evhttpParseHeadersTurn evcon req line).2, (evhttpParseHeadersTurn evcon req line).1),
        rest) := by
  simp only [headerMachine, h]

theorem headerMachine_wait
    (h : evbufferReadln buffer = none) : (headerMachine evcon).move (req, none) buffer = none := by
  simp only [headerMachine, h]

theorem headerMachine_ended (req : HeaderState) (status : MessageReadStatus)
    (buffer : Bytes) : (headerMachine evcon).move (req, some status) buffer = none := by
  simp only [headerMachine]

/-- The loop is the machine. -/
theorem evhttpParseHeadersLoop_eq (fuel : Nat) (req : HeaderState) (buffer : Bytes) :
    evhttpParseHeadersLoop evcon fuel req buffer =
      let r := (headerMachine evcon).settleFuel fuel (req, none) buffer
      (r.1.2.getD .moreDataExpected, r.1.1, r.2) := by
  induction fuel generalizing req buffer with
  | zero => rfl
  | succ fuel ih =>
    cases hread : evbufferReadln buffer with
    | none =>
      simp only [evhttpParseHeadersLoop, Consumer.settleFuel, hread, headerMachine_wait hread]
      rfl
    | some p =>
      obtain ⟨line, rest⟩ := p
      simp only [evhttpParseHeadersLoop, Consumer.settleFuel, hread, headerMachine_move req hread]
      rcases hturn : evhttpParseHeadersTurn evcon req line with ⟨_ | status, req'⟩
      · exact ih req' rest
      · rw [Consumer.settleFuel_of_none (headerMachine_ended req' status rest)]
        rfl

/-- The loop ends with `MORE_DATA_EXPECTED` only because there is no further line. -/
theorem evhttpParseHeadersTurn_ne (req : HeaderState) (line : Bytes) :
    (evhttpParseHeadersTurn evcon req line).1 ≠ some .moreDataExpected := by
  unfold evhttpParseHeadersTurn
  dsimp only
  split
  · simp
  split
  · simp
  split <;> simp

/-- What the caller of `evhttp_parse_headers_` sees of the machine, when the limit is not reached
while a line is incomplete. -/
def HeaderParser.result (r : HeaderParser × Bytes) :
    MessageReadStatus × HeaderState × Bytes :=
  (r.1.2.getD .moreDataExpected, r.1.1, r.2)

/-- The bytes of the headers so far, with those of the incomplete line, are within the limit. -/
def Within (evcon : Option EvhttpConnection) (size : Nat) : Prop :=
  ∀ c ∈ evcon, size ≤ c.maxHeadersSize

theorem Within.mono {m n : Nat} (h : Within evcon n) (hmn : m ≤ n) : Within evcon m :=
  fun c hc => hmn.trans (h c hc)

theorem Within.any_lt {n : Nat} (h : Within evcon n) :
    (evcon.any (·.maxHeadersSize < n)) = false := by
  cases evcon with
  | none => rfl
  | some c => simpa using h c rfl

/-- The parser waits within the limit on the size of the headers. -/
def HeaderParser.Fits (evcon : Option EvhttpConnection) (r : HeaderParser × Bytes) : Prop :=
  r.1.2 = none → Within evcon (r.1.1.headersSize + r.2.length)

theorem headerMachine_settle_ne (evcon : Option EvhttpConnection) (req : HeaderState)
    (buffer : Bytes) :
    ((headerMachine evcon).settle (req, none) buffer).1.2 ≠ some .moreDataExpected := by
  refine Consumer.settle_induction
    (P := fun (s : HeaderParser) _ => s.2 ≠ some .moreDataExpected) ?_ (by simp)
  rintro ⟨req, _ | status⟩ buffer s' rest - hmove
  · cases hread : evbufferReadln buffer with
    | none =>
      rw [headerMachine_wait hread] at hmove
      cases hmove
    | some p =>
      rw [headerMachine_move req hread] at hmove
      cases hmove
      exact evhttpParseHeadersTurn_ne req p.1
  · cases hmove

/-- Within the limit, `evhttp_parse_headers_` is the machine. -/
theorem evhttpParseHeaders_eq
    (h : HeaderParser.Fits evcon ((headerMachine evcon).settle (req, none) buffer)) :
    evhttpParseHeaders evcon req buffer =
      HeaderParser.result ((headerMachine evcon).settle (req, none) buffer) := by
  have hne := headerMachine_settle_ne evcon req buffer
  have hloop : evhttpParseHeadersLoop evcon buffer.length req buffer =
      HeaderParser.result ((headerMachine evcon).settle (req, none) buffer) :=
    evhttpParseHeadersLoop_eq buffer.length req buffer
  unfold evhttpParseHeaders
  rw [hloop]
  generalize (headerMachine evcon).settle (req, none) buffer = r at h hne
  obtain ⟨⟨req', _ | status⟩, rest⟩ := r
  · have hfit := (h rfl).any_lt
    simp only [HeaderParser.result, Option.getD_none, hfit]
    rfl
  · cases status <;> first | rfl | exact absurd rfl hne

/-- A call of `evhttp_parse_headers_` after a further piece has arrived. When the parser has ended,
the piece stays in the buffer. -/
def parsePiece (evcon : Option EvhttpConnection)
    (s : MessageReadStatus × HeaderState × Bytes) (piece : Bytes) :
    MessageReadStatus × HeaderState × Bytes :=
  match s with
  | (.moreDataExpected, req, buffer) => evhttpParseHeaders evcon req (buffer ++ piece)
  | (status, req, buffer) => (status, req, buffer ++ piece)

/-- `evhttp_parse_headers_` is called after each piece. -/
def parsePieces (evcon : Option EvhttpConnection) (req : HeaderState)
    (pieces : List Bytes) : MessageReadStatus × HeaderState × Bytes :=
  pieces.foldl (parsePiece evcon) (.moreDataExpected, req, [])

/-- How the headers are cut into pieces does not matter, when the limit is not reached while a line
is incomplete. -/
theorem parsePieces_eq {pieces : List Bytes} (h : ∀ pre, pre <+: pieces.flatten →
      HeaderParser.Fits evcon ((headerMachine evcon).settle (req, none) pre)) :
    parsePieces evcon req pieces =
      HeaderParser.result ((headerMachine evcon).settle (req, none) pieces.flatten) := by
  induction pieces using List.reverseRecOn with
  | nil => rfl
  | append_singleton pieces piece ih =>
    have hflat : (pieces ++ [piece]).flatten = pieces.flatten ++ piece := by simp
    have hbefore := ih fun pre hpre => h pre (hpre.trans (by simp))
    have hafter := h _ (List.prefix_refl _)
    rw [hflat, Consumer.settle_append] at hafter
    have hne := headerMachine_settle_ne evcon req pieces.flatten
    have hunfold : parsePieces evcon req (pieces ++ [piece]) =
        parsePiece evcon (parsePieces evcon req pieces) piece := by
      simp [parsePieces]
    rw [hunfold, hbefore, hflat, Consumer.settle_append]
    generalize (headerMachine evcon).settle (req, none) pieces.flatten = r at hafter hne
    obtain ⟨⟨req', _ | status⟩, rest⟩ := r
    · exact evhttpParseHeaders_eq hafter
    · rw [Consumer.settle_of_none (headerMachine_ended req' status _)]
      cases status <;> first | rfl | exact absurd rfl hne

end Libevent
