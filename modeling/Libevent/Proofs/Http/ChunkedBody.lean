import Libevent.Proofs.Http.Chunked
import Libevent.Proofs.Http.RoundTrip

/-!
# `Libevent.Proofs.Http.ChunkedBody`: chunked messages in pieces

A chunked message arrives in pieces, with one call of `evhttp_read_body` or `evhttp_read_trailer`
after each of them. The chunk decoder and the header parser run one after the other, in the same
call when the line of the last chunk arrives. `receiveAll_chunked` says which state the message is
in after any part of the stream, and `chunked_body_exact` what the user gets.
-/

namespace Libevent

open Lib

variable {evcon : EvhttpConnection} {req : EvhttpRequest} {msg : Message} {line : Bytes}

/-! ### Trailers -/

/-- A line of a trailer: a header field, or a line that continues the one before it. -/
structure TrailerLine (line : Bytes) : Prop where
  cr : CR ∉ line
  lf : LF ∉ line
  nul : NUL ∉ line
  kind : (∃ b ∈ line.head?, isLws b = true) ∨ COLON ∈ line

theorem TrailerLine.isLine (h : TrailerLine line) : IsLine line := by
  refine ⟨?_, h.lf, h.nul⟩
  rintro rfl
  rcases h.kind with ⟨b, hb, -⟩ | hcolon
  · cases hb
  · cases hcolon

/-- A header field is added to the list. -/
theorem TrailerLine.parse_field (h : TrailerLine line) (hfield : Stops isLws line)
    (headers : List Evkeyval) :
    ∃ header, evhttpParseHeaderLine headers line = some (headers ++ [header]) := by
  have hcolon : COLON ∈ line := by
    rcases h.kind with ⟨b, hb, hlws⟩ | hcolon
    · rw [hfield b hb] at hlws
      cases hlws
    · exact hcolon
  obtain ⟨key, value, rfl, hkey⟩ := List.eq_append_cons_of_mem hcolon
  have hstops : Stops isLws key := by
    cases key with
    | nil => exact stops_nil
    | cons b key => exact hfield
  have hpart : evutilRtrimLws (value.dropWhile (· = SP)) <:+: value :=
    (List.rdropWhile_prefix isLws _).isInfix.trans (List.dropWhile_suffix _).isInfix
  have hvalid : evhttpHeaderIsValidValue (evutilRtrimLws (value.dropWhile (· = SP))) = true := by
    rw [evhttpHeaderIsValidValue_iff]
    refine EolFollowed.of_not_isEol fun b hb => ?_
    have hmem : b ∈ key ++ COLON :: value := by simp [hpart.subset hb]
    simp [isEol, ne_of_mem_of_not_mem hmem h.cr, ne_of_mem_of_not_mem hmem h.lf]
  have hcr : CR ∉ key := fun hmem => h.cr (by simp [hmem])
  have hlf : LF ∉ key := fun hmem => h.lf (by simp [hmem])
  rw [evhttpParseHeaderLine_field hkey hstops]
  exact ⟨⟨key, evutilRtrimLws (value.dropWhile (· = SP))⟩,
    by simp [evhttpAddHeader, hcr, hlf, hvalid]⟩

/-- The lines of a trailer are all accepted, when the first of them is a header field. -/
theorem foldlM_trailer {lines : List Bytes} (hlines : ∀ line ∈ lines, TrailerLine line)
    {headers : List Evkeyval}
    (hfirst : headers ≠ [] ∨ ∀ line ∈ lines.head?, Stops isLws line) :
    ∃ headers', lines.foldlM evhttpParseHeaderLine headers = some headers' := by
  induction lines generalizing headers with
  | nil => exact ⟨headers, rfl⟩
  | cons line lines ih =>
    have hline := hlines line List.mem_cons_self
    have htail : ∀ l ∈ lines, TrailerLine l := fun l hl => hlines l (List.mem_cons_of_mem line hl)
    rw [List.foldlM_cons]
    by_cases hfield : Stops isLws line
    · obtain ⟨header, hparse⟩ := hline.parse_field hfield headers
      rw [hparse]
      exact ih htail (.inl (by simp))
    -- a continuation line needs a header before it
    have hne : headers ≠ [] := hfirst.resolve_right fun h => hfield (h line rfl)
    obtain ⟨b, l, rfl⟩ := List.exists_cons_of_ne_nil hline.isLine.ne_nil
    have hb : isLws b = true := by simpa using hfield
    obtain ⟨headers1, hparse, hlen⟩ := evhttpParseHeaderLine_fold hne hb l
    rw [hparse]
    refine ih htail (.inl ?_)
    rw [← List.length_pos_iff, hlen]
    exact List.length_pos_iff.mpr hne

/-! ### Single calls -/

/-- How the header parser has ended: at the blank line, or it waits within the limit. -/
def HeaderParser.Good (evcon : EvhttpConnection) (r : HeaderParser × Bytes) : Prop :=
  r.1.2 = some .allDataRead ∨
    (r.1.2 = none ∧ Within (some evcon) (r.1.1.headersSize + r.2.length))

/-- `evhttp_read_trailer` is the header parser. -/
theorem evhttpReadTrailer_eq {h : HeaderParser × Bytes}
    (hsettle : (headerMachine (some evcon)).settle (msg.req.toHeaderState, none) msg.input = h)
    (hgood : HeaderParser.Good evcon h) :
    evhttpReadTrailer evcon msg =
      { msg with
        req := { msg.req with toHeaderState := h.1.1 }
        input := h.2
        state := if h.1.2 = none then msg.state else .completed } := by
  subst hsettle
  unfold evhttpReadTrailer
  rw [evhttpParseHeaders_eq fun hnone => (hgood.resolve_left (by simp [hnone])).2]
  generalize (headerMachine (some evcon)).settle (msg.req.toHeaderState, none) msg.input = r
    at hgood
  obtain ⟨⟨headers, status⟩, left⟩ := r
  rcases hgood with hstatus | ⟨hstatus, -⟩
  · obtain rfl : status = some .allDataRead := hstatus
    rfl
  · obtain rfl : status = none := hstatus
    rfl

section
variable (hchunked : msg.req.chunked = true) (hinv : ChunkedInv evcon msg.req)
  (hlen : msg.input.length ≤ EV_SSIZE_MAX) {req' : EvhttpRequest}
include hchunked hinv hlen

/-- `evhttp_read_body` while the decoder waits for more. -/
theorem evhttpReadBody_wait {buf : Bytes}
    (hsettle : (chunkMachine evcon).settle (msg.req, none) msg.input = ((req', none), buf)) :
    evhttpReadBody evcon msg = { msg with req := req', input := buf } := by
  have hturned := chunkMachine_settled hinv msg.input
  rw [hsettle] at hturned
  have h : ChunkedInv evcon req' := hturned.inv hinv rfl
  have hreq : req'.chunked = true := hturned.chunked.trans hchunked
  have hnonzero : req'.ntoread ≠ 0 := by
    rcases h.sane with hneg | ⟨hpos, -⟩ <;> omega
  have hshort : evhttpBodyTooLong evcon req' = false := by
    simp [evhttpBodyTooLong, hreq, h.bodySize]
  rw [evhttpReadBody, if_pos hchunked, evhttpHandleChunkedRead_eq hinv hlen, hsettle]
  simp only [evhttpReadBodyMoved, hshort]
  cases hcb : req'.chunkCb with
  | none => simp [evhttpBodyDone, hnonzero]
  | some cb => simp [evhttpBodyDone, hnonzero, h.drained (by simp [hcb])]

/-- `evhttp_read_body` when the line of the last chunk has arrived. -/
theorem evhttpReadBody_last {left : Bytes} (hsettle : (chunkMachine evcon).settle (msg.req,
      none) msg.input = ((req', some .allDataRead), left)) :
    evhttpReadBody evcon msg =
      evhttpReadTrailer evcon { msg with
        req := req', input := left, state := .readingTrailer } := by
  rw [evhttpReadBody, if_pos hchunked, evhttpHandleChunkedRead_eq hinv hlen, hsettle]
  rfl

end

/-! ### Whole runs -/

/-- A chunked message: chunks, the last chunk and a trailer, within the limits of the connection. -/
structure ChunkedMessage (evcon : EvhttpConnection) (req : EvhttpRequest) (chunks : List Chunk)
    (last : Bytes) (lines : List Bytes) : Prop where
  chunked : req.chunked = true
  fresh : req.Fresh
  valid : ∀ chunk ∈ chunks, chunk.Valid
  last : LastChunk last
  trailer : ∀ line ∈ lines, TrailerLine line
  /-- The first line of the trailer does not continue another one. -/
  first : ∀ line ∈ lines.head?, Stops isLws line
  bodyFits : (chunks.map Chunk.data).flatten.length ≤ evcon.maxBodySize
  headersFit : req.headersSize + linesLength lines + 1 ≤ evcon.maxHeadersSize

/-- The bytes of the message. -/
def messageText (chunks : List Chunk) (last : Bytes) (lines : List Bytes) :
    Bytes :=
  chunksText chunks last ++ linesText lines

/-- The message after a part `pre` of the stream: the decoder waits, or it has ended and the trailer
is read. -/
inductive Arrived (evcon : EvhttpConnection) (req : EvhttpRequest) (chunks : List Chunk)
    (last : Bytes) (pre : Bytes) : Message → Prop where
  | decoding {req' : EvhttpRequest} {buf : Bytes} (hnot : ¬ chunksText chunks last <+: pre)
      (hsettle : (chunkMachine evcon).settle (req, none) pre = ((req', none), buf)) :
      Arrived evcon req chunks last pre { req := req', input := buf }
  | trailer {y : Bytes} {h : HeaderParser × Bytes} (hpre : pre = chunksText chunks last ++ y)
      (hsettle : (headerMachine (some evcon)).settle (req.toHeaderState, none) y = h) :
      Arrived evcon req chunks last pre
        { req := { req.endChunks (chunks.map Chunk.data) with toHeaderState := h.1.1 }
          state := if h.1.2 = none then .readingTrailer else .completed
          input := h.2 }

section Run

variable {chunks : List Chunk} {last rest : Bytes} {lines : List Bytes}

section
variable (h : ChunkedMessage evcon req chunks last lines) {y : Bytes}
include h

/-- What the header parser does with a part of the trailer. -/
theorem ChunkedMessage.parser (hy : y <+: linesText lines ++ rest) :
    let r := (headerMachine (some evcon)).settle (req.toHeaderState, none) y
    HeaderParser.Good evcon r ∧ (r.1.2 ≠ none ↔ linesText lines <+: y) ∧
      (r.1.2 ≠ none → y = linesText lines ++ r.2) := by
  obtain ⟨headers', hparse⟩ := foldlM_trailer h.trailer
    (.inr h.first : req.inputHeaders ≠ [] ∨ _)
  have hlimit : Within (some evcon) (req.headersSize + linesLength lines + 1) := by
    rintro c ⟨⟩
    exact h.headersFit
  rcases headerMachine_lines (fun line hl => (h.trailer line hl).isLine) req.toHeaderState hparse
    hlimit hy with ⟨x, rfl, hr⟩ | ⟨hlen, req', buffer, hr, hfits⟩
  · rw [hr]
    exact ⟨.inl rfl, ⟨fun _ => List.prefix_append _ x, fun _ => nofun⟩, fun _ => rfl⟩
  rw [hr]
  refine ⟨.inr ⟨rfl, hfits⟩, ⟨fun hne => absurd rfl hne, fun hall => ?_⟩, fun hne => absurd rfl hne⟩
  exact absurd hall.length_le (by omega)

/-- The chunk decoder has ended, and the trailer is read. -/
theorem readTrailer_arrived (hy : y <+: linesText lines ++ rest)
    (hmsg : (headerMachine (some evcon)).settle (msg.req.toHeaderState, none) msg.input =
      (headerMachine (some evcon)).settle (req.toHeaderState, none) y)
    (hreq : ∀ headers, { msg.req with toHeaderState := headers } =
      { req.endChunks (chunks.map Chunk.data) with toHeaderState := headers })
    (hstate : msg.state = .readingTrailer) :
    Arrived evcon req chunks last (chunksText chunks last ++ y) (evhttpReadTrailer evcon msg) := by
  rw [evhttpReadTrailer_eq hmsg (h.parser hy).1]
  simp only [hreq, hstate]
  exact .trailer rfl rfl

/-- One more piece. -/
theorem receive_chunked {pre piece : Bytes}
    (hpre : pre ++ piece <+: messageText chunks last lines ++ rest)
    (hfit : (messageText chunks last lines ++ rest).length ≤ EV_SSIZE_MAX)
    (hmax : (chunks.map Chunk.data).flatten.length ≤ EV_INT64_MAX)
    (hmsg : Arrived evcon req chunks last pre msg) :
    Arrived evcon req chunks last (pre ++ piece) (evhttpReceive evcon msg piece) := by
  have hlen := hpre.length_le.trans hfit
  rw [messageText, List.append_assoc] at hpre
  cases hmsg with
  | @decoding req' buf hnot hsettle =>
    have hturned := chunkMachine_settled (h.fresh.inv evcon) pre
    have hle := @Consumer.length_settle_le _ _ (chunkMachine evcon) (req, none) pre
    rw [hsettle] at hturned hle
    dsimp only at hle
    have hinv : ChunkedInv evcon req' := hturned.inv (h.fresh.inv evcon) rfl
    have hchunked : req'.chunked = true := hturned.chunked.trans h.chunked
    have hbuf : (buf ++ piece).length ≤ EV_SSIZE_MAX := by
      rw [List.length_append] at hlen ⊢
      omega
    have hresume := Consumer.settle_resume hsettle piece
    rcases settle_chunksText h.valid h.last (h.fresh.expects hmax h.bodyFits) hpre with
      ⟨y, hy, hended⟩ | ⟨hwait, req'', buf', hwaits⟩
    · have hread : evhttpReceive evcon { req := req', input := buf } piece = _ :=
        evhttpReadBody_last hchunked hinv hbuf (hresume.trans hended)
      rw [hy] at hpre ⊢
      rw [hread]
      refine readTrailer_arrived h ((List.prefix_append_right_inj _).mp hpre) ?_ (fun _ => rfl) rfl
      have hheaders : (req.endChunks (chunks.map Chunk.data)).toHeaderState = req.toHeaderState :=
        (addChunks_added req (chunks.map Chunk.data)).headers
      rw [hheaders]
    · have hread : evhttpReceive evcon { req := req', input := buf } piece = _ :=
        evhttpReadBody_wait hchunked hinv hbuf (hresume.trans hwaits)
      rw [hread]
      exact .decoding hwait hwaits
  | @trailer y r hy hsettle =>
    subst hy
    rw [List.append_assoc] at hpre ⊢
    obtain ⟨⟨headers, _ | status⟩, left⟩ := r
    · have hresume := Consumer.settle_resume hsettle piece
      exact readTrailer_arrived h ((List.prefix_append_right_inj _).mp hpre) hresume (fun _ => rfl)
        rfl
    -- the message is complete
    refine .trailer (h := ((headers, some status), left ++ piece)) rfl ?_
    rw [Consumer.settle_append, hsettle]
    exact Consumer.settle_of_none (headerMachine_ended headers status _)

/-- The state of the message after any part of the stream. -/
theorem receiveAll_chunked {pieces : List Bytes}
    (hpre : pieces.flatten <+: messageText chunks last lines ++ rest)
    (hfit : (messageText chunks last lines ++ rest).length ≤ EV_SSIZE_MAX)
    (hmax : (chunks.map Chunk.data).flatten.length ≤ EV_INT64_MAX) :
    Arrived evcon req chunks last pieces.flatten
      (evhttpReceiveAll evcon { req := req } pieces) := by
  induction pieces using List.reverseRecOn with
  | nil =>
    have hwait : (chunkMachine evcon).move (req, none) [] = none := by
      rw [chunkMachine_move (.inl h.fresh.ntoread), chunkedReadTurn_nil (.inl h.fresh.ntoread)]
      rfl
    refine .decoding ?_ (Consumer.settle_of_none hwait)
    intro hprefix
    have := List.prefix_nil.mp hprefix
    simp [chunksText, CRLF] at this
  | append_singleton pieces piece ih =>
    rw [List.flatten_append, List.flatten_singleton] at hpre ⊢
    rw [receiveAll_append]
    exact receive_chunked h hpre hfit hmax (ih ((List.prefix_append _ piece).trans hpre))

end

theorem length_data_le (chunks : List Chunk) (last : Bytes) :
    (chunks.map Chunk.data).flatten.length ≤ (chunksText chunks last).length := by
  induction chunks with
  | nil => simp
  | cons chunk chunks ih =>
    simp only [chunksText, List.map_cons, List.flatten_cons, List.flatMap_cons,
      List.length_append, Chunk.text] at ih ⊢
    omega

/-- When the message is complete, the user gets the data of the chunks. -/
theorem delivered_endChunks (h : req.Fresh) (data : List Bytes) (headers : HeaderState)
    (input : Bytes) :
    Message.delivered
      { req := { req.endChunks data with toHeaderState := headers }
        state := .completed
        input := input } = data.flatten := by
  have hadded := addChunks_added req data
  have hbody := hadded.body
  rw [h.body_eq, EvhttpRequest.body] at hbody
  cases hreq : req.chunkCb with
  | none =>
    rw [hadded.seen hreq, h.seen] at hbody
    simpa [Message.delivered, EvhttpRequest.endChunks, hadded.chunkCb, hreq] using hbody
  | some cb =>
    rw [hadded.drained h.inputBuffer (by simp [hreq])] at hbody
    simpa [Message.delivered, EvhttpRequest.endChunks, hadded.chunkCb, hreq] using hbody

end Run

/-- A chunked message with any bytes behind it arrives in pieces. It is complete exactly when the
blank line behind the trailer has arrived. Then the user gets exactly the data of the chunks, and
the bytes behind the message are left in the input buffer. Before, the message neither fails nor
ends. -/
theorem chunked_body_exact (evcon : EvhttpConnection) (req : EvhttpRequest) (chunks : List Chunk)
    (last : Bytes) (lines : List Bytes)
    (h : ChunkedMessage evcon req chunks last lines) (rest : Bytes)
    (hfit : (messageText chunks last lines ++ rest).length ≤ EV_SSIZE_MAX)
    (pieces : List Bytes)
    (hpieces : pieces.flatten <+: messageText chunks last lines ++ rest) :
    let msg := evhttpReceiveAll evcon { req := req } pieces
    (msg.state = .completed ↔ messageText chunks last lines <+: pieces.flatten) ∧
      (msg.state ≠ .completed → msg.state = .readingBody ∨ msg.state = .readingTrailer) ∧
      (msg.state = .completed → msg.delivered = (chunks.map Chunk.data).flatten ∧
        pieces.flatten = messageText chunks last lines ++ msg.input) := by
  have hmax : (chunks.map Chunk.data).flatten.length ≤ EV_INT64_MAX := by
    have hle := length_data_le chunks last
    simp only [messageText, List.length_append, EV_SSIZE_MAX] at hfit
    simp only [EV_INT64_MAX]
    omega
  generalize hmsg : evhttpReceiveAll evcon { req := req } pieces = msg
  have harrived := receiveAll_chunked h hpieces hfit hmax
  rw [hmsg] at harrived
  cases harrived with
  | decoding hnot =>
    refine ⟨⟨by rintro ⟨⟩, fun hall => ?_⟩, fun _ => .inl rfl, by rintro ⟨⟩⟩
    exact absurd ((List.prefix_append _ _).trans hall) hnot
  | @trailer y r hflat hsettle =>
    rw [hflat] at hpieces ⊢
    rw [messageText, List.append_assoc] at hpieces
    obtain ⟨-, hends, hleft⟩ := h.parser ((List.prefix_append_right_inj _).mp hpieces)
    rw [hsettle] at hends hleft
    rw [messageText, List.prefix_append_right_inj, ← hends]
    by_cases hnone : r.1.2 = none
    · rw [if_pos hnone]
      exact ⟨⟨by rintro ⟨⟩, fun hne => absurd hnone hne⟩, fun _ => .inr rfl, by rintro ⟨⟩⟩
    rw [if_neg hnone]
    refine ⟨⟨fun _ => hnone, fun _ => rfl⟩, fun hno => absurd rfl hno,
      fun _ => ⟨delivered_endChunks h.fresh _ _ _, ?_⟩⟩
    rw [List.append_assoc, ← hleft hnone]

/-- Two chunks and a trailer, in three pieces that cut a size line and the line end behind the data.
-/
theorem chunked_body_three_pieces :
    let chunks : List Chunk := [⟨ascii "3", ascii "abc"⟩, ⟨ascii "02", ascii "de"⟩]
    let lines := [ascii "X: y"]
    let pieces := [ascii "3\r\nabc\r", ascii "\n0", ascii "2\r\nde\r\n0\r\nX: y\r\n\r\nGET"]
    let req : EvhttpRequest := { chunked := true }
    let msg := evhttpReceiveAll {} { req := req } pieces
    (msg.state = .completed ↔ messageText chunks (ascii "0") lines <+: pieces.flatten) ∧
      (msg.state ≠ .completed → msg.state = .readingBody ∨ msg.state = .readingTrailer) ∧
      (msg.state = .completed → msg.delivered = (chunks.map Chunk.data).flatten ∧
        pieces.flatten = messageText chunks (ascii "0") lines ++ msg.input) := by
  intro chunks lines pieces req
  have hchunks : ∀ chunk ∈ chunks, chunk.Valid := by
    simp only [chunks, List.forall_mem_cons, List.not_mem_nil, false_imp_iff, implies_true,
      and_true]
    exact ⟨⟨List.all_eq_true.mp (by decide), by decide, by decide, by decide⟩,
      ⟨List.all_eq_true.mp (by decide), by decide, by decide, by decide⟩⟩
  have hlines : ∀ line ∈ lines, TrailerLine line := by
    simp only [lines, List.forall_mem_cons, List.not_mem_nil, false_imp_iff, implies_true,
      and_true]
    exact ⟨by decide, by decide, by decide, .inr (by decide)⟩
  refine chunked_body_exact {} req chunks (ascii "0") lines
    ⟨rfl, ?_, hchunks, lastChunk_zero, hlines, ?_, ?_,
    ?_⟩ (ascii "GET") (by decide) pieces ⟨[], by decide⟩
  · exact ⟨by decide, rfl, rfl, rfl, nofun⟩
  · rintro line ⟨⟩
    exact stops_cons.mpr rfl
  · decide
  · decide

end Libevent
