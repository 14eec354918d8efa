import Libevent.Proofs.Http.Chunked

/-!
# `Libevent.Proofs.Http.LengthBody`: messages with a `Content-Length`

A message with a `Content-Length` arrives in pieces, with one call of `evhttp_read_body` after each
of them. Without a `chunk_cb` the body stays in the input buffer until it is complete; with one it
is moved piece by piece. `contentLength_framing` says what the user gets in both cases, and that
nothing beyond the limit is delivered.
-/

namespace Libevent

open Lib

variable {evcon : EvhttpConnection} {N : Nat} {msg : Message} {cb : Nat → Bool}

/-- A request whose body of `N` bytes is about to be read. -/
structure EvhttpRequest.Awaits (req : EvhttpRequest) (N : Nat) : Prop where
  chunked : req.chunked = false
  ntoread : req.ntoread = N
  bodySize : req.bodySize = 0
  inputBuffer : req.inputBuffer = []
  seen : req.seen = []

/-! ### One call -/

/-- The bytes that a call of `evhttp_read_body` moves to `input_buffer` when `n` are missing. -/
def movedBytes (req : EvhttpRequest) (n : Nat) (input : Bytes) : Nat :=
  if req.chunkCb.isSome ∨ n ≤ input.length then min input.length n else 0

/-- The message after the data was moved. -/
def Message.moved (msg : Message) (n k : Nat) : Message :=
  { msg with
    req := { msg.req with
      ntoread := (n - k : Nat)
      bodySize := msg.req.bodySize + k
      inputBuffer := msg.req.inputBuffer ++ msg.input.take k }
    input := msg.input.drop k }

theorem movedBytes_le (req : EvhttpRequest) (n : Nat) (input : Bytes) :
    movedBytes req n input ≤ n ∧ movedBytes req n input ≤ input.length := by
  unfold movedBytes
  split <;> omega

theorem moved_zero (msg : Message) {n : Nat} (hn : msg.req.ntoread = n) : msg.moved n 0 = msg := by
  obtain ⟨⟨headers, ntoread, bodySize, chunked, inputBuffer, chunkCb, seen⟩, state, input⟩ := msg
  obtain rfl : ntoread = n := hn
  simp [Message.moved]

/-- `evhttp_read_body` moves the data and then looks at the limit. -/
theorem evhttpReadBody_length {n : Nat} (hchunked : msg.req.chunked = false)
    (hn : msg.req.ntoread = n) (hmax : n ≤ EV_INT64_MAX) :
    evhttpReadBody evcon msg =
      evhttpReadBodyMoved evcon (msg.moved n (movedBytes msg.req n msg.input)) := by
  have hneg : ¬ (n : Int) < 0 := by omega
  rw [evhttpReadBody]
  dsimp only
  rw [if_neg (by simp [hchunked]), hn, if_neg hneg, toSize_natCast hmax, movedBytes]
  by_cases hmove : msg.req.chunkCb.isSome ∨ n ≤ msg.input.length
  · have hsub : (n : Int) - (min msg.input.length n : Nat) =
        ((n - min msg.input.length n : Nat) : Int) := by omega
    rw [if_pos hmove, if_pos hmove, hsub]
    rfl
  · rw [if_neg hmove, if_neg hmove, moved_zero msg hn]

/-- A piece arrives while the body is read. -/
theorem evhttpReceive_length {n : Nat} (hstate : msg.state = .readingBody)
    (hchunked : msg.req.chunked = false) (hn : msg.req.ntoread = n) (hmax : n ≤ EV_INT64_MAX)
    (piece : Bytes) :
    evhttpReceive evcon msg piece =
      evhttpReadBodyMoved evcon (Message.moved { msg with input := msg.input ++ piece } n
        (movedBytes msg.req n (msg.input ++ piece))) := by
  have hread : evhttpReceive evcon msg piece =
      evhttpReadBody evcon { msg with input := msg.input ++ piece } := by
    simp [evhttpReceive, evhttpReadCb, hstate]
  rw [hread]
  exact evhttpReadBody_length hchunked hn hmax

/-- A piece arrives after the message has ended. -/
theorem evhttpReceive_ended (hbody : msg.state ≠ .readingBody)
    (htrailer : msg.state ≠ .readingTrailer) (piece : Bytes) :
    evhttpReceive evcon msg piece = { msg with input := msg.input ++ piece } := by
  unfold evhttpReceive evhttpReadCb
  cases hstate : msg.state with
  | readingBody => exact absurd hstate hbody
  | readingTrailer => exact absurd hstate htrailer
  | completed | failed | canceled => rfl

/-- The limit is looked at for what was read and for what is missing. -/
theorem bodyTooLong_iff {req : EvhttpRequest} {n : Nat} (hchunked : req.chunked = false)
    (hn : req.ntoread = n) (hmax : n ≤ EV_INT64_MAX) :
    evhttpBodyTooLong evcon req = true ↔
      evcon.maxBodySize < req.bodySize ∨ evcon.maxBodySize < n := by
  simp [evhttpBodyTooLong, hchunked, hn, toSize_natCast hmax]

theorem moved_tooLong_iff (msg : Message) {n k : Nat} (hchunked : msg.req.chunked = false)
    (hmax : n ≤ EV_INT64_MAX) :
    evhttpBodyTooLong evcon (msg.moved n k).req = true ↔
      evcon.maxBodySize < msg.req.bodySize + k ∨ evcon.maxBodySize < n - k :=
  @bodyTooLong_iff evcon (msg.moved n k).req (n - k) hchunked rfl (by omega)

/-! ### Bodies within the limit -/

/-- The body of `N` bytes is still being read. Without a `chunk_cb` all of it is in the input
buffer, and with one all of it was delivered. -/
structure LengthReading (req : EvhttpRequest) (N : Nat) (pre : Bytes) (msg : Message) :
    Prop where
  state : msg.state = .readingBody
  length : pre.length < N
  chunked : msg.req.chunked = false
  chunkCb : msg.req.chunkCb = req.chunkCb
  inputBuffer : msg.req.inputBuffer = []
  ntoread : msg.req.ntoread = (N - msg.req.seen.flatten.length : Nat)
  bodySize : msg.req.bodySize = msg.req.seen.flatten.length
  split : msg.req.seen.flatten ++ msg.input = pre
  whole : if req.chunkCb.isSome then msg.input = [] else msg.req.seen = []

/-- The message after a part `pre` of the stream, when the body of `N` bytes is within the limit:
the request was canceled by `chunk_cb`, or the body is complete, or it is still being read. -/
inductive LengthRead (req : EvhttpRequest) (N : Nat) (pre : Bytes) (msg : Message) : Prop where
  | canceled (state : msg.state = .canceled) (cancels : ¬ req.Keeps)
      (delivered : msg.delivered <+: pre.take N)
  | completed (state : msg.state = .completed) (length : N ≤ pre.length)
      (delivered : msg.delivered = pre.take N) (input : msg.input = pre.drop N)
  | reading (h : LengthReading req N pre msg)

variable {req : EvhttpRequest} {pre : Bytes} {msg : Message}

/-- The last tests of `evhttp_read_body`, without a `chunk_cb`. -/
theorem readBodyMoved_none (msg : Message) (hshort : evhttpBodyTooLong evcon msg.req = false)
    (hcb : msg.req.chunkCb = none) :
    evhttpReadBodyMoved evcon msg =
      { msg with state := if msg.req.ntoread = 0 then .completed else msg.state } := by
  simp only [evhttpReadBodyMoved, hshort, hcb, evhttpBodyDone, if_false, Bool.false_eq_true]
  split <;> rfl

section
variable (hshort : evhttpBodyTooLong evcon msg.req = false) (hcb : msg.req.chunkCb = some cb)
include hshort hcb

/-- The last tests of `evhttp_read_body`, with a `chunk_cb`. -/
theorem readBodyMoved_some (hne : msg.req.inputBuffer ≠ []) : evhttpReadBodyMoved evcon msg =
      { msg with
        req := { msg.req with
          seen := msg.req.seen ++ [msg.req.inputBuffer]
          inputBuffer := [] }
        state :=
          if cb msg.req.seen.length = true then .canceled
          else if msg.req.ntoread = 0 then .completed else msg.state } := by
  simp only [evhttpReadBodyMoved, hshort, hcb, hne, EvhttpRequest.callChunkCb, evhttpBodyDone,
    if_false, Bool.false_eq_true]
  split
  · rfl
  · split <;> rfl

/-- With a `chunk_cb`, nothing happens when nothing was moved. -/
theorem readBodyMoved_kept (hnil : msg.req.inputBuffer = []) (hmissing : msg.req.ntoread ≠ 0) :
    evhttpReadBodyMoved evcon msg = msg := by
  simp [evhttpReadBodyMoved, hshort, hcb, hnil, evhttpBodyDone, hmissing]

end

section Within

variable (h : LengthReading req N pre msg) (hN : N ≤ EV_INT64_MAX) (hmax : N ≤ evcon.maxBodySize)
include h hN hmax

/-- One more piece, without a `chunk_cb`. -/
theorem LengthReading.receive_none (hreq : req.chunkCb = none) (piece : Bytes) :
    LengthRead req N (pre ++ piece) (evhttpReceive evcon msg piece) := by
  have hseen : msg.req.seen = [] := by simpa [hreq] using h.whole
  have hcb : msg.req.chunkCb = none := h.chunkCb.trans hreq
  obtain ⟨hstate, -, hchunked, -, hbuffer, hntoread, hsize, rfl, -⟩ := h
  simp only [hseen, List.flatten_nil, List.nil_append, List.length_nil, Nat.sub_zero]
    at hntoread hsize ⊢
  rw [evhttpReceive_length hstate hchunked hntoread hN]
  by_cases harrived : N ≤ (msg.input ++ piece).length
  · have hmoved : movedBytes msg.req N (msg.input ++ piece) = N := by
      rw [movedBytes, if_pos (.inr harrived), Nat.min_eq_right harrived]
    have hshort : evhttpBodyTooLong evcon
        (Message.moved { msg with input := msg.input ++ piece } N N).req = false := by
      rw [Bool.eq_false_iff, ne_eq,
        moved_tooLong_iff { msg with input := msg.input ++ piece } hchunked hN]
      dsimp only
      omega
    rw [hmoved, readBodyMoved_none _ hshort hcb]
    refine .completed (by simp [Message.moved]) harrived ?_ rfl
    simp [Message.delivered, Message.moved, hcb, hbuffer]
  · have hmoved : movedBytes msg.req N (msg.input ++ piece) = 0 := by
      rw [movedBytes, if_neg (by simp [hcb]; simpa using harrived)]
    have hshort : evhttpBodyTooLong evcon msg.req = false := by
      rw [Bool.eq_false_iff, ne_eq, bodyTooLong_iff hchunked hntoread hN]
      omega
    have hzero : N ≠ 0 := by
      rintro rfl
      exact harrived (Nat.zero_le _)
    have hsame := moved_zero { msg with input := msg.input ++ piece } hntoread
    rw [hmoved, hsame, readBodyMoved_none { msg with input := msg.input ++ piece } hshort hcb]
    refine .reading ⟨?_, by omega, hchunked, by simp [hcb, hreq], hbuffer, ?_, ?_, ?_, ?_⟩
    · simp [hntoread, hzero, hstate]
    · simp [hntoread, hseen]
    · simp [hsize, hseen]
    · simp [hseen]
    · simp [hreq, hseen]

/-- One more piece, with a `chunk_cb`. -/
theorem LengthReading.receive_some (hreq : req.chunkCb = some cb)
    (piece : Bytes) : LengthRead req N (pre ++ piece) (evhttpReceive evcon msg piece) := by
  have hinput : msg.input = [] := by simpa [hreq] using h.whole
  have hcb : msg.req.chunkCb = some cb := h.chunkCb.trans hreq
  have hpre : msg.req.seen.flatten = pre := by
    have hsplit := h.split
    rwa [hinput, List.append_nil] at hsplit
  obtain ⟨hstate, hlength, hchunked, -, hbuffer, hntoread, hsize, -, -⟩ := h
  rw [hpre] at hntoread hsize
  rw [evhttpReceive_length hstate hchunked hntoread (by omega), hinput, List.nil_append]
  have hmoved : movedBytes msg.req (N - pre.length) piece = min piece.length (N - pre.length) := by
    simp [movedBytes, hcb]
  rw [hmoved]
  generalize hk : min piece.length (N - pre.length) = k
  have hshort : evhttpBodyTooLong evcon
      (Message.moved { msg with input := piece } (N - pre.length) k).req = false := by
    rw [Bool.eq_false_iff, ne_eq, moved_tooLong_iff { msg with input := piece } hchunked (by omega)]
    dsimp only
    omega
  by_cases hnil : piece = []
  · -- nothing arrived
    subst hnil
    obtain rfl : k = 0 := by simpa using hk.symm
    have hsame := moved_zero { msg with input := [] } hntoread
    have hzero : N - pre.length ≠ 0 := by omega
    rw [hsame] at hshort ⊢
    rw [readBodyMoved_kept hshort hcb hbuffer (by simpa [hntoread] using hzero), List.append_nil]
    refine .reading ⟨hstate, hlength, hchunked, hcb.trans hreq.symm, hbuffer, ?_, ?_, ?_, ?_⟩
    · rw [hntoread, hpre]
    · rw [hsize, hpre]
    · simp [hpre]
    · simp [hreq]
  · have hpos : 0 < piece.length := List.length_pos_iff.mpr hnil
    have htake : piece.take k ≠ [] := by
      rw [← List.length_pos_iff, List.length_take]
      omega
    rw [readBodyMoved_some hshort hcb (by simpa [Message.moved, hbuffer] using htake)]
    have hflat : (msg.req.seen ++ [msg.req.inputBuffer ++ piece.take k]).flatten =
        pre ++ piece.take k := by
      simp [hpre, hbuffer]
    by_cases hcancel : cb msg.req.seen.length = true
    · refine .canceled ?_ ?_ ?_
      · simp [Message.moved, hcancel]
      · intro hkeeps
        rw [hkeeps cb hreq] at hcancel
        cases hcancel
      · simp only [Message.delivered, Message.moved, hcb, hflat]
        rw [List.take_append, List.take_of_length_le hlength.le]
        refine (List.prefix_append_right_inj _).mpr ?_
        exact List.take_prefix_take_left (by omega)
    by_cases harrived : N - pre.length ≤ piece.length
    · obtain rfl : k = N - pre.length := by omega
      refine .completed ?_ (by rw [List.length_append]; omega) ?_ ?_
      · simp [Message.moved, hcancel]
      · simp only [Message.delivered, Message.moved, hcb, hflat]
        rw [List.take_append, List.take_of_length_le hlength.le]
      · simp only [Message.moved]
        rw [List.drop_append, List.drop_of_length_le hlength.le, List.nil_append]
    obtain rfl : k = piece.length := by omega
    have hzero : N - pre.length - piece.length ≠ 0 := by omega
    rw [List.take_length] at hflat
    refine .reading ⟨?_, by rw [List.length_append]; omega, hchunked, hcb.trans hreq.symm, rfl,
      ?_, ?_, ?_, ?_⟩
    · simp [Message.moved, hcancel, hzero, hstate]
    · simp only [Message.moved, List.take_length, hflat, List.length_append]
      omega
    · simp only [Message.moved, List.take_length, hflat, List.length_append, hsize]
    · simp only [Message.moved, List.take_length, hflat, List.drop_length, List.append_nil]
    · simp [hreq, Message.moved]

end Within

/-- One more piece. -/
theorem LengthRead.receive (h : LengthRead req N pre msg) (hN : N ≤ EV_INT64_MAX)
    (hmax : N ≤ evcon.maxBodySize) (piece : Bytes) :
    LengthRead req N (pre ++ piece) (evhttpReceive evcon msg piece) := by
  cases h with
  | canceled state cancels delivered =>
    rw [evhttpReceive_ended (by simp [state]) (by simp [state])]
    refine .canceled state cancels (delivered.trans ?_)
    exact (List.prefix_append pre piece).take N
  | completed state length delivered input =>
    rw [evhttpReceive_ended (by simp [state]) (by simp [state])]
    refine .completed state (by rw [List.length_append]; omega) ?_ ?_
    · rw [List.take_append_of_le_length length]
      exact delivered
    · rw [List.drop_append_of_le_length length]
      exact congrArg (· ++ piece) input
  | reading h =>
    cases hreq : req.chunkCb with
    | none => exact h.receive_none hN hmax hreq piece
    | some cb => exact h.receive_some hN hmax hreq piece

/-! ### Bodies beyond the limit -/

/-- A body of `N` bytes beyond the limit, of which `n` are missing: `body_size` and `ntoread` add up
to its length. -/
structure LongReading (evcon : EvhttpConnection) (N n : Nat) (msg : Message) : Prop where
  state : msg.state = .readingBody
  chunked : msg.req.chunked = false
  ntoread : msg.req.ntoread = n
  sum : msg.req.bodySize + n = N
  seen : msg.req.seen.flatten.length ≤ evcon.maxBodySize
  buffer : msg.req.seen.flatten.length + msg.req.inputBuffer.length ≤ msg.req.bodySize

/-- What holds of a message whose body of `N` bytes is beyond the limit. -/
inductive LongRead (evcon : EvhttpConnection) (N : Nat) (msg : Message) : Prop where
  | reading {n : Nat} (h : LongReading evcon N n msg)
  | ended (hbody : msg.state ≠ .readingBody) (htrailer : msg.state ≠ .readingTrailer)
      (hdone : msg.state ≠ .completed) (hseen : msg.req.seen.flatten.length ≤ evcon.maxBodySize)

section Beyond

variable {n : Nat} (h : LongReading evcon N n msg)
include h

theorem LongReading.moved {k : Nat} (hle : k ≤ n) (hlen : k ≤ msg.input.length) :
    LongReading evcon N (n - k) (msg.moved n k) := by
  have hsum := h.sum
  have hbuffer := h.buffer
  refine ⟨h.state, h.chunked, rfl, ?_, h.seen, ?_⟩
  · simp only [Message.moved]
    omega
  · simp only [Message.moved, List.length_append, List.length_take]
    omega

/-- A body that is too long is drained, or the message fails. -/
theorem LongReading.lingeringFail (hN : N ≤ EV_INT64_MAX) :
    LongRead evcon N (evhttpLingeringFail evcon msg) := by
  have hsum := h.sum
  have hbuffer := h.buffer
  unfold evhttpLingeringFail
  split
  · rw [evhttpLingeringClose, h.ntoread, toSize_natCast (by omega)]
    have hsub : (n : Int) - (min msg.input.length n : Nat) =
        ((n - min msg.input.length n : Nat) : Int) := by omega
    rw [hsub]
    split
    · exact .ended nofun nofun nofun h.seen
    refine .reading ⟨h.state, h.chunked, rfl, ?_, h.seen, ?_⟩
    · dsimp only
      omega
    · dsimp only
      omega
  · exact .ended nofun nofun nofun h.seen

/-- The tests after the data was moved. -/
theorem LongReading.readBodyMoved (hN : N ≤ EV_INT64_MAX) (hmax : evcon.maxBodySize < N) :
    LongRead evcon N (evhttpReadBodyMoved evcon msg) := by
  have hsum := h.sum
  have hbuffer := h.buffer
  cases hlong : evhttpBodyTooLong evcon msg.req with
  | true =>
    rw [evhttpReadBodyMoved, hlong]
    exact h.lingeringFail hN
  | false =>
    -- what was read is within the limit, so that something is missing
    have hshort : ¬ (evcon.maxBodySize < msg.req.bodySize ∨ evcon.maxBodySize < n) := by
      rw [← bodyTooLong_iff h.chunked h.ntoread (by omega), hlong]
      simp
    have hzero : n ≠ 0 := by omega
    have hmissing : msg.req.ntoread ≠ 0 := by simpa [h.ntoread] using hzero
    cases hcb : msg.req.chunkCb with
    | none =>
      rw [readBodyMoved_none msg hlong hcb, if_neg hmissing]
      exact .reading h
    | some cb =>
      by_cases hnil : msg.req.inputBuffer = []
      · rw [readBodyMoved_kept hlong hcb hnil hmissing]
        exact .reading h
      rw [readBodyMoved_some hlong hcb hnil]
      have hflat : (msg.req.seen ++ [msg.req.inputBuffer]).flatten.length =
          msg.req.seen.flatten.length + msg.req.inputBuffer.length := by simp
      split
      · refine .ended nofun nofun nofun ?_
        dsimp only
        omega
      refine .reading ⟨h.state, h.chunked, h.ntoread, h.sum, ?_, ?_⟩
      · dsimp only
        omega
      · simp only [List.length_nil]
        omega

end Beyond

/-- One more piece. -/
theorem LongRead.receive (h : LongRead evcon N msg) (hN : N ≤ EV_INT64_MAX)
    (hmax : evcon.maxBodySize < N) (piece : Bytes) :
    LongRead evcon N (evhttpReceive evcon msg piece) := by
  cases h with
  | @reading n h =>
    have hsum := h.sum
    rw [evhttpReceive_length h.state h.chunked h.ntoread (by omega)]
    obtain ⟨hle, hlen⟩ := movedBytes_le msg.req n (msg.input ++ piece)
    have hinput : LongReading evcon N n { msg with input := msg.input ++ piece } := { h with }
    exact (hinput.moved hle hlen).readBodyMoved hN hmax
  | ended hbody htrailer hdone hseen =>
    rw [evhttpReceive_ended hbody htrailer]
    exact .ended hbody htrailer hdone hseen

/-! ### Whole runs -/

theorem receiveAll_length (hreq : req.Awaits N) (hpos : 1 ≤ N) (hN : N ≤ EV_INT64_MAX)
    (hmax : N ≤ evcon.maxBodySize) (pieces : List Bytes) :
    LengthRead req N pieces.flatten (evhttpReceiveAll evcon { req := req } pieces) := by
  induction pieces using List.reverseRecOn with
  | nil =>
    refine .reading ⟨rfl, hpos, hreq.chunked, rfl, hreq.inputBuffer, ?_, ?_, ?_, ?_⟩
    · simp [evhttpReceiveAll, hreq.ntoread, hreq.seen]
    · simp [evhttpReceiveAll, hreq.bodySize, hreq.seen]
    · simp [evhttpReceiveAll, hreq.seen]
    · simp [evhttpReceiveAll, hreq.seen]
  | append_singleton pieces piece ih =>
    rw [receiveAll_append, List.flatten_append, List.flatten_singleton]
    exact ih.receive hN hmax piece

theorem receiveAll_long (hreq : req.Awaits N) (hN : N ≤ EV_INT64_MAX)
    (hmax : evcon.maxBodySize < N) (pieces : List Bytes) :
    LongRead evcon N (evhttpReceiveAll evcon { req := req } pieces) := by
  induction pieces using List.reverseRecOn with
  | nil =>
    refine .reading ⟨rfl, hreq.chunked, hreq.ntoread, ?_, ?_, ?_⟩
    · simp [evhttpReceiveAll, hreq.bodySize]
    · simp [evhttpReceiveAll, hreq.seen]
    · simp [evhttpReceiveAll, hreq.seen, hreq.inputBuffer]
  | append_singleton pieces piece ih =>
    rw [receiveAll_append]
    exact ih.receive hN hmax piece

/-- A message with a `Content-Length` of `N` arrives in pieces, with or without a `chunk_cb`. When
`N` is within the limit: it is complete when `N` bytes have arrived, the user then has exactly
these, and the bytes behind them are left in the input buffer; before, nothing is lost; and only a
`chunk_cb` that cancels the request ends it otherwise. When `N` is beyond the limit, the message is
never complete, and the user never gets more bytes than the limit. -/
theorem contentLength_framing (evcon : EvhttpConnection) (req : EvhttpRequest) (N : Nat)
    (hpos : 1 ≤ N) (hN : N ≤ EV_INT64_MAX) (hreq : req.Awaits N) (pieces : List Bytes) :
    let body := pieces.flatten
    let msg := evhttpReceiveAll evcon { req := req } pieces
    (N ≤ evcon.maxBodySize →
      (N ≤ body.length ∧ msg.state = .completed ∧ msg.delivered = body.take N ∧
        msg.input = body.drop N) ∨
      (body.length < N ∧ msg.state = .readingBody ∧ msg.delivered ++ msg.input = body) ∨
      (¬ req.Keeps ∧ msg.state = .canceled ∧ msg.delivered <+: body.take N)) ∧
    (evcon.maxBodySize < N →
      msg.state ≠ .completed ∧ msg.delivered.length ≤ evcon.maxBodySize) := by
  refine ⟨fun hmax => ?_, fun hmax => ?_⟩
  · cases receiveAll_length hreq hpos hN hmax pieces with
    | canceled state cancels delivered => exact .inr (.inr ⟨cancels, state, delivered⟩)
    | completed state length delivered input => exact .inl ⟨length, state, delivered, input⟩
    | reading h =>
      refine .inr (.inl ⟨h.length, h.state, ?_⟩)
      rw [← h.split]
      congr 1
      rw [Message.delivered, h.chunkCb]
      cases hcb : req.chunkCb with
      | none =>
        have hseen : (evhttpReceiveAll evcon { req := req } pieces).req.seen = [] := by
          simpa [hcb] using h.whole
        simp [h.state, hseen]
      | some cb => rfl
  · have hread : (evhttpReceiveAll evcon { req := req } pieces).state ≠ .completed ∧
        (evhttpReceiveAll evcon { req := req } pieces).req.seen.flatten.length ≤
          evcon.maxBodySize := by
      cases receiveAll_long hreq hN hmax pieces with
      | reading h => exact ⟨by simp [h.state], h.seen⟩
      | ended hbody htrailer hdone hseen => exact ⟨hdone, hseen⟩
    refine ⟨hread.1, ?_⟩
    unfold Message.delivered
    split
    · exact hread.2
    · simp [hread.1]

/-- A body of three bytes in two pieces, with the start of the next message behind it. -/
theorem contentLength_framing_three :
    let req : EvhttpRequest := { ntoread := 3 }
    let pieces := [ascii "ab", ascii "cGET"]
    let body := pieces.flatten
    let msg := evhttpReceiveAll {} { req := req } pieces
    (3 ≤ EV_SIZE_MAX → (3 ≤ body.length ∧ msg.state = .completed ∧ msg.delivered = body.take 3 ∧
        msg.input = body.drop 3) ∨
      (body.length < 3 ∧ msg.state = .readingBody ∧ msg.delivered ++ msg.input = body) ∨
      (¬ req.Keeps ∧ msg.state = .canceled ∧ msg.delivered <+: body.take 3)) ∧
    (EV_SIZE_MAX < 3 → msg.state ≠ .completed ∧ msg.delivered.length ≤ EV_SIZE_MAX) :=
  contentLength_framing {} { ntoread := 3 } 3 (by decide) (by decide) ⟨rfl, rfl, rfl, rfl, rfl⟩
    [ascii "ab", ascii "cGET"]

end Libevent
