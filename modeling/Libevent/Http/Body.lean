import Libevent.Http.Headers

/-!
# `Libevent.Http.Body`: message bodies

How `http.c` reads the body of a message in the three framings (`evhttp_read_body`,
`evhttp_handle_chunked_read`, `evhttp_read_trailer`), and writes a chunked reply.
-/

namespace Libevent

/-- `enum evhttp_cmd_type`. -/
inductive EvhttpCmdType where
  | get
  | post
  | head
  | put
  | delete
  | options
  | trace
  | connect
  | patch
  | unknown
  deriving DecidableEq, Repr

/-- The errors of `enum evhttp_request_error` with which reading a body can end. -/
inductive EvhttpRequestError where
  | invalidHeader
  | dataTooLong
  deriving DecidableEq, Repr

/-- Where a message is. `completed` is after `evhttp_connection_done` (the request goes to the
user's callback), `failed` after `evhttp_connection_fail_`, `canceled` after a `chunk_cb` that
called `evhttp_cancel_request`. No body is read in these. -/
inductive ConnState where
  | readingBody
  | readingTrailer
  | completed
  | failed (error : EvhttpRequestError)
  | canceled
  deriving DecidableEq, Repr

/-- The fields of `struct evhttp_request` that reading a body uses. -/
structure EvhttpRequest extends HeaderState where
  ntoread : Int := -1
  bodySize : Nat := 0
  chunked : Bool := false
  inputBuffer : Bytes := []
  /-- `chunk_cb`, if it is set: whether its `i`-th call cancels the request. -/
  chunkCb : Option (Nat → Bool) := none
  /-- What the calls of `chunk_cb` saw in `input_buffer`, one after another. -/
  seen : List Bytes := []

/-- A request, with the state and the input buffer of its connection. -/
structure Message where
  req : EvhttpRequest
  state : ConnState := .readingBody
  input : Bytes := []

/-- The cast of an `ev_int64_t` to `size_t`. -/
def toSize (n : Int) : Nat := (n % 2 ^ 64).toNat

/-- One call of `chunk_cb`. Afterwards `input_buffer` is drained. `true` is
`EVHTTP_REQ_NEEDS_FREE`. -/
def EvhttpRequest.callChunkCb (req : EvhttpRequest) (chunkCb : Nat → Bool) : Bool × EvhttpRequest :=
  (chunkCb req.seen.length, { req with seen := req.seen ++ [req.inputBuffer], inputBuffer := [] })

/-- The body as the user gets it: from the calls of `chunk_cb`, or from `input_buffer` when the
request is complete. -/
def Message.delivered (msg : Message) : Bytes :=
  match msg.req.chunkCb with
  | some _ => msg.req.seen.flatten
  | none => if msg.state = .completed then msg.req.inputBuffer else []

/-! ### The chunked framing -/

/-- The value of a chunk-size line `p`, unless the line is refused. -/
def chunkSize (p : Bytes) : Option Nat :=
  let (ntoread, endp) := evutilStrtoll p 16
  if p = [] ∨ ¬ (endp = [] ∨ endp.head? = some SP) ∨ ntoread < 0 then none
  else some ntoread.toNat

variable (evcon : EvhttpConnection) (msg : Message)

/-- What `evhttp_handle_chunked_read` does with a line where a size is expected: the request and,
when the loop ends, the status. -/
def evhttpReadChunkSize (req : EvhttpRequest) (p : Bytes) :
    Option MessageReadStatus × EvhttpRequest :=
  -- the last chunk is on a new line?
  if p = [] then (none, req)
  else
    match chunkSize p with
    | none => (some .dataCorrupted, req)
    | some ntoread =>
      if EV_SIZE_MAX - req.bodySize < ntoread then (some .dataCorrupted, req)
      else if evcon.maxBodySize < req.bodySize + ntoread then (some .dataTooLong, req)
      else
        let req := { req with bodySize := req.bodySize + ntoread, ntoread := ntoread }
        if ntoread = 0 then (some .allDataRead, req) else (none, req)

/-- What `evhttp_handle_chunked_read` does when the data of a chunk is complete. -/
def evhttpReadChunkData (req : EvhttpRequest) (data : Bytes) :
    Option MessageReadStatus × EvhttpRequest :=
  let req := { req with inputBuffer := req.inputBuffer ++ data, ntoread := -1 }
  match req.chunkCb with
  | none => (none, req)
  | some chunkCb =>
    let (needsFree, req) := req.callChunkCb chunkCb
    if needsFree then (some .requestCanceled, req) else (none, req)

/-- One turn of the loop of `evhttp_handle_chunked_read`, on a buffer that is not empty. `none`: the
loop ends because more data is expected. -/
def evhttpHandleChunkedReadTurn (req : EvhttpRequest)
    (buf : Bytes) : Option ((Option MessageReadStatus × EvhttpRequest) × Bytes) :=
  if req.ntoread < 0 then
    match evbufferReadln buf with
    | none => none
    | some (line, rest) => some (evhttpReadChunkSize evcon req (cstr line), rest)
  else if 0 < req.ntoread ∧ buf.length < toSize req.ntoread then none
  else
    let n := toSize req.ntoread
    some (evhttpReadChunkData req (buf.take n), buf.drop n)

/-- The loop of `evhttp_handle_chunked_read`. -/
def evhttpHandleChunkedReadLoop (evcon : EvhttpConnection) :
    (fuel : Nat) → EvhttpRequest → Bytes → MessageReadStatus × EvhttpRequest × Bytes
  | 0, req, buf => (.moreDataExpected, req, buf)
  | fuel + 1, req, buf =>
    if buf = [] then (.moreDataExpected, req, buf)
    else if EV_SSIZE_MAX < buf.length then (.dataCorrupted, req, buf)
    else
      match evhttpHandleChunkedReadTurn evcon req buf with
      | none => (.moreDataExpected, req, buf)
      | some ((some status, req), buf) => (status, req, buf)
      | some ((none, req), buf) => evhttpHandleChunkedReadLoop evcon fuel req buf

/-- `evhttp_handle_chunked_read`. Every turn but the first takes a line or a chunk from the
buffer. -/
def evhttpHandleChunkedRead (req : EvhttpRequest) (buf : Bytes) :
    MessageReadStatus × EvhttpRequest × Bytes :=
  evhttpHandleChunkedReadLoop evcon (buf.length + 1) req buf

/-- `evhttp_read_trailer`. -/
def evhttpReadTrailer : Message :=
  let (status, headers, input) := evhttpParseHeaders (some evcon) msg.req.toHeaderState msg.input
  let msg := { msg with req := { msg.req with toHeaderState := headers }, input := input }
  match status with
  | .dataCorrupted | .dataTooLong => { msg with state := .failed .dataTooLong }
  | .allDataRead => { msg with state := .completed }
  | .moreDataExpected | .requestCanceled => msg

/-! ### The other framings -/

/-- `evhttp_lingering_close`. -/
def evhttpLingeringClose : Message :=
  let n := min msg.input.length (toSize msg.req.ntoread)
  let req : EvhttpRequest := { msg.req with
    ntoread := msg.req.ntoread - n
    bodySize := msg.req.bodySize + n }
  let msg := { msg with req := req, input := msg.input.drop n }
  if req.ntoread = 0 then { msg with state := .failed .dataTooLong } else msg

/-- `evhttp_lingering_fail`. -/
def evhttpLingeringFail : Message :=
  if evcon.lingeringClose then evhttpLingeringClose msg
  else { msg with state := .failed .dataTooLong }

/-- The test of `evhttp_read_body` that comes after the data was moved. -/
def evhttpBodyTooLong (req : EvhttpRequest) : Bool :=
  evcon.maxBodySize < req.bodySize ||
    (!req.chunked && 0 ≤ req.ntoread && evcon.maxBodySize < toSize req.ntoread)

/-- The last test of `evhttp_read_body`. -/
def evhttpBodyDone : Message :=
  if msg.req.ntoread = 0 then { msg with state := .completed } else msg

/-- What `evhttp_read_body` does after the data was moved. -/
def evhttpReadBodyMoved : Message :=
  if evhttpBodyTooLong evcon msg.req then evhttpLingeringFail evcon msg
  else
    match msg.req.chunkCb with
    | none => evhttpBodyDone msg
    | some chunkCb =>
      if msg.req.inputBuffer = [] then evhttpBodyDone msg
      else
        let (needsFree, req) := msg.req.callChunkCb chunkCb
        let msg := { msg with req := req }
        if needsFree then { msg with state := .canceled } else evhttpBodyDone msg

/-- `evhttp_read_body`. -/
def evhttpReadBody : Message :=
  let req := msg.req
  if req.chunked then
    let (status, req, input) := evhttpHandleChunkedRead evcon req msg.input
    let msg := { msg with req := req, input := input }
    match status with
    | .allDataRead => evhttpReadTrailer evcon { msg with state := .readingTrailer }
    | .dataCorrupted | .dataTooLong => { msg with state := .failed .dataTooLong }
    | .requestCanceled => { msg with state := .canceled }
    | .moreDataExpected => evhttpReadBodyMoved evcon msg
  else if req.ntoread < 0 then
    -- read until connection close
    if EV_SIZE_MAX < req.bodySize + msg.input.length then
      { msg with state := .failed .invalidHeader }
    else
      evhttpReadBodyMoved evcon { msg with
        req := { req with
          bodySize := req.bodySize + msg.input.length
          inputBuffer := req.inputBuffer ++ msg.input }
        input := [] }
  else if req.chunkCb.isSome ∨ toSize req.ntoread ≤ msg.input.length then
    let n := min msg.input.length (toSize req.ntoread)
    evhttpReadBodyMoved evcon { msg with
      req := { req with
        ntoread := req.ntoread - n
        bodySize := req.bodySize + n
        inputBuffer := req.inputBuffer ++ msg.input.take n }
      input := msg.input.drop n }
  else evhttpReadBodyMoved evcon msg

/-- `evhttp_read_cb` in the states that belong to a body. In the others nothing more is read for
this message. -/
def evhttpReadCb : Message :=
  match msg.state with
  | .readingBody => evhttpReadBody evcon msg
  | .readingTrailer => evhttpReadTrailer evcon msg
  | _ => msg

/-- A piece of the stream arrives in the input buffer, and `evhttp_read_cb` is called. -/
def evhttpReceive (piece : Bytes) : Message :=
  evhttpReadCb evcon { msg with input := msg.input ++ piece }

/-- The pieces arrive one after another. -/
def evhttpReceiveAll (pieces : List Bytes) : Message :=
  pieces.foldl (evhttpReceive evcon) msg

/-! ### Chunked replies -/

/-- A hexadecimal digit of `%x`. -/
def hexDigit (n : Nat) : UInt8 := UInt8.ofNat (if n < 10 then 48 + n else 87 + n)

/-- `%x` of an `unsigned`. -/
def printHex (n : Nat) : Bytes :=
  if n = 0 then [48] else (Nat.digits 16 n).reverse.map hexDigit

/-- The fields of `struct evhttp_request` that a reply uses, and the output buffer of its
connection. -/
structure EvhttpReply where
  responseCode : Nat := 200
  type : EvhttpCmdType := .get
  chunked : Bool := false
  userdone : Bool := false
  output : Bytes := []
  deriving DecidableEq, Repr

/-- `evhttp_response_needs_body`. -/
def evhttpResponseNeedsBody (req : EvhttpReply) : Bool :=
  req.responseCode ≠ 204 && req.responseCode ≠ 304 &&
    (req.responseCode < 100 || 200 ≤ req.responseCode) && req.type ≠ .head

/-- `evhttp_send_reply_chunk`. The length of the buffer is cast to `unsigned`. -/
def evhttpSendReplyChunk (req : EvhttpReply) (databuf : Bytes) : EvhttpReply :=
  if databuf.length = 0 then req
  else if !evhttpResponseNeedsBody req then req
  else if req.chunked then
    { req with
      output := req.output ++ printHex (databuf.length % 2 ^ 32) ++ CRLF ++ databuf ++ CRLF }
  else { req with output := req.output ++ databuf }

/-- `evhttp_send_reply_end`. -/
def evhttpSendReplyEnd (req : EvhttpReply) : EvhttpReply :=
  if req.chunked then
    { req with
      userdone := true
      output := req.output ++ ascii "0" ++ CRLF ++ CRLF
      chunked := false }
  else { req with userdone := true }

end Libevent
