import Libevent.Http.Text

/-!
# `Libevent.Http.Headers`: header fields

The header list of a request (`struct evkeyvalq`): adding a header, writing the list
(`evhttp_make_header`) and reading it back line by line (`evhttp_parse_headers_`).
-/

namespace Libevent

/-- `struct evkeyval`. Both fields are C strings. -/
structure Evkeyval where
  key : Bytes
  value : Bytes
  deriving DecidableEq, Repr

/-- `enum message_read_status`. -/
inductive MessageReadStatus where
  | allDataRead
  | moreDataExpected
  | dataCorrupted
  | requestCanceled
  | dataTooLong
  deriving DecidableEq, Repr

/-- The loop of `evhttp_header_is_valid_value`, from the position `p`. A run of line ends is at
least one byte long, so that the length of the value bounds the number of turns. -/
def evhttpHeaderIsValidValueLoop : (fuel : Nat) → (p : Bytes) → Bool
  | 0, _ => true
  | fuel + 1, p =>
    match p.dropWhile (!isEol ·) with
    | [] => true
    | q =>
      match q.dropWhile isEol with
      | [] => false
      | b :: l => if isLws b then evhttpHeaderIsValidValueLoop fuel (b :: l) else false

/-- `evhttp_header_is_valid_value`. -/
def evhttpHeaderIsValidValue (value : Bytes) : Bool :=
  evhttpHeaderIsValidValueLoop (value.length + 1) value

/-- `evhttp_add_header`: `none` is the return value `-1`. -/
def evhttpAddHeader (headers : List Evkeyval) (key value : Bytes) : Option (List Evkeyval) :=
  if CR ∈ key ∨ LF ∈ key then none
  else if evhttpHeaderIsValidValue value then some (headers ++ [⟨key, value⟩])
  else none

/-- The text of one header. -/
def Evkeyval.line (header : Evkeyval) : Bytes :=
  header.key ++ [COLON, SP] ++ header.value ++ CRLF

/-- The part of `evhttp_make_header` that writes the list and the blank line behind it. -/
def evhttpMakeHeader (headers : List Evkeyval) : Bytes :=
  headers.flatMap Evkeyval.line ++ CRLF

/-! ### Reading -/

/-- The settings of `struct evhttp_connection` that bound what is read. -/
structure EvhttpConnection where
  maxHeadersSize : Nat := EV_SIZE_MAX
  maxBodySize : Nat := EV_SIZE_MAX
  /-- The flag `EVHTTP_CON_LINGERING_CLOSE`. -/
  lingeringClose : Bool := false
  deriving DecidableEq, Repr

/-- `evhttp_append_to_last_header`. -/
def evhttpAppendToLastHeader (headers : List Evkeyval) (line : Bytes) :
    Option (List Evkeyval) :=
  match headers.getLast? with
  | none => none
  | some header =>
    let line := evutilRtrimLws (line.dropWhile isLws)
    some (headers.dropLast ++ [{ header with value := header.value ++ SP :: line }])

/-- What `evhttp_parse_headers_` does with a line that is not empty: `none` is the jump to `error`.
-/
def evhttpParseHeaderLine (headers : List Evkeyval) (line : Bytes) : Option (List Evkeyval) :=
  -- a line that starts with white space continues the header before it
  if line.head?.any isLws then evhttpAppendToLastHeader headers line
  else
    match strsepColon line with
    | (_, none) => none
    | (skey, some svalue) =>
      evhttpAddHeader headers skey (evutilRtrimLws (svalue.dropWhile (· = SP)))

/-- The fields of `struct evhttp_request` that `evhttp_parse_headers_` changes. -/
structure HeaderState where
  inputHeaders : List Evkeyval := []
  headersSize : Nat := 0
  deriving DecidableEq, Repr

/-- One turn of the loop of `evhttp_parse_headers_`: the status when the loop ends with this line.
`line` is what `evbuffer_readln` returned. It may hold a `NUL`, at which the C string ends. -/
def evhttpParseHeadersTurn (evcon : Option EvhttpConnection) (req : HeaderState)
    (line : Bytes) : Option MessageReadStatus × HeaderState :=
  let req := { req with headersSize := req.headersSize + line.length }
  if evcon.any (·.maxHeadersSize < req.headersSize) then (some .dataTooLong, req)
  else if cstr line = [] then (some .allDataRead, req)
  else
    match evhttpParseHeaderLine req.inputHeaders (cstr line) with
    | none => (some .dataCorrupted, req)
    | some headers => (none, { req with inputHeaders := headers })

/-- The loop of `evhttp_parse_headers_`. -/
def evhttpParseHeadersLoop (evcon : Option EvhttpConnection) :
    (fuel : Nat) → HeaderState → Bytes → MessageReadStatus × HeaderState × Bytes
  | 0, req, buffer => (.moreDataExpected, req, buffer)
  | fuel + 1, req, buffer =>
    match evbufferReadln buffer with
    | none => (.moreDataExpected, req, buffer)
    | some (line, rest) =>
      match evhttpParseHeadersTurn evcon req line with
      | (some status, req) => (status, req, rest)
      | (none, req) => evhttpParseHeadersLoop evcon fuel req rest

/-- `evhttp_parse_headers_`: the status, the request and what is left in the buffer. `evcon` is
`none` for a request without a connection. Every line takes its `LF` from the buffer, so that the
length of the buffer bounds the number of turns. -/
def evhttpParseHeaders (evcon : Option EvhttpConnection) (req : HeaderState) (buffer : Bytes) :
    MessageReadStatus × HeaderState × Bytes :=
  match evhttpParseHeadersLoop evcon buffer.length req buffer with
  | (.moreDataExpected, req, buffer) =>
    if evcon.any (·.maxHeadersSize < req.headersSize + buffer.length) then
      (.dataTooLong, req, buffer)
    else (.moreDataExpected, req, buffer)
  | result => result

end Libevent
