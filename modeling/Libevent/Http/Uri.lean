import Libevent.Http.Text
import Mathlib.Data.Nat.Digits.Defs

/-!
# `Libevent.Http.Uri`: the URI parser of `http.c`

`evhttp_uri_parse_with_flags` with the scanners it is made of, `evhttp_uri_join`, the setters, and
`evhttp_uriencode` with `evhttp_uridecode`.

A pointer into the text is the list of the bytes behind it, and a pair `s`, `eos` is the list of the
bytes between the two. `strchr` then is `takeWhile` and `dropWhile`. `evutil_inet_pton` with
`AF_INET6` is a parameter: `inetPton6` says which texts it accepts.

`regname_ok` looks at the two bytes behind a `%` without comparing them to `eos`. Its callers pass
an `eos` that points at `:`, `/`, `?`, `#` or the `NUL`, and none of these is a hexadecimal digit,
so the bytes in front of `eos` decide as they do in `userinfo_ok`.
-/

namespace Libevent

variable (inetPton6 : Bytes → Bool)

def HASH : UInt8 := 35
def PERCENT : UInt8 := 37
def PLUS : UInt8 := 43
def SLASH : UInt8 := 47
def QUESTION : UInt8 := 63
def AT : UInt8 := 64
def LBRACKET : UInt8 := 91
def RBRACKET : UInt8 := 93

/-! ### Classes of bytes -/

def isDigit (b : UInt8) : Bool := 48 ≤ b && b ≤ 57

def isXdigit (b : UInt8) : Bool := isDigit b || (65 ≤ b && b ≤ 70) || (97 ≤ b && b ≤ 102)

def isAlpha (b : UInt8) : Bool := (65 ≤ b && b ≤ 90) || (97 ≤ b && b ≤ 122)

/-- `CHAR_IS_UNRESERVED`, the ones of the table `uri_chars`. -/
def charIsUnreserved (b : UInt8) : Bool :=
  isAlpha b || isDigit b || b = 45 || b = DOT || b = 95 || b = 126

/-- `strchr(SUBDELIMS, b)`. -/
def isSubdelim (b : UInt8) : Bool := (ascii "!$&'()*+,;=").contains b

/-! ### Scanners -/

/-- Where the scan of `cp` stops that passes over the bytes in `ok` and over a `%` with two
hexadecimal digits behind it. -/
def endOfRun (ok : UInt8 → Bool) : Bytes → Bytes
  | [] => []
  | b :: cp =>
    if ok b then endOfRun ok cp
    else match cp with
      | x :: y :: rest =>
        if b = PERCENT && isXdigit x && isXdigit y then endOfRun ok rest else b :: cp
      | _ => b :: cp

/-- `scheme_ok`. -/
def schemeOk : Bytes → Bool
  | [] => false
  | b :: s => isAlpha b && s.all fun c => isAlpha c || isDigit c || c = 43 || c = 45 || c = DOT

/-- The bytes of a userinfo, and of the address behind `[v1.`. -/
def userinfoChar (b : UInt8) : Bool := charIsUnreserved b || isSubdelim b || b = COLON

/-- `userinfo_ok`. -/
def userinfoOk (s : Bytes) : Bool := endOfRun userinfoChar s = []

/-- `regname_ok`. -/
def regnameOk (s : Bytes) : Bool :=
  endOfRun (fun b => charIsUnreserved b || isSubdelim b) s = []

/-- The loop of `parse_port`. -/
def parsePortLoop (portnum : Nat) : Bytes → Int
  | [] => portnum
  | b :: s =>
    if !isDigit b then -1
    else
      let portnum := portnum * 10 + (b.toNat - 48)
      if 65535 < portnum then -1 else parsePortLoop portnum s

/-- `parse_port`. -/
def parsePort (s : Bytes) : Int := parsePortLoop 0 s

/-- What `bracket_addr_ok` requires behind `[v`: hexadecimal digits, a dot, and the address. -/
def ipvFutureOk (s : Bytes) : Bool :=
  (s.head?.any isXdigit) &&
    match s.dropWhile isXdigit with
    | [] => false
    | b :: rest => b = DOT && rest.all userinfoChar

section
variable (inetPton6 : Bytes → Bool)

/-- `bracket_addr_ok`, without the distinction between the two kinds of address. -/
def bracketAddrOk (s : Bytes) : Bool :=
  if s.length < 3 || s.head? ≠ some LBRACKET || s.getLast? ≠ some RBRACKET then false
  else match s.tail.dropLast with
    | [] => false
    | b :: rest =>
      if b = 118 then ipvFutureOk rest
      else (b :: rest).length < 64 && inetPton6 (b :: rest)

/-- The check of the host in `parse_authority`. -/
def hostOk (host : Bytes) : Bool :=
  if host.head? = some LBRACKET ∧ 2 ≤ host.length ∧ host.getLast? = some RBRACKET then
    bracketAddrOk inetPton6 host
  else regnameOk host

end

/-- `struct evhttp_uri`. A string that is `NULL` is `none`. -/
structure EvhttpUri where
  flags : Nat := 0
  scheme : Option Bytes := none
  userinfo : Option Bytes := none
  host : Option Bytes := none
  port : Int := -1
  path : Option Bytes := none
  query : Option Bytes := none
  fragment : Option Bytes := none
  deriving DecidableEq, Repr

/-- `evhttp_uri_new`. -/
def evhttpUriNew : EvhttpUri := {}

/-- The optional `userinfo@` of `parse_authority`, and where `cp` points behind it. -/
def takeUserinfo (uri : EvhttpUri) (s : Bytes) : Option (EvhttpUri × Bytes) :=
  match s.dropWhile (· ≠ AT) with
  | [] => some (uri, s)
  | _ :: cp =>
    let userinfo := s.takeWhile (· ≠ AT)
    if userinfoOk userinfo then some ({ uri with userinfo := some userinfo }, cp) else none

/-- The optional `:port` of `parse_authority`, and the text in front of it. -/
def takePort (uri : EvhttpUri) (cp : Bytes) : Option (EvhttpUri × Bytes) :=
  let digits := cp.rtakeWhile isDigit
  let front := cp.rdropWhile isDigit
  if front.getLast? = some COLON then
    -- a nil port leaves the port unspecified
    if digits = [] then some ({ uri with port := -1 }, front.dropLast)
    else if parsePort digits < 0 then none
    else some ({ uri with port := parsePort digits }, front.dropLast)
  else some (uri, cp)

/-- `parse_authority`. -/
def parseAuthority (uri : EvhttpUri) (s : Bytes) : Option EvhttpUri :=
  if s = [] then some { uri with host := some [] }
  else do
    let (uri, cp) ← takeUserinfo uri s
    let (uri, host) ← takePort uri cp
    if hostOk inetPton6 host then some { uri with host := some host } else none

/-- The bytes that `end_of_authority` passes over. -/
def authorityChar (b : UInt8) : Bool := !(b = QUESTION || b = HASH || b = SLASH)

/-- `enum uri_part`. -/
inductive UriPart where
  | path
  | query
  | fragment
  deriving DecidableEq, Repr

def EVHTTP_URI_NONCONFORMANT : Nat := 1

/-- The bytes of a part that need no `%`. -/
def partChar (part : UriPart) (b : UInt8) : Bool :=
  charIsUnreserved b || isSubdelim b || b = COLON || b = AT || b = SLASH ||
    (b = QUESTION && part ≠ .path)

/-- The bytes that a part of a nonconformant URI ends at. -/
def partDelim : UriPart → UInt8 → Bool
  | .path, b => b = HASH || b = QUESTION
  | .query, b => b = HASH
  | .fragment, _ => false

/-- `end_of_path`. -/
def endOfPath (cp : Bytes) (part : UriPart) (flags : Nat) : Bytes :=
  if flags &&& EVHTTP_URI_NONCONFORMANT ≠ 0 then cp.dropWhile fun b => !partDelim part b
  else endOfRun (partChar part) cp

/-- `path_matches_noscheme`. -/
def pathMatchesNoscheme : Bytes → Bool
  | [] => true
  | b :: cp => if b = COLON then false else if b = SLASH then true else pathMatchesNoscheme cp

/-! ### The parser -/

/-- The text from the pointer `cp` up to the pointer `readp` behind it. -/
def upTo (cp readp : Bytes) : Bytes := cp.take (cp.length - readp.length)

/-- Step 1 of `evhttp_uri_parse_with_flags`: the scheme, and where `readp` points behind it. -/
def takeScheme (uri : EvhttpUri) (readp : Bytes) : EvhttpUri × Bytes :=
  match readp.dropWhile (· ≠ COLON) with
  | [] => (uri, readp)
  | _ :: rest =>
    let token := readp.takeWhile (· ≠ COLON)
    if schemeOk token then ({ uri with scheme := some token }, rest) else (uri, readp)

/-- Step 2: the authority behind `//`, where `readp` points behind it, and `got_authority`. -/
def takeAuthority (uri : EvhttpUri) (readp : Bytes) : Option (EvhttpUri × Bytes × Bool) :=
  if [SLASH, SLASH].isPrefixOf readp then do
    let authority := readp.drop 2
    let uri ← parseAuthority inetPton6 uri (authority.takeWhile authorityChar)
    some (uri, authority.dropWhile authorityChar, true)
  else some (uri, readp, false)

/-- The query or the fragment behind its delimiter, and where `readp` points behind it. -/
def takePart (delim : UInt8) (part : UriPart) (flags : Nat) (readp : Bytes) :
    Option Bytes × Bytes :=
  if readp.head? = some delim then
    let text := readp.tail
    (some (upTo text (endOfPath text part flags)), endOfPath text part flags)
  else (none, readp)

/-- The checks of the path at the end of `evhttp_uri_parse_with_flags`. -/
def pathOk (uri : EvhttpUri) (gotAuthority : Bool) (path : Bytes) : Bool :=
  -- without an authority, the path can't begin with `//`
  !(!gotAuthority && [SLASH, SLASH].isPrefixOf path) &&
  -- with an authority, the path must begin with `/` or be empty
  !(gotAuthority && path.head? ≠ some SLASH && path ≠ []) &&
  -- without a scheme, the first part of the path must have no colon in it
  !(uri.scheme = none && !pathMatchesNoscheme path)

/-- `evhttp_uri_parse_with_flags`. -/
def evhttpUriParseWithFlags (sourceUri : Bytes) (flags : Nat) : Option EvhttpUri := do
  let (uri, readp) := takeScheme { flags := flags } sourceUri
  let (uri, path, gotAuthority) ← takeAuthority inetPton6 uri readp
  let readp := endOfPath path .path flags
  let path := upTo path readp
  let (query, readp) := takePart QUESTION .query flags readp
  let (fragment, readp) := takePart HASH .fragment flags readp
  if readp ≠ [] then none
  else if pathOk uri gotAuthority path then
    some { uri with path := some path, query := query, fragment := fragment }
  else none

/-- `evhttp_uri_parse`. -/
def evhttpUriParse (sourceUri : Bytes) : Option EvhttpUri :=
  evhttpUriParseWithFlags inetPton6 sourceUri 0

/-! ### The joined text -/

/-- `%d` of a number that is not negative. -/
def printDec (n : Nat) : Bytes :=
  if n = 0 then [48] else (Nat.digits 10 n).reverse.map fun d => UInt8.ofNat (48 + d)

/-- The authority that `evhttp_uri_join` writes. -/
def authorityText (userinfo : Option Bytes) (host : Bytes) (port : Int) : Bytes :=
  (match userinfo with
    | some userinfo => userinfo ++ [AT]
    | none => []) ++ host ++ if 0 ≤ port then COLON :: printDec port.toNat else []

/-- The text behind a delimiter, if there is one. -/
def partText (delim : UInt8) : Option Bytes → Bytes
  | some text => delim :: text
  | none => []

/-- What `evhttp_uri_join` has in its buffer when it appends the `NUL`. -/
def uriText (uri : EvhttpUri) : Bytes :=
  (match uri.scheme with
    | some scheme => scheme ++ [COLON]
    | none => []) ++
  ((match uri.host with
    | some host => SLASH :: SLASH :: authorityText uri.userinfo host uri.port
    | none => []) ++
  (uri.path.getD [] ++ (partText QUESTION uri.query ++ partText HASH uri.fragment)))

/-- `evhttp_uri_join` into a buffer of `limit` bytes. -/
def evhttpUriJoin (uri : EvhttpUri) (limit : Nat) : Option Bytes :=
  if limit = 0 then none
  else if uri.host.isSome ∧ (uri.path.getD []).head? ≠ some SLASH ∧ uri.path.getD [] ≠ [] then none
  else if limit < (uriText uri).length + 1 then none
  else some (uriText uri)

/-! ### The setters -/

/-- The setters of one component. `NULL` clears it. -/
inductive UriSetter where
  | scheme (scheme : Option Bytes)
  | userinfo (userinfo : Option Bytes)
  | host (host : Option Bytes)
  | port (port : Int)
  | path (path : Option Bytes)
  | query (query : Option Bytes)
  | fragment (fragment : Option Bytes)
  deriving DecidableEq, Repr

/-- `evhttp_uri_set_scheme` and its siblings: `none` where the source returns -1. -/
def evhttpUriSet (uri : EvhttpUri) : UriSetter → Option EvhttpUri
  | .scheme scheme =>
    if scheme.all schemeOk then some { uri with scheme := scheme } else none
  | .userinfo userinfo =>
    if userinfo.all userinfoOk then some { uri with userinfo := userinfo } else none
  | .host host =>
    -- unlike `parse_authority`, a host that begins with a bracket has to be an address
    if host.all fun h => if h.head? = some LBRACKET then bracketAddrOk inetPton6 h else regnameOk h
    then some { uri with host := host } else none
  | .port port => if port < -1 then none else some { uri with port := port }
  | .path path =>
    if path.all fun p => endOfPath p .path uri.flags = [] then some { uri with path := path }
    else none
  | .query query =>
    if query.all fun q => endOfPath q .query uri.flags = [] then some { uri with query := query }
    else none
  | .fragment fragment =>
    if fragment.all fun f => endOfPath f .fragment uri.flags = [] then
      some { uri with fragment := fragment }
    else none

/-- A sequence of calls to the setters that all succeed. -/
def evhttpUriSets (calls : List UriSetter) : Option EvhttpUri :=
  calls.foldlM (evhttpUriSet inetPton6) evhttpUriNew

/-! ### Encoding and decoding -/

/-- A digit of the conversion `%X`. -/
def hexDigitUpper (n : Nat) : UInt8 := UInt8.ofNat (if n < 10 then 48 + n else 55 + n)

/-- What `evhttp_uriencode` appends for one byte. -/
def uriencodeByte (spaceAsPlus : Bool) (b : UInt8) : Bytes :=
  if charIsUnreserved b then [b]
  else if b = SP && spaceAsPlus then [PLUS]
  else [PERCENT, hexDigitUpper (b.toNat / 16), hexDigitUpper (b.toNat % 16)]

/-- `evhttp_uriencode`, when memory is found: the memory of the string that it returns. -/
def evhttpUriencode (uri : Bytes) (spaceAsPlus : Bool) : Bytes :=
  uri.flatMap (uriencodeByte spaceAsPlus) ++ [NUL]

/-- `uri[i]`, in the memory of the string. -/
def readAt (uri : Bytes) (i : Nat) : Except Fault UInt8 :=
  match uri[i]? with
  | some c => .ok c
  | none => .error .outOfBounds

/-- `ret[j] = c`. -/
def writeAt (ret : Bytes) (j : Nat) (c : UInt8) : Except Fault Bytes :=
  if j < ret.length then .ok (ret.set j c) else .error .outOfBounds

/-- One round of the loop of `evhttp_decode_uri_internal`, up to the write: `c`, `i` and
`decode_plus`. `i` is an `unsigned`. -/
def decodeUriByte (uri : Bytes) (length : Nat) (decodePlusCtl : Int) (i : Nat)
    (decodePlus : Bool) : Except Fault (UInt8 × Nat × Bool) := do
  let c ← readAt uri i
  if c = QUESTION then pure (c, i, decodePlus || decide (decodePlusCtl < 0))
  else if c = PLUS && decodePlus then pure (SP, i, decodePlus)
  else if (i + 2) % 2 ^ 32 < length && c = PERCENT then do
    let x ← readAt uri ((i + 1) % 2 ^ 32)
    if isXdigit x then do
      let y ← readAt uri ((i + 2) % 2 ^ 32)
      if isXdigit y then
        pure (UInt8.ofNat (digitsValue 16 [x, y]), (i + 2) % 2 ^ 32, decodePlus)
      else pure (c, i, decodePlus)
    else pure (c, i, decodePlus)
  else pure (c, i, decodePlus)

/-- The loop of `evhttp_decode_uri_internal`, and the `NUL` behind it. -/
def decodeUriLoop (uri : Bytes) (length : Nat) (decodePlusCtl : Int) :
    (fuel i j : Nat) → (decodePlus : Bool) → (ret : Bytes) → Except Fault (Nat × Bytes)
  | 0, _, _, _, _ => .error .outOfFuel
  | fuel + 1, i, j, decodePlus, ret =>
    if i < length then do
      let (c, i, decodePlus) ← decodeUriByte uri length decodePlusCtl i decodePlus
      let ret ← writeAt ret j c
      decodeUriLoop uri length decodePlusCtl fuel ((i + 1) % 2 ^ 32) (j + 1) decodePlus ret
    else do
      let ret ← writeAt ret j NUL
      pure (j, ret)

/-- `evhttp_uridecode`, when memory is found: `size_out`, and the memory that it returns. `uri` is
the memory of the string. -/
def evhttpUridecode (uri : Bytes) (decodePlus : Bool) : Except Fault (Nat × Bytes) :=
  let length := (cstr uri).length
  let ctl := if decodePlus then 1 else 0
  decodeUriLoop uri length ctl (length + 1) 0 0 (ctl == 1) (List.replicate (length + 1) NUL)

end Libevent
