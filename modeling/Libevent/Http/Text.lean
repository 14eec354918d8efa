import Libevent.Basic
import Mathlib.Data.List.DropRight

/-!
# `Libevent.Http.Text`: bytes, C strings and lines

The functions on text that `http.c` rests on: `evbuffer_readln` with `EVBUFFER_EOL_CRLF`,
`evutil_strtoll`, `evutil_rtrim_lws_`, `prefix_suffix_match` and the functions of `string.h`.

An evbuffer is the list of its bytes. A C string is a list of bytes without `NUL`: `cstr` is what
the string functions see of the memory behind a `char *`.
-/

namespace Libevent

def NUL : UInt8 := 0
def TAB : UInt8 := 9
def LF : UInt8 := 10
def CR : UInt8 := 13
def SP : UInt8 := 32
def DOT : UInt8 := 46
def COLON : UInt8 := 58

def CRLF : Bytes := [CR, LF]

/-- The bytes of a string literal. -/
def ascii (s : String) : Bytes := s.toList.map fun c => UInt8.ofNat c.toNat

def EV_INT64_MAX : Nat := 2 ^ 63 - 1

def EV_INT64_MIN : Int := -2 ^ 63

/-- The C string in the memory `l`. -/
def cstr (l : Bytes) : Bytes := l.takeWhile (· ≠ NUL)

/-! ### Lines -/

/-- A `CR` before the `LF` belongs to the end of the line. -/
def stripCr (line : Bytes) : Bytes :=
  if line.getLast? = some CR then line.dropLast else line

/-- `evbuffer_readln` with `EVBUFFER_EOL_CRLF`: the line, and what is left in the buffer. -/
def evbufferReadln (buffer : Bytes) : Option (Bytes × Bytes) :=
  match buffer.dropWhile (· ≠ LF) with
  | [] => none
  | _ :: rest => some (stripCr (buffer.takeWhile (· ≠ LF)), rest)

/-! ### `ctype.h` and `string.h` -/

/-- `isspace`. -/
def isSpace (b : UInt8) : Bool := b = SP || (9 ≤ b && b ≤ 13)

/-- A space or a tab. -/
def isLws (b : UInt8) : Bool := b = SP || b = TAB

/-- A carriage return or a line feed. -/
def isEol (b : UInt8) : Bool := b = CR || b = LF

/-- The value of a digit of base 16 or less, if the byte is one. -/
def digitValue (b : UInt8) : Option Nat :=
  if 48 ≤ b ∧ b ≤ 57 then some (b.toNat - 48)
  else if 65 ≤ b ∧ b ≤ 70 then some (b.toNat - 55)
  else if 97 ≤ b ∧ b ≤ 102 then some (b.toNat - 87)
  else none

/-- A digit of the base. -/
def isDigitOf (base : Nat) (b : UInt8) : Bool :=
  match digitValue b with
  | some d => d < base
  | none => false

def asciiLower (b : UInt8) : UInt8 := if 65 ≤ b ∧ b ≤ 90 then b + 32 else b

/-- `evutil_rtrim_lws_`. -/
def evutilRtrimLws (str : Bytes) : Bytes := str.rdropWhile isLws

/-- `strsep(&str, ":")`: the token, and where `str` points afterwards, unless it is `NULL`. -/
def strsepColon (str : Bytes) : Bytes × Option Bytes :=
  (str.takeWhile (· ≠ COLON), match str.dropWhile (· ≠ COLON) with
    | [] => none
    | _ :: rest => some rest)

/-! ### Host patterns -/

def STAR : UInt8 := 42

/-- The loop over the suffixes of the name at a star. It ends before the empty suffix. -/
def starLoop (rest : Bytes → Bool) : Bytes → Bool
  | [] => false
  | b :: name => rest (b :: name) || starLoop rest name

/-- The byte at the end of the name is `NUL`. -/
def prefixSuffixMatch (ignorecase : Bool) : (pattern name : Bytes) → Bool
  | [], name => name.isEmpty
  | c :: pattern, name =>
    if c = STAR then starLoop (prefixSuffixMatch ignorecase pattern) name
    else if c ≠ name.headD NUL ∧
      (!ignorecase || asciiLower c ≠ asciiLower (name.headD NUL)) then false
    else prefixSuffixMatch ignorecase pattern name.tail

/-! ### Numbers -/

/-- The number that the digits stand for. -/
def digitsValue (base : Nat) (digits : Bytes) : Nat :=
  digits.foldl (fun acc b => acc * base + (digitValue b).getD 0) 0

/-- The prefix `0x` or `0X`, when a digit follows. -/
def hasHexPrefix : Bytes → Bool
  | z :: x :: d :: _ => z = 48 && (x = 120 || x = 88) && isDigitOf 16 d
  | _ => false

/-- The sign, and what is behind it. -/
def takeSign : Bytes → Bool × Bytes
  | [] => (false, [])
  | b :: l => if b = 45 then (true, l) else if b = 43 then (false, l) else (false, b :: l)

/-- `evutil_strtoll`, that is `strtoll`, for the bases 10 and 16: the value, and where `endptr`
points. A number that is out of range gives the nearest one that is not. -/
def evutilStrtoll (s : Bytes) (base : Nat) : Int × Bytes :=
  let (neg, t) := takeSign (s.dropWhile isSpace)
  let t := if base = 16 ∧ hasHexPrefix t then t.drop 2 else t
  let digits := t.takeWhile (isDigitOf base)
  if digits = [] then (0, s)
  else
    let n := digitsValue base digits
    (if neg then max EV_INT64_MIN (-n) else min EV_INT64_MAX n, t.dropWhile (isDigitOf base))

end Libevent
