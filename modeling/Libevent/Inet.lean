import Mathlib.Data.List.Basic
import Mathlib.Data.Nat.Digits.Defs

/-!
# `Libevent.Inet`: addresses as text

`evutil_inet_ntop` with the library's own formatting. Text is a list of characters, and the memory
at `dst` one that goes on behind the `len` characters of the buffer.
-/

namespace Libevent

/-- `struct in_addr` and `struct in6_addr`, in network order. -/
inductive InetAddr where
  | inet (a : Fin 4 → UInt8)
  | inet6 (addr : Fin 16 → UInt8)

/-- The text is written to the start of the memory. -/
def writeText (mem text : List Char) : List Char := text ++ mem.drop text.length

/-- `evutil_snprintf` of a text: its length, and the memory. The last byte of the buffer is always
set. -/
def evutilSnprintf (mem : List Char) (len : Nat) (text : List Char) : Nat × List Char :=
  if len = 0 then (0, mem)
  else (text.length, (writeText mem (text.take (len - 1) ++ ['\x00'])).set (len - 1) '\x00')

def strlcpy (mem text : List Char) (len : Nat) : List Char :=
  if len = 0 then mem else writeText mem (text.take (len - 1) ++ ['\x00'])

/-- `%d.%d.%d.%d`. -/
def dottedText (a b c d : UInt8) : List Char :=
  [a, b, c, d].map (fun x => Nat.toDigits 10 x.toNat) |>.intersperse ['.'] |>.flatten

/-- The zeros from the word `i` on. -/
def zeroRun (words : List Nat) (i : Nat) : Nat := ((words.drop i).takeWhile (· = 0)).length

/-- The loop that looks for the first longest run of zeros, from the word `i` on. -/
def longestGapPos (words : List Nat) : (fuel i longestGapLen : Nat) → Option Nat → Option Nat
  | 0, _, len, pos => if len ≤ 1 then none else pos
  | fuel + 1, i, len, pos =>
    if i < 8 then
      if words.getD i 0 = 0 then
        if len < zeroRun words i then
          longestGapPos words fuel (i + zeroRun words i) (zeroRun words i) (some i)
        else longestGapPos words fuel (i + zeroRun words i) len pos
      else longestGapPos words fuel (i + 1) len pos
    else if len ≤ 1 then none else pos

/-- The loop that writes the words, with `::` for the gap. -/
def wordsText (words : List Nat) (gap : Option Nat) : (fuel i : Nat) → List Char
  | 0, _ => []
  | fuel + 1, i =>
    if i < 8 then
      if words.getD i 0 = 0 ∧ gap = some i then
        (if i = 0 then [':', ':'] else [':']) ++ wordsText words gap fuel (i + zeroRun words i)
      else
        Nat.toDigits 16 (words.getD i 0) ++ (if i ≠ 7 then [':'] else []) ++
          wordsText words gap fuel (i + 1)
    else []

/-- The full text of an address. -/
def InetAddr.text : InetAddr → List Char
  | .inet a => dottedText (a 0) (a 1) (a 2) (a 3)
  | .inet6 addr =>
    let words := (List.range 8).map fun i =>
      (addr (Fin.ofNat 16 (2 * i))).toNat * 256 + (addr (Fin.ofNat 16 (2 * i + 1))).toNat
    let w := fun i => words.getD i 0
    let dotted := dottedText (addr 12) (addr 13) (addr 14) (addr 15)
    if w 0 = 0 ∧ w 1 = 0 ∧ w 2 = 0 ∧ w 3 = 0 ∧ w 4 = 0 ∧
        ((w 5 = 0 ∧ w 6 ≠ 0 ∧ w 7 ≠ 0) ∨ w 5 = 0xffff) then
      if w 5 = 0 then [':', ':'] ++ dotted
      else [':', ':'] ++ Nat.toDigits 16 (w 5) ++ [':'] ++ dotted
    else wordsText words (longestGapPos words 8 0 0 none) 8 0

/-- Whether the result is `dst`, and the memory. The `buf` for an IPv6 address has 64 bytes. -/
def evutilInetNtop (src : InetAddr) (mem : List Char) (len : Nat) : Bool × List Char :=
  match src with
  | .inet _ =>
    let r := evutilSnprintf mem len src.text
    (decide (r.1 < len), r.2)
  | .inet6 _ =>
    let buf := src.text.take 63
    if buf.length > len then (false, mem) else (true, strlcpy mem buf len)

end Libevent
