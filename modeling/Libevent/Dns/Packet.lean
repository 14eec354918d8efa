import Libevent.Http.Text

/-!
# `Libevent.Dns.Packet`: reading DNS packets

`name_parse` of `evdns.c`, the reader of names that the client and the server share, and
`request_parse` of the server. A packet is the list of its bytes, and `out` is what stands in
`name_out` before `cp`. A read or a write outside of the arrays, and a loop that goes on longer than
its fuel, are faults.
-/

namespace Libevent

variable (packet : Bytes)

/-- `len` bytes of the packet from `j` on. -/
def packetRead (j len : Nat) : Except Fault Bytes :=
  if j + len ≤ packet.length then .ok ((packet.drop j).take len) else .error .outOfBounds

/-- `bytes` go to the end of `out`, for which there is room for `n` bytes. -/
def nameWrite (n : Nat) (out bytes : Bytes) : Except Fault Bytes :=
  if out.length + bytes.length ≤ n then .ok (out ++ bytes) else .error .outOfBounds

/-- The variables of `name_parse`. -/
structure NameState where
  j : Nat
  nameEnd : Option Nat := none
  ptrCount : Nat := 0
  out : Bytes := []

/-- What a round of the loop does: return -1, return the name and the new `*idx`, or go on. -/
inductive NameNext where
  | fail
  | done (name : Bytes) (idx : Nat)
  | go (s : NameState)

/-- The place that a compression pointer names. -/
def pointerTarget (labelLen ptrLow : UInt8) : Nat :=
  ((labelLen.toNat &&& 0x3f) <<< 8) + ptrLow.toNat

/-- A round of the loop of `name_parse`, for an output of `n` bytes. -/
def nameRound (n : Nat) (s : NameState) : Except Fault NameNext := do
  if s.j ≥ packet.length then return .fail
  let labelLen := (← packetRead packet s.j 1).headD 0
  let j := s.j + 1
  if labelLen = 0 then
    if s.out.length ≥ n then return .fail
    let _ ← nameWrite n s.out [NUL]
    return .done s.out (s.nameEnd.getD j)
  if labelLen &&& 0xc0 ≠ 0 then
    if j ≥ packet.length then return .fail
    let ptrLow := (← packetRead packet j 1).headD 0
    let target := pointerTarget labelLen ptrLow
    if target ≥ packet.length then return .fail
    if s.ptrCount + 1 > packet.length then return .fail
    return .go { s with
      j := target, nameEnd := some (s.nameEnd.getD (j + 1)), ptrCount := s.ptrCount + 1 }
  if labelLen > 63 then return .fail
  if s.out ≠ [] ∧ s.out.length + 1 ≥ n then return .fail
  let out ← if s.out = [] then pure [] else nameWrite n s.out [DOT]
  if out.length + labelLen.toNat ≥ n then return .fail
  if j + labelLen.toNat > packet.length then return .fail
  return .go { s with
    j := j + labelLen.toNat, out := ← nameWrite n out (← packetRead packet j labelLen.toNat) }

def nameLoop (packet : Bytes) (n : Nat) :
    Nat → NameState → Except Fault (Option (Bytes × Nat))
  | 0, _ => .error .outOfFuel
  | fuel + 1, s => do
    match ← nameRound packet n s with
    | .fail => return none
    | .done name idx => return some (name, idx)
    | .go s => nameLoop packet n fuel s

/-- `name_parse`: the name without the `NUL` behind it, and the new `*idx`. -/
def nameParse (idx n : Nat) : Except Fault (Option (Bytes × Nat)) :=
  nameLoop packet n ((packet.length + 1) * (packet.length + 1)) { j := idx }

/-! ### Queries -/

/-- `GET16`. -/
def get16 (j : Nat) : Option Nat :=
  match packet[j]?, packet[j + 1]? with
  | some hi, some lo => some (hi.toNat * 256 + lo.toNat)
  | _, _ => none

/-- `struct evdns_server_question`. -/
structure ServerQuestion where
  type : Nat
  dnsQuestionClass : Nat
  name : Bytes

/-- What `request_parse` fills in of `struct server_request`. -/
structure ServerQuery where
  transId : Nat
  flags : Nat
  questions : List ServerQuestion

/-- The loop of `request_parse`. The questions start at `j`. -/
def serverQuestions (packet : Bytes) : Nat → Nat → Except Fault (Option (List ServerQuestion))
  | 0, _ => return some []
  | questions + 1, j => do
    let some (tmpName, j) ← nameParse packet j 256 | return none
    let some type := get16 packet j | return none
    let some cls := get16 packet (j + 2) | return none
    let some rest ← serverQuestions packet questions (j + 4) | return none
    return some (⟨type, cls, cstr tmpName⟩ :: rest)

/-- A packet is dropped, answered with `DNS_ERR_NOTIMPL`, or passed to the user's callback. -/
inductive QueryFate where
  | dropped
  | notimpl (query : ServerQuery)
  | passed (query : ServerQuery)

/-- `request_parse`, when no allocation fails. -/
def requestParse : Except Fault QueryFate := do
  let some transId := get16 packet 0 | return .dropped
  let some flags := get16 packet 2 | return .dropped
  let some questions := get16 packet 4 | return .dropped
  -- the counts of the other sections are read and ignored
  if packet.length < 12 then return .dropped
  if flags &&& 0x8000 ≠ 0 then return .dropped
  let flags := flags &&& 0x0110
  -- `mm_calloc` of no elements is `NULL`
  if questions = 0 then return .dropped
  let some questions ← serverQuestions packet questions 12 | return .dropped
  if flags &&& 0x7800 ≠ 0 then return .notimpl ⟨transId, flags, questions⟩
  return .passed ⟨transId, flags, questions⟩

end Libevent
