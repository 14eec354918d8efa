import Libevent.Proofs.Http.Lines
import Libevent.Proofs.Http.Numbers

/-!
# `Libevent.Proofs.Http.Chunked`: the chunked framing

The loop of `evhttp_handle_chunked_read` is a machine that takes a line or the data of a chunk in a
move (`chunkMachine`). `settle_chunksText` runs it over the chunks of a stream.
-/

namespace Libevent

open Lib

variable {evcon : EvhttpConnection} {req req' : EvhttpRequest} {n : Nat} {data buf : Bytes}
  {line size last : Bytes}

/-! ### Sizes -/

theorem chunkSize_le {p : Bytes} (h : chunkSize p = some n) : n ≤ EV_INT64_MAX := by
  have hmax : (evutilStrtoll p 16).1 ≤ EV_INT64_MAX := by
    rcases strtoll_cases 16 p with hzero | ⟨ws, sign, pre, digits, rest, hscan⟩
    · rw [hzero]
      exact Int.natCast_nonneg _
    rw [strtoll_scanned hscan, clampedValue]
    split
    · simp only [EV_INT64_MIN]
      omega
    · exact min_le_left _ _
  unfold chunkSize at h
  dsimp only at h
  split at h
  · cases h
  · cases h
    omega

/-- The text is a number `n` of hexadecimal digits. -/
structure IsSize (size : Bytes) (n : Nat) : Prop where
  digits : ∀ b ∈ size, isDigitOf 16 b = true
  ne_nil : size ≠ []
  value : digitsValue 16 size = n

section IsSize

variable {size : Bytes} {n : Nat} (h : IsSize size n)
include h

theorem IsSize.lf : LF ∉ size :=
  fun hmem => (ordinaryByte_of_isDigitOf (h.digits LF hmem)).lf rfl

theorem IsSize.nul : NUL ∉ size :=
  fun hmem => (ordinaryByte_of_isDigitOf (h.digits NUL hmem)).nul rfl

theorem IsSize.chunkSize_eq (hmax : n ≤ EV_INT64_MAX) : chunkSize size = some n := by
  have hscan := scanned_digits h.ne_nil h.digits stops_nil (by simp)
  rw [List.append_nil] at hscan
  have hvalue : clampedValue false n = n := by simpa [clampedValue] using hmax
  simp [chunkSize, strtoll_scanned hscan, h.value, hvalue, h.ne_nil]

end IsSize

/-! ### The loop as a machine -/

/-- What `ntoread` can be in the loop: a size is expected, or a chunk that is not empty. -/
def Sane (req : EvhttpRequest) : Prop := req.ntoread < 0 ∨ (0 < req.ntoread ∧ req.ntoread < 2 ^ 63)

theorem toSize_natCast (h : n ≤ EV_INT64_MAX) : toSize (n : Int) = n := by
  simp only [EV_INT64_MAX] at h
  rw [toSize, Int.emod_eq_of_lt (by omega) (by omega), Int.toNat_natCast]

/-- The decoder between two turns, and how it ended. -/
abbrev ChunkDecoder := EvhttpRequest × Option MessageReadStatus

section Turn

variable {buf rest : Bytes} {r : Option MessageReadStatus × EvhttpRequest}

theorem chunkedReadTurn_line (hneg : req.ntoread < 0)
    (hread : evbufferReadln buf = some (line, rest)) :
    evhttpHandleChunkedReadTurn evcon req buf =
      some (evhttpReadChunkSize evcon req (cstr line), rest) := by
  simp only [evhttpHandleChunkedReadTurn, if_pos hneg, hread]

theorem chunkedReadTurn_data (hneg : ¬ req.ntoread < 0) (hlen : data.length = toSize req.ntoread)
    (rest : Bytes) :
    evhttpHandleChunkedReadTurn evcon req (data ++ rest) =
      some (evhttpReadChunkData req data, rest) := by
  simp [evhttpHandleChunkedReadTurn, hneg, ← hlen]

/-- What a turn takes from the buffer: a line, or the data of a chunk. -/
theorem chunkedReadTurn_cases (h : evhttpHandleChunkedReadTurn evcon req buf = some (r, rest)) :
    (req.ntoread < 0 ∧ ∃ line, evbufferReadln buf = some (line, rest) ∧
      r = evhttpReadChunkSize evcon req (cstr line)) ∨
    (¬ req.ntoread < 0 ∧ ∃ data, data.length = toSize req.ntoread ∧ buf = data ++ rest ∧
      r = evhttpReadChunkData req data) := by
  unfold evhttpHandleChunkedReadTurn at h
  split at h
  · next hneg =>
    split at h
    · cases h
    next line rest' hread =>
    cases h
    exact .inl ⟨hneg, line, hread, rfl⟩
  next hneg =>
  split at h
  · cases h
  next hwait =>
  cases h
  have hle : toSize req.ntoread ≤ buf.length := by
    by_cases hzero : req.ntoread = 0
    · rw [hzero]
      exact Nat.zero_le _
    · omega
  refine .inr ⟨hneg, buf.take (toSize req.ntoread), ?_, ?_, rfl⟩
  · rw [List.length_take, Nat.min_eq_left hle]
  · exact (List.take_append_drop _ buf).symm

theorem chunkedReadTurn_shrinks (hsize : req.ntoread < 0 ∨ 0 < toSize req.ntoread)
    (h : evhttpHandleChunkedReadTurn evcon req buf = some (r, rest)) :
    rest.length < buf.length := by
  rcases chunkedReadTurn_cases h with ⟨-, line, hread, -⟩ | ⟨hneg, data, hlen, rfl, -⟩
  · exact evbufferReadln_shrinks hread
  · rw [List.length_append]
    omega

theorem chunkedReadTurn_stable (x : Bytes)
    (h : evhttpHandleChunkedReadTurn evcon req buf = some (r, rest)) :
    evhttpHandleChunkedReadTurn evcon req (buf ++ x) = some (r, rest ++ x) := by
  rcases chunkedReadTurn_cases h with ⟨hneg, line, hread, rfl⟩ | ⟨hneg, data, hlen, rfl, rfl⟩
  · exact chunkedReadTurn_line hneg (evbufferReadln_stable x hread)
  · rw [List.append_assoc]
    exact chunkedReadTurn_data hneg hlen (rest ++ x)

end Turn

/-- The loop of `evhttp_handle_chunked_read`, one line or one chunk a move. -/
def chunkMachine (evcon : EvhttpConnection) : Consumer ChunkDecoder UInt8 where
  move s buf :=
    if s.2 = none ∧ (s.1.ntoread < 0 ∨ 0 < toSize s.1.ntoread) then
      (evhttpHandleChunkedReadTurn evcon s.1 buf).map fun r => ((r.1.2, r.1.1), r.2)
    else none
  shrinks := by
    intro s buf s' rest h
    split at h
    · next hs =>
      obtain ⟨⟨r, rest'⟩, hturn, heq⟩ := Option.map_eq_some_iff.mp h
      obtain ⟨-, rfl⟩ := Prod.mk.inj heq
      exact chunkedReadTurn_shrinks hs.2 hturn
    · cases h
  stable := by
    intro s buf s' rest x h
    split at h
    · next hs =>
      obtain ⟨⟨r, rest'⟩, hturn, heq⟩ := Option.map_eq_some_iff.mp h
      obtain ⟨rfl, rfl⟩ := Prod.mk.inj heq
      rw [if_pos hs, chunkedReadTurn_stable x hturn]
      rfl
    · cases h

theorem Sane.ready (h : Sane req) : req.ntoread < 0 ∨ 0 < toSize req.ntoread := by
  rcases h with h | ⟨hpos, hlt⟩
  · exact .inl h
  refine .inr ?_
  rw [toSize]
  omega

theorem chunkMachine_move (h : Sane req) (buf : Bytes) :
    (chunkMachine evcon).move (req, none) buf =
      (evhttpHandleChunkedReadTurn evcon req buf).map fun r => ((r.1.2, r.1.1), r.2) := by
  simp [chunkMachine, h.ready]

theorem chunkMachine_ended (req : EvhttpRequest) (status : MessageReadStatus) (buf : Bytes) :
    (chunkMachine evcon).move (req, some status) buf = none := by
  simp [chunkMachine]

/-! ### What a turn keeps -/

/-- What holds of a chunked request between two turns. -/
structure ChunkedInv (evcon : EvhttpConnection) (req : EvhttpRequest) : Prop where
  sane : Sane req
  bodySize : req.bodySize ≤ evcon.maxBodySize
  /-- `input_buffer` is drained after each call of `chunk_cb`. -/
  drained : req.chunkCb ≠ none → req.inputBuffer = []

/-- What a turn keeps. -/
structure Turned (evcon : EvhttpConnection) (req : EvhttpRequest)
    (r : Option MessageReadStatus × EvhttpRequest) : Prop where
  chunked : r.2.chunked = req.chunked
  inv : ChunkedInv evcon req → r.1 = none → ChunkedInv evcon r.2

theorem readChunkSize_turned (p : Bytes) :
    Turned evcon req (evhttpReadChunkSize evcon req p) := by
  unfold evhttpReadChunkSize
  split
  · exact ⟨rfl, fun h _ => h⟩
  split
  · exact ⟨rfl, nofun⟩
  next n hn =>
  split
  · exact ⟨rfl, nofun⟩
  split
  · exact ⟨rfl, nofun⟩
  next hmax =>
  split
  · exact ⟨rfl, nofun⟩
  next hzero =>
  have hle := chunkSize_le hn
  simp only [EV_INT64_MAX] at hle
  refine ⟨rfl, fun h _ => ⟨.inr ?_, by simpa using hmax, h.drained⟩⟩
  dsimp only
  omega

theorem readChunkData_turned (data : Bytes) :
    Turned evcon req (evhttpReadChunkData req data) := by
  unfold evhttpReadChunkData
  dsimp only
  split
  · next hcb =>
    refine ⟨rfl, fun h _ => ⟨.inl (Int.negSucc_lt_zero 0), h.bodySize, ?_⟩⟩
    exact fun hne => absurd hcb hne
  · split
    · exact ⟨rfl, nofun⟩
    · exact ⟨rfl, fun h _ => ⟨.inl (Int.negSucc_lt_zero 0), h.bodySize, fun _ => rfl⟩⟩

theorem chunkedReadTurn_turned {rest : Bytes} {r : Option MessageReadStatus × EvhttpRequest}
    (h : evhttpHandleChunkedReadTurn evcon req buf = some (r, rest)) : Turned evcon req r := by
  rcases chunkedReadTurn_cases h with ⟨-, line, -, rfl⟩ | ⟨-, data, -, -, rfl⟩
  · exact readChunkSize_turned _
  · exact readChunkData_turned data

/-- The invariant when the machine has settled. -/
theorem chunkMachine_settled (h : ChunkedInv evcon req) (buf : Bytes) :
    let s := ((chunkMachine evcon).settle (req, none) buf).1
    Turned evcon req (s.2, s.1) := by
  refine Consumer.settle_induction (m := chunkMachine evcon)
    (P := fun (s : ChunkDecoder) _ => Turned evcon req (s.2, s.1)) ?_ ⟨rfl, fun h _ => h⟩
  rintro ⟨req1, _ | status⟩ buf s' rest hturned hmove
  · have hinv := hturned.inv h rfl
    rw [chunkMachine_move hinv.sane] at hmove
    obtain ⟨⟨⟨status, req'⟩, rest'⟩, hturn, heq⟩ := Option.map_eq_some_iff.mp hmove
    cases heq
    have hnext := chunkedReadTurn_turned hturn
    exact ⟨hnext.chunked.trans hturned.chunked, fun _ => hnext.inv hinv⟩
  · cases hmove

theorem chunkedReadTurn_nil (h : Sane req) : evhttpHandleChunkedReadTurn evcon req [] = none := by
  have hready := h.ready
  unfold evhttpHandleChunkedReadTurn
  split
  · rfl
  · next hneg =>
    rw [if_pos ⟨(h.resolve_left hneg).1, hready.resolve_left hneg⟩]

/-- The loop is the machine, on a buffer of at most `EV_SSIZE_MAX` bytes. -/
theorem chunkedReadLoop_eq (h : ChunkedInv evcon req) (fuel : Nat)
    (hbuf : buf.length ≤ EV_SSIZE_MAX) :
    evhttpHandleChunkedReadLoop evcon fuel req buf =
      let r := (chunkMachine evcon).settleFuel fuel (req, none) buf
      (r.1.2.getD .moreDataExpected, r.1.1, r.2) := by
  induction fuel generalizing req buf with
  | zero => rfl
  | succ fuel ih =>
    have hmove : (chunkMachine evcon).move (req, none) buf = _ := chunkMachine_move h.sane buf
    rw [evhttpHandleChunkedReadLoop, Consumer.settleFuel]
    by_cases hnil : buf = []
    · subst hnil
      rw [chunkedReadTurn_nil h.sane] at hmove
      rw [hmove]
      rfl
    rw [if_neg hnil, if_neg (by omega), hmove]
    cases hturn : evhttpHandleChunkedReadTurn evcon req buf with
    | none => rfl
    | some r =>
      obtain ⟨⟨_ | status, req'⟩, rest⟩ := r
      · have hshrinks := chunkedReadTurn_shrinks h.sane.ready hturn
        exact ih ((chunkedReadTurn_turned hturn).inv h rfl) (by omega)
      simp only [Option.map_some]
      rw [Consumer.settleFuel_of_none (chunkMachine_ended req' status rest)]
      rfl

/-- `evhttp_handle_chunked_read` is the machine, on a buffer of at most `EV_SSIZE_MAX` bytes. -/
theorem evhttpHandleChunkedRead_eq (h : ChunkedInv evcon req) (hbuf : buf.length ≤ EV_SSIZE_MAX) :
    evhttpHandleChunkedRead evcon req buf =
      let r := (chunkMachine evcon).settle (req, none) buf
      (r.1.2.getD .moreDataExpected, r.1.1, r.2) := by
  rw [evhttpHandleChunkedRead, chunkedReadLoop_eq h _ hbuf,
    Consumer.settleFuel_congr (k := buf.length) (Nat.le_succ _) le_rfl]
  rfl

/-! ### The chunks of a stream -/

/-- A chunk as it is written: the digits of its size, and its data. -/
structure Chunk where
  size : Bytes
  data : Bytes

/-- The size is written in hexadecimal digits, and the chunk is not empty. -/
structure Chunk.Valid (chunk : Chunk) : Prop where
  digits : ∀ b ∈ chunk.size, isDigitOf 16 b = true
  size_ne_nil : chunk.size ≠ []
  value : digitsValue 16 chunk.size = chunk.data.length
  data_ne_nil : chunk.data ≠ []

def Chunk.text (chunk : Chunk) : Bytes :=
  chunk.size ++ CRLF ++ (chunk.data ++ CRLF)

/-- The request after the data of a chunk. -/
def EvhttpRequest.addChunk (req : EvhttpRequest) (data : Bytes) : EvhttpRequest :=
  { (evhttpReadChunkData req data).2 with bodySize := req.bodySize + data.length }

/-- `chunk_cb` does not cancel the request. -/
def EvhttpRequest.Keeps (req : EvhttpRequest) : Prop := ∀ cb ∈ req.chunkCb, ∀ i, cb i = false

/-- What has been read of the body. -/
def EvhttpRequest.body (req : EvhttpRequest) : Bytes := req.seen.flatten ++ req.inputBuffer

section AddChunk

variable (req) (data : Bytes)

/-- The data stays in `input_buffer`, or `chunk_cb` has seen it. -/
theorem addChunk_eq : req.addChunk data = { req with
      ntoread := -1
      bodySize := req.bodySize + data.length
      inputBuffer := if req.chunkCb = none then req.inputBuffer ++ data else []
      seen := if req.chunkCb = none then req.seen else req.seen ++ [req.inputBuffer ++ data] } := by
  unfold EvhttpRequest.addChunk evhttpReadChunkData
  cases hcb : req.chunkCb with
  | none => simp
  | some cb => cases hfree : cb req.seen.length <;> simp [EvhttpRequest.callChunkCb, hfree]

@[simp] theorem addChunk_chunkCb : (req.addChunk data).chunkCb = req.chunkCb := by
  rw [addChunk_eq]

@[simp] theorem addChunk_ntoread : (req.addChunk data).ntoread = -1 := by
  rw [addChunk_eq]

@[simp] theorem addChunk_bodySize : (req.addChunk data).bodySize = req.bodySize + data.length := rfl

@[simp] theorem addChunk_body : (req.addChunk data).body = req.body ++ data := by
  rw [addChunk_eq, EvhttpRequest.body, EvhttpRequest.body]
  split <;> simp

@[simp] theorem addChunk_toHeaderState : (req.addChunk data).toHeaderState = req.toHeaderState := by
  rw [addChunk_eq]

end AddChunk

/-- A size is expected, `chunk_cb` does not cancel the request, and `n` further bytes are within the
limits. -/
structure EvhttpRequest.Expects (evcon : EvhttpConnection) (req : EvhttpRequest) (n : Nat) :
    Prop where
  ntoread : req.ntoread < 0
  keeps : req.Keeps
  int64 : req.bodySize + n ≤ EV_INT64_MAX
  limit : req.bodySize + n ≤ evcon.maxBodySize

theorem EvhttpRequest.Expects.mono {m : Nat} (h : req.Expects evcon n) (hmn : m ≤ n) :
    req.Expects evcon m :=
  ⟨h.ntoread, h.keeps, by have := h.int64; omega, by have := h.limit; omega⟩

theorem EvhttpRequest.Expects.addChunk
    (h : req.Expects evcon (data.length + n)) : (req.addChunk data).Expects evcon n := by
  refine ⟨by simp, by simpa [EvhttpRequest.Keeps] using h.keeps, ?_, ?_⟩
  · simpa [Nat.add_assoc] using h.int64
  · simpa [Nat.add_assoc] using h.limit

/-- The move over a line where a size is expected. -/
theorem chunkMachine_line (evcon : EvhttpConnection) (hneg : req.ntoread < 0) (hlf : LF ∉ line)
    (hnul : NUL ∉ line) (x : Bytes) :
    (chunkMachine evcon).settle (req, none) (line ++ CRLF ++ x) =
      (chunkMachine evcon).settle ((evhttpReadChunkSize evcon req line).2,
        (evhttpReadChunkSize evcon req line).1) x := by
  apply Consumer.settle_of_some
  rw [chunkMachine_move (.inl hneg), chunkedReadTurn_line hneg (evbufferReadln_crlf hlf x),
    cstr_of_not_mem hnul]
  rfl

/-- The move over a size within the limits. -/
theorem settle_size (hsize : IsSize size n) (h : req.Expects evcon n) (x : Bytes) :
    (chunkMachine evcon).settle (req, none) (size ++ CRLF ++ x) =
      (chunkMachine evcon).settle ({ req with bodySize := req.bodySize + n, ntoread := n },
        if n = 0 then some .allDataRead else none) x := by
  have hmax := h.int64
  have hlimit := h.limit
  have hint : EV_INT64_MAX ≤ EV_SIZE_MAX := by decide
  have hread : evhttpReadChunkSize evcon req size = (if n = 0 then some .allDataRead else none,
        { req with bodySize := req.bodySize + n, ntoread := n }) := by
    simp only [evhttpReadChunkSize, hsize.ne_nil, if_false, hsize.chunkSize_eq (by omega)]
    rw [if_neg (by omega), if_neg (by omega)]
    split <;> rfl
  rw [chunkMachine_line evcon h.ntoread hsize.lf hsize.nul, hread]

/-- The moves over the size of a chunk and its data. -/
theorem settle_chunk_data (hsize : IsSize size data.length) (hne : data ≠ [])
    (h : req.Expects evcon data.length) (x : Bytes) :
    (chunkMachine evcon).settle (req, none) (size ++ CRLF ++ (data ++ x)) =
      (chunkMachine evcon).settle (req.addChunk data, none) x := by
  have hpos : 0 < data.length := List.length_pos_iff.mpr hne
  have hmax := h.int64
  rw [settle_size hsize h, if_neg (by omega)]
  have hsane :
      Sane { req with bodySize := req.bodySize + data.length, ntoread := data.length } := by
    refine .inr ⟨?_, ?_⟩
    · dsimp only
      omega
    simp only [EV_INT64_MAX] at hmax
    dsimp only
    omega
  have hdata : (evhttpReadChunkData { req with
      bodySize := req.bodySize + data.length, ntoread := data.length } data) =
      (none, req.addChunk data) := by
    unfold EvhttpRequest.addChunk evhttpReadChunkData
    cases hcb : req.chunkCb with
    | none => rfl
    | some cb => simp [EvhttpRequest.callChunkCb, h.keeps cb hcb]
  apply Consumer.settle_of_some
  rw [chunkMachine_move hsane, chunkedReadTurn_data (by simp) (toSize_natCast (by omega)).symm,
    hdata]
  rfl

variable {chunk : Chunk}

theorem Chunk.Valid.isSize (h : chunk.Valid) : IsSize chunk.size chunk.data.length :=
  ⟨h.digits, h.size_ne_nil, h.value⟩

/-- The moves over a chunk and the line end behind it. -/
theorem settle_chunk (hvalid : chunk.Valid) (h : req.Expects evcon chunk.data.length)
    (x : Bytes) :
    (chunkMachine evcon).settle (req, none) (chunk.text ++ x) =
      (chunkMachine evcon).settle (req.addChunk chunk.data, none) x := by
  have htext : chunk.text ++ x = chunk.size ++ CRLF ++ (chunk.data ++ (CRLF ++ x)) := by
    simp [Chunk.text]
  rw [htext, settle_chunk_data hvalid.isSize hvalid.data_ne_nil h]
  have hnext : (req.addChunk chunk.data).ntoread < 0 := by simp
  have hblank := chunkMachine_line evcon hnext List.not_mem_nil List.not_mem_nil x
  rwa [evhttpReadChunkSize] at hblank

/-- The request after the data of some chunks. -/
def EvhttpRequest.addChunks (req : EvhttpRequest) (data : List Bytes) : EvhttpRequest :=
  data.foldl EvhttpRequest.addChunk req

/-- What the chunks change. Without a `chunk_cb` the data is in `input_buffer`, with one it has been
drained from there. -/
structure ChunksAdded (req : EvhttpRequest) (data : Bytes) (req' : EvhttpRequest) : Prop where
  chunkCb : req'.chunkCb = req.chunkCb
  headers : req'.toHeaderState = req.toHeaderState
  body : req'.body = req.body ++ data
  seen : req.chunkCb = none → req'.seen = req.seen
  drained : req.inputBuffer = [] → req.chunkCb ≠ none → req'.inputBuffer = []

theorem addChunks_added (req : EvhttpRequest) (data : List Bytes) :
    ChunksAdded req data.flatten (req.addChunks data) := by
  induction data generalizing req with
  | nil => exact ⟨rfl, rfl, (List.append_nil _).symm, fun _ => rfl, fun h _ => h⟩
  | cons first data ih =>
    have h := ih (req.addChunk first)
    refine ⟨?_, ?_, ?_, fun hcb => ?_, fun _ hcb => ?_⟩
    · exact h.chunkCb.trans (addChunk_chunkCb req first)
    · exact h.headers.trans (addChunk_toHeaderState req first)
    · exact h.body.trans (by simp)
    · exact (h.seen (by simpa using hcb)).trans (by simp [addChunk_eq, hcb])
    · exact h.drained (by simp [addChunk_eq, hcb]) (by simpa using hcb)

variable {chunks : List Chunk}

/-- The moves over some chunks, behind which `n` bytes are still within the limits. -/
theorem settle_chunks (hvalid : ∀ chunk ∈ chunks, chunk.Valid)
    (h : req.Expects evcon ((chunks.map Chunk.data).flatten.length + n)) (x : Bytes) :
    (chunkMachine evcon).settle (req, none) (chunks.flatMap Chunk.text ++ x) =
      (chunkMachine evcon).settle (req.addChunks (chunks.map Chunk.data), none) x ∧
      (req.addChunks (chunks.map Chunk.data)).Expects evcon n := by
  induction chunks generalizing req with
  | nil => exact ⟨rfl, h.mono (by simp)⟩
  | cons chunk chunks ih =>
    rw [List.map_cons, List.flatten_cons, List.length_append, Nat.add_assoc] at h
    rw [List.flatMap_cons, List.append_assoc,
      settle_chunk (hvalid chunk List.mem_cons_self) (h.mono (Nat.le_add_right _ _))]
    exact ih (fun c hc => hvalid c (List.mem_cons_of_mem chunk hc)) h.addChunk

/-- The text of a chunked body, up to the line of the last chunk. -/
def chunksText (chunks : List Chunk) (last : Bytes) : Bytes :=
  chunks.flatMap Chunk.text ++ (last ++ CRLF)

/-- The digits of the last chunk. -/
structure LastChunk (last : Bytes) : Prop where
  digits : ∀ b ∈ last, isDigitOf 16 b = true
  ne_nil : last ≠ []
  value : digitsValue 16 last = 0

theorem lastChunk_zero : LastChunk (ascii "0") :=
  ⟨List.all_eq_true.mp (by decide), by decide, by decide⟩

/-- The request when the last chunk has been read. -/
def EvhttpRequest.endChunks (req : EvhttpRequest) (data : List Bytes) : EvhttpRequest :=
  { req.addChunks data with ntoread := 0 }

theorem LastChunk.isSize (h : LastChunk last) : IsSize last 0 :=
  ⟨h.digits, h.ne_nil, h.value⟩

/-- On a part of the stream, the decoder ends at the line of the last chunk, or it waits for it. -/
theorem settle_chunksText (hvalid : ∀ chunk ∈ chunks, chunk.Valid) (hlast : LastChunk last)
    (h : req.Expects evcon (chunks.map Chunk.data).flatten.length) {pre more : Bytes}
    (hpre : pre <+: chunksText chunks last ++ more) :
    (∃ x, pre = chunksText chunks last ++ x ∧ (chunkMachine evcon).settle (req, none) pre =
      ((req.endChunks (chunks.map Chunk.data), some .allDataRead), x)) ∨
    (¬ chunksText chunks last <+: pre ∧
      ∃ req' buf, (chunkMachine evcon).settle (req, none) pre = ((req', none), buf)) := by
  obtain ⟨hchunks, hend⟩ := settle_chunks hvalid h (n := 0) (last ++ CRLF)
  have hline := settle_size hlast.isSize hend []
  rw [List.append_nil] at hline
  have hwhole := hchunks.trans hline
  have hended : ∀ s : ChunkDecoder, s.2 ≠ none → ∀ buf, (chunkMachine evcon).move s buf = none := by
    rintro ⟨req, _ | status⟩ hs buf
    · exact absurd rfl hs
    · exact chunkMachine_ended req status buf
  obtain ⟨hends, hafter⟩ := Consumer.final_settle_iff _ hended hwhole (by simp) hpre
  by_cases harrived : chunksText chunks last <+: pre
  · obtain ⟨x, rfl⟩ := harrived
    exact .inl ⟨x, rfl, hafter x rfl⟩
  refine .inr ⟨harrived, _, _, Prod.ext (Prod.ext rfl ?_) rfl⟩
  by_contra hne
  exact harrived (hends.mp hne)

/-! ### The start -/

/-- A request of which nothing was read yet, and whose `chunk_cb` does not cancel it. -/
structure EvhttpRequest.Fresh (req : EvhttpRequest) : Prop where
  ntoread : req.ntoread < 0
  bodySize : req.bodySize = 0
  inputBuffer : req.inputBuffer = []
  seen : req.seen = []
  keeps : req.Keeps

theorem EvhttpRequest.Fresh.inv (h : req.Fresh) (evcon : EvhttpConnection) : ChunkedInv evcon req :=
  ⟨.inl h.ntoread, by simp [h.bodySize], fun _ => h.inputBuffer⟩

theorem EvhttpRequest.Fresh.expects (h : req.Fresh) (hmax : n ≤ EV_INT64_MAX)
    (hlimit : n ≤ evcon.maxBodySize) : req.Expects evcon n :=
  ⟨h.ntoread, h.keeps, by rwa [h.bodySize, Nat.zero_add], by rwa [h.bodySize, Nat.zero_add]⟩

theorem EvhttpRequest.Fresh.body_eq (h : req.Fresh) : req.body = [] := by
  simp [EvhttpRequest.body, h.inputBuffer, h.seen]

/-- The last piece of a run. -/
theorem receiveAll_append (evcon : EvhttpConnection) (msg : Message) (pieces : List Bytes)
    (piece : Bytes) :
    evhttpReceiveAll evcon msg (pieces ++ [piece]) =
      evhttpReceive evcon (evhttpReceiveAll evcon msg pieces) piece := by
  simp [evhttpReceiveAll]

end Libevent
