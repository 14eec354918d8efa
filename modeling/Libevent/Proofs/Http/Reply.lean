import Libevent.Proofs.Http.Chunked

/-!
# `Libevent.Proofs.Http.Reply`: chunked replies are decoded to what was sent

`chunked_reply_iff` compares `evhttp_send_reply_chunk` and `evhttp_send_reply_end` with
`evhttp_handle_chunked_read`. The size of a chunk is printed as an `unsigned`, so that they agree on
every content exactly when all buffers are shorter than `2 ^ 32` bytes.
-/

namespace Libevent

open Lib

/-! ### `%x` -/

variable {n : Nat} {buf : Bytes}

theorem isDigitOf_hexDigit (h : n < 16) : isDigitOf 16 (hexDigit n) = true := by
  interval_cases n <;> decide

theorem digitValue_hexDigit (h : n < 16) : digitValue (hexDigit n) = some n := by
  interval_cases n <;> decide

/-- The digits of a number, least significant first, stand for the number. -/
theorem digitsValue_reverse {digits : List Nat} (h : ∀ d ∈ digits, d < 16) :
    digitsValue 16 (digits.reverse.map hexDigit) = Nat.ofDigits 16 digits := by
  induction digits with
  | nil => rfl
  | cons d digits ih =>
    have hd := digitValue_hexDigit (h d List.mem_cons_self)
    have htail := ih fun e he => h e (List.mem_cons_of_mem d he)
    unfold digitsValue at htail ⊢
    rw [List.reverse_cons, List.map_append, List.foldl_append, htail, Nat.ofDigits_cons]
    simp only [List.map_cons, List.map_nil, List.foldl_cons, List.foldl_nil, hd, Option.getD_some]
    rw [Nat.mul_comm, Nat.add_comm]

theorem printHex_isSize (n : Nat) : IsSize (printHex n) n := by
  unfold printHex
  split
  · next hn => exact ⟨List.all_eq_true.mp (by decide), by simp, hn.symm⟩
  next hn =>
  have hlt : ∀ d ∈ Nat.digits 16 n, d < 16 := fun d hd => Nat.digits_lt_base (by decide) hd
  refine ⟨?_, by simpa using Nat.digits_ne_nil_iff_ne_zero.mpr hn, ?_⟩
  · intro b hb
    obtain ⟨d, hd, rfl⟩ := List.mem_map.mp hb
    exact isDigitOf_hexDigit (hlt d (List.mem_reverse.mp hd))
  · rw [digitsValue_reverse hlt, Nat.ofDigits_digits]

theorem printHex_length (h : n < 2 ^ 32) : (printHex n).length ≤ 8 := by
  unfold printHex
  split
  · simp
  · rw [List.length_map, List.length_reverse]
    exact (Nat.digits_length_le_iff (by decide) n).mpr h

/-! ### What is written -/

/-- The chunk that `evhttp_send_reply_chunk` writes for a buffer that is not empty. -/
def replyChunk (databuf : Bytes) : Chunk := ⟨printHex (databuf.length % 2 ^ 32), databuf⟩

/-- The bytes written for the buffers and the end of a chunked reply. -/
def replyStream (reply : EvhttpReply) (bufs : List Bytes) : Bytes :=
  (evhttpSendReplyEnd (bufs.foldl evhttpSendReplyChunk reply)).output

/-- The buffers that are not empty. -/
def sentBufs (bufs : List Bytes) : List Bytes := bufs.filter (· ≠ [])

@[simp] theorem sentBufs_nil : sentBufs [] = [] := rfl

@[simp] theorem sentBufs_cons_nil (bufs : List Bytes) :
    sentBufs ([] :: bufs) = sentBufs bufs := by
  simp [sentBufs]

theorem sentBufs_cons (h : buf ≠ []) (bufs : List Bytes) :
    sentBufs (buf :: bufs) = buf :: sentBufs bufs := by
  simp [sentBufs, h]

theorem flatten_sentBufs (bufs : List Bytes) : (sentBufs bufs).flatten = bufs.flatten := by
  induction bufs with
  | nil => rfl
  | cons buf bufs ih =>
    by_cases hbuf : buf = []
    · subst hbuf
      simpa using ih
    · simpa [sentBufs_cons hbuf] using ih

variable {reply : EvhttpReply}

section
variable (hchunked : reply.chunked = true) (hneeds : evhttpResponseNeedsBody reply = true)
include hchunked hneeds

theorem evhttpSendReplyChunk_eq (buf : Bytes) : evhttpSendReplyChunk reply buf = { reply with
        output := reply.output ++ if buf = [] then [] else (replyChunk buf).text } := by
  by_cases hbuf : buf = []
  · subst hbuf
    simp [evhttpSendReplyChunk]
  · simp [evhttpSendReplyChunk, hbuf, hneeds, hchunked, replyChunk, Chunk.text]

theorem foldl_sendReplyChunk (bufs : List Bytes) : bufs.foldl evhttpSendReplyChunk reply =
      { reply with
        output := reply.output ++ (sentBufs bufs).flatMap fun buf => (replyChunk buf).text } := by
  induction bufs generalizing reply with
  | nil => simp
  | cons buf bufs ih =>
    rw [List.foldl_cons, evhttpSendReplyChunk_eq hchunked hneeds]
    rw [ih (by exact hchunked) (by exact hneeds)]
    by_cases hbuf : buf = []
    · subst hbuf
      simp
    · simp [sentBufs_cons hbuf, hbuf]

/-- The stream, with the blank line that follows the end marker. -/
theorem replyStream_eq (houtput : reply.output = []) (bufs : List Bytes) :
    replyStream reply bufs = chunksText ((sentBufs bufs).map replyChunk) (ascii "0") ++ CRLF := by
  rw [replyStream, foldl_sendReplyChunk hchunked hneeds, evhttpSendReplyEnd, if_pos hchunked]
  simp [houtput, chunksText, List.flatMap_map]

end

/-! ### Sending and decoding -/

/-- The decoder reads the body from the stream. Let the stream be `front`, which ends with the end
marker, and the blank line. On a part of the stream, `evhttp_handle_chunked_read` returns
`ALL_DATA_READ` exactly when `front` has arrived, and expects more data before. When it returns, it
has read the body, and what is behind `front` is left in the buffer. -/
def DecodesTo (evcon : EvhttpConnection) (req : EvhttpRequest) (stream body : Bytes) : Prop :=
  ∃ front, stream = front ++ CRLF ∧ ∀ pre, pre <+: stream →
    let (status, req', buf) := evhttpHandleChunkedRead evcon req pre
    (status = .allDataRead ↔ front <+: pre) ∧ (status ≠ .allDataRead → status = .moreDataExpected) ∧
      (status = .allDataRead → req'.body = body ∧ pre = front ++ buf)

variable {evcon : EvhttpConnection} {req : EvhttpRequest}

/-- A stream of chunks is decoded to their data. -/
theorem decodesTo_chunksText {chunks : List Chunk} {last : Bytes}
    (hvalid : ∀ chunk ∈ chunks, chunk.Valid) (hlast : LastChunk last) (hfresh : req.Fresh)
    (h : req.Expects evcon (chunks.map Chunk.data).flatten.length)
    (hfit : (chunksText chunks last ++ CRLF).length ≤ EV_SSIZE_MAX) :
    DecodesTo evcon req (chunksText chunks last ++ CRLF) (chunks.map Chunk.data).flatten := by
  refine ⟨chunksText chunks last, rfl, fun pre hpre => ?_⟩
  rw [evhttpHandleChunkedRead_eq (hfresh.inv evcon) (hpre.length_le.trans hfit)]
  rcases settle_chunksText hvalid hlast h hpre with ⟨x, rfl, hended⟩ | ⟨hnot, req', buf, hwaits⟩
  · rw [hended]
    refine ⟨⟨fun _ => ⟨x, rfl⟩, fun _ => rfl⟩, fun h => absurd rfl h, fun _ => ⟨?_, rfl⟩⟩
    have hbody := (addChunks_added req (chunks.map Chunk.data)).body
    rwa [hfresh.body_eq] at hbody
  · rw [hwaits]
    exact ⟨⟨nofun, fun h => absurd h hnot⟩, fun _ => rfl, nofun⟩

theorem valid_replyChunk (hne : buf ≠ []) (h : buf.length < 2 ^ 32) : (replyChunk buf).Valid := by
  have hsize := printHex_isSize (buf.length % 2 ^ 32)
  exact ⟨hsize.digits, hsize.ne_nil, hsize.value.trans (Nat.mod_eq_of_lt h), hne⟩

theorem map_data_replyChunk (bufs : List Bytes) :
    ((sentBufs bufs).map replyChunk).map Chunk.data = sentBufs bufs := by
  rw [List.map_map]
  exact List.map_id (sentBufs bufs)

/-- A chunk has at most twelve bytes besides its data. -/
theorem length_replyStream (bufs : List Bytes) :
    (chunksText ((sentBufs bufs).map replyChunk) (ascii "0") ++ CRLF).length ≤
      bufs.flatten.length + 12 * bufs.length + 5 := by
  have hchunks : ((sentBufs bufs).flatMap fun buf => (replyChunk buf).text).length ≤
      bufs.flatten.length + 12 * bufs.length := by
    induction bufs with
    | nil => simp
    | cons buf bufs ih =>
      have hsize : (printHex (buf.length % 2 ^ 32)).length ≤ 8 :=
        printHex_length (Nat.mod_lt _ (by decide))
      have hrest : (sentBufs (buf :: bufs)).flatMap (fun buf => (replyChunk buf).text) =
          (if buf = [] then [] else (replyChunk buf).text) ++
            (sentBufs bufs).flatMap fun buf => (replyChunk buf).text := by
        by_cases hbuf : buf = []
        · subst hbuf
          simp
        · simp [sentBufs_cons hbuf, hbuf]
      have hfirst : (if buf = [] then [] else (replyChunk buf).text).length ≤ buf.length + 12 := by
        split
        · simp
        simp only [Chunk.text, replyChunk, CRLF, List.length_append, List.length_cons,
          List.length_nil]
        omega
      rw [hrest, List.length_append, List.flatten_cons, List.length_append, List.length_cons]
      omega
  have hlast : (ascii "0").length = 1 := rfl
  simp only [chunksText, List.flatMap_map, List.length_append, CRLF, List.length_cons,
    List.length_nil] at hchunks ⊢
  omega

/-! ### Buffers that are too long -/

/-- A line that starts with a `Z` is not a size. -/
theorem chunkSize_z (l : Bytes) : chunkSize (90 :: l) = none := by
  have hbad : evutilStrtoll (90 :: l) 16 = (0, 90 :: l) :=
    strtoll_bad rfl (by decide) (by decide) rfl l
  simp only [chunkSize, hbad]
  rfl

/-- `n` bytes `Z`. -/
def zBuf (n : Nat) : Bytes := List.replicate n 90

theorem zBuf_succ (n : Nat) : zBuf (n + 1) = 90 :: zBuf n := List.replicate_succ

@[simp] theorem length_zBuf (n : Nat) : (zBuf n).length = n := List.length_replicate

theorem zBuf_ne_nil (h : n ≠ 0) : zBuf n ≠ [] := by
  rw [← List.length_pos_iff, length_zBuf]
  omega

/-- The decoder ended with an error or with a body that is shorter than `n`. -/
def Misreads (r : ChunkDecoder × Bytes) (n : Nat) : Prop :=
  r.1.2 = some .dataCorrupted ∨ (r.1.2 = some .allDataRead ∧ r.1.1.body.length < n)

/-- The size of a buffer of `2 ^ 32` bytes or more is not its length. -/
theorem misreads_long (hlong : 2 ^ 32 ≤ n) (h : req.Expects evcon n) (x : Bytes) :
    Misreads ((chunkMachine evcon).settle (req, none) ((replyChunk (zBuf n)).text ++ x))
      (req.body.length + n) := by
  have hsize := printHex_isSize (n % 2 ^ 32)
  have htext : (replyChunk (zBuf n)).text ++ x =
      printHex (n % 2 ^ 32) ++ CRLF ++ (zBuf n ++ (CRLF ++ x)) := by
    simp [Chunk.text, replyChunk]
  rw [htext]
  by_cases hzero : n % 2 ^ 32 = 0
  · -- the size is 0: the decoder takes it for the last chunk
    rw [settle_size hsize (h.mono (by omega)), if_pos hzero,
      Consumer.settle_of_none (chunkMachine_ended _ _ _)]
    refine .inr ⟨rfl, ?_⟩
    change req.body.length < req.body.length + n
    omega
  -- the rest of the buffer is taken for a size line
  obtain ⟨k, hk⟩ : ∃ k, n = n % 2 ^ 32 + (k + 1) := ⟨n - n % 2 ^ 32 - 1, by omega⟩
  have hsplit : zBuf n = zBuf (n % 2 ^ 32) ++ zBuf (k + 1) := by
    rw [zBuf, zBuf, zBuf, ← List.replicate_add, ← hk]
  rw [hsplit, List.append_assoc (zBuf _), settle_chunk_data (by rwa [length_zBuf])
    (zBuf_ne_nil hzero) (h.mono (by rw [length_zBuf]; omega))]
  have hnot (b : UInt8) (hb : b ≠ 90) : b ∉ zBuf (k + 1) :=
    fun hmem => hb (List.eq_of_mem_replicate hmem)
  have hnext : (req.addChunk (zBuf (n % 2 ^ 32))).ntoread < 0 := by simp
  rw [← List.append_assoc, chunkMachine_line evcon hnext (hnot LF (by decide))
    (hnot NUL (by decide))]
  have hbad : evhttpReadChunkSize evcon (req.addChunk (zBuf (n % 2 ^ 32))) (zBuf (k + 1)) =
      (some .dataCorrupted, req.addChunk (zBuf (n % 2 ^ 32))) := by
    rw [zBuf_succ, evhttpReadChunkSize, if_neg (by simp), chunkSize_z]
  rw [hbad, Consumer.settle_of_none (chunkMachine_ended _ _ _)]
  exact .inl rfl

/-- A stream with a buffer of `2 ^ 32` bytes or more is misread, when the buffers are full of `Z`.
-/
theorem misreads_stream {lens : List Nat} (hlong : ∃ n ∈ lens, 2 ^ 32 ≤ n)
    (h : req.Expects evcon lens.sum) (x : Bytes) :
    Misreads ((chunkMachine evcon).settle (req, none)
      ((sentBufs (lens.map zBuf)).flatMap (fun buf => (replyChunk buf).text) ++ x))
      (req.body.length + lens.sum) := by
  induction lens generalizing req with
  | nil => simp at hlong
  | cons n lens ih =>
    rw [List.sum_cons] at h ⊢
    by_cases hn : 2 ^ 32 ≤ n
    · rw [List.map_cons, sentBufs_cons (zBuf_ne_nil (by omega)), List.flatMap_cons,
        List.append_assoc]
      rcases misreads_long hn (h.mono (by omega)) _ with hbad | ⟨hended, hlen⟩
      · exact .inl hbad
      · exact .inr ⟨hended, by omega⟩
    obtain ⟨m, hm, hlong'⟩ := hlong
    have hrest : ∃ n ∈ lens, 2 ^ 32 ≤ n := by
      rcases List.mem_cons.mp hm with rfl | hm
      · exact absurd hlong' hn
      · exact ⟨m, hm, hlong'⟩
    by_cases hzero : n = 0
    · subst hzero
      rw [Nat.zero_add]
      exact ih hrest (h.mono (by omega))
    have hne := zBuf_ne_nil hzero
    have hvalid : (replyChunk (zBuf n)).Valid :=
      valid_replyChunk hne (by rw [length_zBuf]; omega)
    have hdata : (replyChunk (zBuf n)).data.length = n := length_zBuf n
    rw [List.map_cons, sentBufs_cons hne, List.flatMap_cons, List.append_assoc,
      settle_chunk hvalid (h.mono (by omega))]
    have h' : req.Expects evcon ((zBuf n).length + lens.sum) := by rwa [length_zBuf]
    have hnext := ih hrest h'.addChunk
    rwa [addChunk_body, List.length_append, length_zBuf, Nat.add_assoc] at hnext

/-- Buffers of the lengths `lens` are sent with `evhttp_send_reply_chunk` and then
`evhttp_send_reply_end` on a chunked reply. `evhttp_handle_chunked_read` reads the concatenation of
the buffers from what is written, whatever is in the buffers, exactly when each of them is shorter
than `2 ^ 32` bytes. The receiver allows a body of this length, and the stream fits in its input
buffer. -/
theorem chunked_reply_iff (evcon : EvhttpConnection) (req : EvhttpRequest) (hfresh : req.Fresh)
    (reply : EvhttpReply) (hchunked : reply.chunked = true)
    (hneeds : evhttpResponseNeedsBody reply = true) (houtput : reply.output = [])
    (lens : List Nat) (hmax : lens.sum ≤ evcon.maxBodySize)
    (hfit : lens.sum + 12 * lens.length + 5 ≤ EV_SSIZE_MAX) :
    (∀ bufs : List Bytes, bufs.map List.length = lens →
      DecodesTo evcon req (replyStream reply bufs) bufs.flatten) ↔
    ∀ n ∈ lens, n < 2 ^ 32 := by
  have hint : EV_SSIZE_MAX = EV_INT64_MAX := rfl
  have hexpects : req.Expects evcon lens.sum := hfresh.expects (by omega) hmax
  constructor
  · intro hdecodes n hn
    by_contra hlong
    have hlens : (lens.map zBuf).map List.length = lens := by
      rw [List.map_map]
      exact (List.map_congr_left fun n _ => length_zBuf n).trans (List.map_id lens)
    obtain ⟨front, hstream, hparts⟩ := hdecodes (lens.map zBuf) hlens
    have hlen : (replyStream reply (lens.map zBuf)).length ≤ EV_SSIZE_MAX := by
      rw [replyStream_eq hchunked hneeds houtput]
      refine (length_replyStream _).trans ?_
      rw [List.length_flatten, hlens, List.length_map]
      exact hfit
    have hread := hparts _ (List.prefix_refl _)
    rw [evhttpHandleChunkedRead_eq (hfresh.inv evcon) hlen] at hread
    obtain ⟨hends, -, hbody⟩ := hread
    have hended := hends.mpr ⟨CRLF, hstream.symm⟩
    have hmis : Misreads ((chunkMachine evcon).settle (req, none)
        (replyStream reply (lens.map zBuf))) (req.body.length + lens.sum) := by
      rw [replyStream_eq hchunked hneeds houtput, chunksText, List.flatMap_map, List.append_assoc]
      exact misreads_stream ⟨n, hn, by omega⟩ hexpects _
    rw [hfresh.body_eq] at hmis
    rcases hmis with hbad | ⟨-, hshort⟩
    · rw [hbad] at hended
      cases hended
    · rw [(hbody hended).1, List.length_flatten, hlens] at hshort
      simp at hshort
  · rintro hshort bufs rfl
    have hflat : (((sentBufs bufs).map replyChunk).map Chunk.data).flatten = bufs.flatten := by
      rw [map_data_replyChunk, flatten_sentBufs]
    have hlength : bufs.flatten.length = (bufs.map List.length).sum := List.length_flatten
    have hvalid : ∀ chunk ∈ (sentBufs bufs).map replyChunk, chunk.Valid := by
      intro chunk hmem
      obtain ⟨buf, hbuf, rfl⟩ := List.mem_map.mp hmem
      obtain ⟨hbuf, hne⟩ := List.mem_filter.mp hbuf
      exact valid_replyChunk (by simpa using hne) (hshort _ (List.mem_map_of_mem hbuf))
    rw [List.length_map] at hfit
    rw [replyStream_eq hchunked hneeds houtput, ← hflat]
    refine decodesTo_chunksText hvalid lastChunk_zero hfresh ?_ ?_
    · rwa [hflat, hlength]
    · exact (length_replyStream bufs).trans (by omega)

/-- Two buffers and an empty one between them. -/
theorem chunked_reply_three : (∀ bufs : List Bytes, bufs.map List.length = [3, 0, 20] →
      DecodesTo {} {} (replyStream { chunked := true } bufs) bufs.flatten) ↔
    ∀ n ∈ [3, 0, 20], n < 2 ^ 32 :=
  chunked_reply_iff {} {} ⟨by decide, rfl, rfl, rfl, nofun⟩ { chunked := true } rfl rfl rfl
    [3, 0, 20] (by decide) (by decide)

/-- A buffer whose length is a multiple of `2 ^ 32` is announced as a chunk of size 0. -/
theorem handleChunkedRead_multiple (hpos : 0 < n) (hmod : n % 2 ^ 32 = 0)
    (hfit : n + 17 ≤ EV_SSIZE_MAX) :
    ∃ req buf, evhttpHandleChunkedRead {} {} (replyStream { chunked := true } [zBuf n]) =
      (.allDataRead, req, buf) ∧ req.body = [] := by
  have hsent : sentBufs [zBuf n] = [zBuf n] := sentBufs_cons (zBuf_ne_nil hpos.ne') []
  have hfresh : ({} : EvhttpRequest).Fresh := ⟨by decide, rfl, rfl, rfl, nofun⟩
  have hzero : printHex ((zBuf n).length % 2 ^ 32) = ascii "0" := by
    rw [length_zBuf, hmod]
    rfl
  have heq : replyStream { chunked := true } [zBuf n] =
      chunksText ((sentBufs [zBuf n]).map replyChunk) (ascii "0") ++ CRLF :=
    replyStream_eq rfl rfl rfl [zBuf n]
  have hlen : (replyStream { chunked := true } [zBuf n]).length ≤ EV_SSIZE_MAX := by
    rw [heq]
    refine (length_replyStream _).trans ?_
    simpa using hfit
  obtain ⟨x, hstream⟩ : ∃ x, replyStream { chunked := true } [zBuf n] = ascii "0" ++ CRLF ++ x := by
    rw [heq, hsent]
    refine ⟨zBuf n ++ CRLF ++ (ascii "0" ++ CRLF) ++ CRLF, ?_⟩
    simp only [chunksText, List.map_cons, List.map_nil, List.flatMap_cons, List.flatMap_nil,
      Chunk.text, replyChunk, hzero, List.append_nil, List.append_assoc]
  have hline := settle_size lastChunk_zero.isSize
    (hfresh.expects (Nat.zero_le _) (Nat.zero_le ({} : EvhttpConnection).maxBodySize)) x
  rw [if_pos rfl, Consumer.settle_of_none (chunkMachine_ended _ _ _), ← hstream] at hline
  rw [evhttpHandleChunkedRead_eq (hfresh.inv {}) hlen, hline]
  exact ⟨_, _, rfl, rfl⟩

/-- The decoder takes the announcement of a buffer of `2 ^ 32` bytes for the end of the body. It has
read nothing. -/
theorem long_chunk_truncated :
    ∃ req buf, evhttpHandleChunkedRead {} {} (replyStream { chunked := true } [zBuf (2 ^ 32)]) =
      (.allDataRead, req, buf) ∧ req.body = [] :=
  handleChunkedRead_multiple (by decide) (by decide) (by decide)

end Libevent
