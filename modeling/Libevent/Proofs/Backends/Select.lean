import Libevent.Proofs.Backends.Map

/-!
# `Libevent.Proofs.Backends.Select`: what the select backend has registered

`SelectSet` relates a `struct selectop` to what is wanted of each fd: the bits of the two sets are
the conditions, nothing is wanted of an fd above `event_fds`, and the sets have room for that fd.
`selectStep_spec`: every step keeps this.
-/

namespace Libevent

/-! ### Sizes -/

/-- Enough doublings of a positive number pass any size, and keep its divisors. -/
theorem growFdsz_spec {k : Nat} (size : Nat) : ∀ fuel fdsz, 0 < fdsz → size ≤ fdsz + fuel →
    k ∣ fdsz → size ≤ growFdsz size fuel fdsz ∧ fdsz ≤ growFdsz size fuel fdsz ∧
      k ∣ growFdsz size fuel fdsz := by
  intro fuel
  induction fuel with
  | zero =>
    intro fdsz _ h hdvd
    exact ⟨h, Nat.le_refl _, hdvd⟩
  | succ fuel ih =>
    intro fdsz hpos h hdvd
    rw [growFdsz]
    split
    · -- a doubling adds at least one
      obtain ⟨hsize, hle, hdvd'⟩ := ih (fdsz * 2) (by omega) (by omega) (Dvd.dvd.mul_right hdvd 2)
      exact ⟨hsize, by omega, hdvd'⟩
    · exact ⟨by omega, Nat.le_refl _, hdvd⟩

variable {fd : Nat}

/-- What is allocated for `n` fds has the `fd_mask` of each of them. -/
theorem FdSet.inside_of_lt {set : FdSet} {n : Nat} (hbytes : selectAllocSize n ≤ set.bytes)
    (hfd : fd < n) : set.inside fd = true := by
  have hmask : (fd / 64 + 1) * 8 ≤ (n + 63) / 64 * 8 := by omega
  exact decide_eq_true (Nat.le_trans hmask hbytes)

/-! ### One set -/

namespace FdSet

variable {set set' : FdSet} {fd : Nat}

theorem put_spec (hin : set.inside fd = true) (cond b : Bool) :
    ∃ set', set.put cond fd b = .ok set' ∧ set'.bytes = set.bytes ∧
      ∀ x, set'.has x = if x = fd then (if cond then b else set.has fd) else set.has x := by
  cases cond with
  | true =>
    refine ⟨{ set with bit := fun i => if i = fd then b else set.bit i }, if_pos hin, rfl,
      fun x => ?_⟩
    show (set.inside x && if x = fd then b else set.bit x) = _
    split
    · next hx => rw [hx, hin, Bool.true_and, if_pos rfl]
    · rfl
  | false =>
    refine ⟨set, rfl, rfl, fun x => ?_⟩
    split
    · next hx => rw [hx, if_neg Bool.false_ne_true]
    · rfl

/-- A set that grows, with zeros in the new bytes. Its size is a whole number of `fd_mask`s. -/
theorem grow_spec (set : FdSet) {fdsz : Nat} (hdvd : SIZEOF_FD_MASK ∣ set.bytes)
    (hle : set.bytes ≤ fdsz) :
    ∃ set', ({ set with bytes := fdsz } : FdSet).zero set.bytes fdsz = .ok set' ∧
      set'.bytes = fdsz ∧ ∀ x, set'.has x = set.has x := by
  refine ⟨_, if_pos (Nat.le_refl fdsz), rfl, fun x => ?_⟩
  obtain ⟨masks, hmasks⟩ := hdvd
  have hmasks' : set.bytes = 8 * masks := hmasks
  show (decide ((x / 64 + 1) * 8 ≤ fdsz) &&
    if 8 * set.bytes ≤ x ∧ x < 8 * fdsz then false else set.bit x) =
    (decide ((x / 64 + 1) * 8 ≤ set.bytes) && set.bit x)
  by_cases hin : (x / 64 + 1) * 8 ≤ set.bytes
  · rw [if_neg (by omega), decide_eq_true hin, decide_eq_true (by omega)]
  rw [decide_eq_false hin, Bool.false_and]
  by_cases hnew : (x / 64 + 1) * 8 ≤ fdsz
  · -- the bit is one of the new bytes
    rw [if_pos (by omega), Bool.and_false]
  · rw [decide_eq_false hnew, Bool.false_and]

theorem copy_spec {source : FdSet} {n : Nat} (hset : n ≤ set.bytes) (hsource : n ≤ source.bytes) :
    ∃ set', set.copy source n = .ok set' ∧ set'.bytes = set.bytes :=
  ⟨_, if_pos ⟨hset, hsource⟩, rfl⟩

theorem report_spec {nfds : Nat} (hnfds : selectAllocSize nfds ≤ set.bytes) (ready : Nat → Bool) :
    ∃ set', set.report nfds ready = .ok set' ∧ set'.bytes = set.bytes :=
  ⟨_, if_pos hnfds, rfl⟩

end FdSet

/-! ### The two sets -/

/-- The state of the select backend, for what is wanted of the fds. -/
structure SelectSet (sop : SelectOp) (want : Nat → Interest) : Prop where
  read : ∀ fd, sop.eventReadsetIn.has fd = (want fd).read
  write : ∀ fd, sop.eventWritesetIn.has fd = (want fd).write
  above : ∀ fd, sop.eventFds < fd → (want fd).read = false ∧ (want fd).write = false
  room : selectAllocSize (sop.eventFds + 1) ≤ sop.eventFdsz
  masks : SIZEOF_FD_MASK ∣ sop.eventFdsz
  readBytes : sop.eventReadsetIn.bytes = sop.eventFdsz
  writeBytes : sop.eventWritesetIn.bytes = sop.eventFdsz
  outBytes : sop.eventReadsetOut.bytes ≤ sop.eventFdsz ∧ sop.eventWritesetOut.bytes ≤ sop.eventFdsz
  copied : sop.resizeOutSets = false → sop.eventReadsetOut.bytes = sop.eventFdsz ∧
    sop.eventWritesetOut.bytes = sop.eventFdsz
  selecting : ∀ n, sop.selecting = some n → 0 < n ∧ selectAllocSize n ≤ sop.eventReadsetOut.bytes ∧
    selectAllocSize n ≤ sop.eventWritesetOut.bytes
  mm : sop.mm.Reliable

section
variable {sop : SelectOp} {want : Nat → Interest} {readset writeset : FdSet}

section
variable (h : SelectSet sop want)
include h

theorem SelectSet.inside (hfd : fd ≤ sop.eventFds) :
    sop.eventReadsetIn.inside fd = true ∧ sop.eventWritesetIn.inside fd = true :=
  ⟨FdSet.inside_of_lt (h.readBytes.symm ▸ h.room) (Nat.lt_succ_of_le hfd),
    FdSet.inside_of_lt (h.writeBytes.symm ▸ h.room) (Nat.lt_succ_of_le hfd)⟩

/-- `select_resize` to a larger size. -/
theorem SelectSet.resize_spec {fdsz : Nat} (hle : sop.eventFdsz ≤ fdsz)
    (hmasks : SIZEOF_FD_MASK ∣ fdsz) :
    ∃ sop', selectResize sop fdsz = .ok (true, sop') ∧ SelectSet sop' want ∧
      sop'.eventFds = sop.eventFds ∧ sop'.eventFdsz = fdsz := by
  obtain ⟨readset, hread, hreadBytes, hreadHas⟩ := sop.eventReadsetIn.grow_spec
    (h.readBytes.symm ▸ h.masks) (h.readBytes.symm ▸ hle)
  obtain ⟨writeset, hwrite, hwriteBytes, hwriteHas⟩ := sop.eventWritesetIn.grow_spec
    (h.writeBytes.symm ▸ h.masks) (h.writeBytes.symm ▸ hle)
  have hmm := h.mm.alloc_fst
  have hmm' : sop.mm.alloc.2.alloc.1 = true := (Mm.reliable_alloc_snd.mpr h.mm).alloc_fst
  rw [h.readBytes] at hread
  rw [h.writeBytes] at hwrite
  refine ⟨{ sop with
    mm := sop.mm.alloc.2.alloc.2, resizeOutSets := true, eventReadsetIn := readset
    eventWritesetIn := writeset, eventFdsz := fdsz }, ?_, ?_, rfl, rfl⟩
  · rw [selectResize, if_neg (by simp [hmm])]
    simp only [hmm']
    show (FdSet.zero _ sop.eventFdsz fdsz >>= _) = _
    rw [hread]
    show (FdSet.zero _ sop.eventFdsz fdsz >>= _) = _
    rw [hwrite]
    rfl
  exact { h with
    read := fun fd => (hreadHas fd).trans (h.read fd)
    write := fun fd => (hwriteHas fd).trans (h.write fd)
    room := Nat.le_trans h.room hle
    masks := hmasks
    readBytes := hreadBytes
    writeBytes := hwriteBytes
    outBytes := ⟨Nat.le_trans h.outBytes.1 hle, Nat.le_trans h.outBytes.2 hle⟩
    copied := nofun }

/-- After `selectReserve` the sets have room for `fd`. -/
theorem SelectSet.reserve_spec (fd : Nat) :
    ∃ sop', selectReserve sop fd = .ok (true, sop') ∧ SelectSet sop' want ∧ fd ≤ sop'.eventFds := by
  have hraise : ∀ {sop' : SelectOp}, SelectSet sop' want → sop'.eventFds = sop.eventFds →
      sop.eventFds < fd → selectAllocSize (fd + 1) ≤ sop'.eventFdsz →
      SelectSet { sop' with eventFds := fd } want := by
    intro sop' h' hfds hlt hroom
    exact { h' with
      above := fun x hx => h'.above x (hfds.symm ▸ Nat.lt_trans hlt hx)
      room := hroom }
  rw [selectReserve]
  by_cases hlt : sop.eventFds < fd
  · rw [if_pos hlt]
    -- the size is positive already, so it is the start of the doublings
    have hpos : ¬ sop.eventFdsz < SIZEOF_FD_MASK := by
      have hroom := h.room
      have hone : 8 ≤ selectAllocSize (sop.eventFds + 1) := by
        show 8 ≤ (sop.eventFds + 1 + 63) / 64 * 8
        omega
      exact Nat.not_lt.mpr (Nat.le_trans hone hroom)
    simp only [if_neg hpos]
    obtain ⟨hbig, hle, hdvd⟩ := growFdsz_spec (selectAllocSize (fd + 1)) (selectAllocSize (fd + 1))
      sop.eventFdsz (Nat.lt_of_lt_of_le (by decide) (Nat.not_lt.mp hpos)) (Nat.le_add_left _ _)
      h.masks
    generalize growFdsz (selectAllocSize (fd + 1)) (selectAllocSize (fd + 1)) sop.eventFdsz = fdsz
      at hbig hle hdvd ⊢
    by_cases hsame : fdsz = sop.eventFdsz
    · rw [if_neg (not_not.mpr hsame)]
      exact ⟨_, rfl, hraise h rfl hlt (hsame ▸ hbig), Nat.le_refl fd⟩
    rw [if_pos hsame]
    obtain ⟨sop', heq, h', hfds, hfdsz⟩ := h.resize_spec hle hdvd
    rw [heq]
    exact ⟨_, rfl, hraise h' hfds hlt (hfdsz.symm ▸ hbig), Nat.le_refl fd⟩
  · rw [if_neg hlt]
    exact ⟨sop, rfl, h, Nat.not_lt.mp hlt⟩

/-- The bits of an fd that the sets have room for are written. -/
theorem SelectSet.put_spec {events : Nat} {i j : Interest} (hi : StandsFor events i)
    (hfd : fd ≤ sop.eventFds) (b : Bool) (hread : j.read = if i.read then b else (want fd).read)
    (hwrite : j.write = if i.write then b else (want fd).write) :
    ∃ sop', selectPut sop fd events b = .ok sop' ∧
      SelectSet sop' fun x => if x = fd then j else want x := by
  obtain ⟨hinr, hinw⟩ := h.inside hfd
  obtain ⟨readset, hreq, hrbytes, hrhas⟩ := FdSet.put_spec hinr i.read b
  obtain ⟨writeset, hweq, hwbytes, hwhas⟩ := FdSet.put_spec hinw i.write b
  refine ⟨{ sop with eventReadsetIn := readset, eventWritesetIn := writeset }, ?_, ?_⟩
  · rw [selectPut, hi.read, hi.write, hreq]
    show (FdSet.put _ i.write fd b >>= _) = _
    rw [hweq]
    rfl
  exact { h with
    read := by
      intro x
      rw [hrhas, h.read, h.read, ← hread]
      split <;> rfl
    write := by
      intro x
      rw [hwhas, h.write, h.write, ← hwrite]
      split <;> rfl
    above := by
      intro x hx
      have hne : x ≠ fd := by
        rintro rfl
        exact absurd hfd (Nat.not_le.mpr hx)
      rw [if_neg hne]
      exact h.above x hx
    readBytes := hrbytes.trans h.readBytes
    writeBytes := hwbytes.trans h.writeBytes }

end

theorem selectops_addKeeps (mask : Nat) :
    AddKeeps selectops (mask &&& EV_ET) fun sop _ want => SelectSet sop want := by
  intro sop pos want i h _ fd
  have hi := standsFor_et mask i
  obtain ⟨sop1, hreserve, h1, hfd⟩ := h.reserve_spec fd
  obtain ⟨sop', hput, h'⟩ := h1.put_spec (j := (want fd).or i) hi hfd true
    (by rw [Interest.or]; cases i.read <;> simp) (by rw [Interest.or]; cases i.write <;> simp)
  refine ⟨sop', pos fd, ?_, h'⟩
  show selectAdd sop fd (want fd).ev _ (pos fd) = _
  rw [selectAdd, if_neg (by simp [hi.signal]), hreserve]
  show (selectPut sop1 fd _ true >>= _) = _
  rw [hput]
  rfl

/-- `select_del` for conditions that are wanted. -/
theorem selectDel_spec (h : SelectSet sop want) (i : Interest) (fd old fdinfo : Nat) :
    ∃ sop' idx, selectDel sop fd old i.ev fdinfo = .ok (0, sop', idx) ∧
      SelectSet sop' fun x => if x = fd then (want fd).diff i else want x := by
  have hi := standsFor_ev i
  rw [selectDel, if_neg (by simp [hi.signal])]
  by_cases hlt : sop.eventFds < fd
  · -- nothing is wanted of an fd above the highest one
    rw [if_pos hlt]
    obtain ⟨hread, hwrite⟩ := h.above fd hlt
    refine ⟨sop, fdinfo, rfl, { h with read := ?_, write := ?_, above := ?_ }⟩
    · intro x
      rw [h.read]
      split
      · next hx => rw [hx, Interest.diff, hread]; rfl
      · rfl
    · intro x
      rw [h.write]
      split
      · next hx => rw [hx, Interest.diff, hwrite]; rfl
      · rfl
    · intro x hx
      split
      · rw [Interest.diff, hread, hwrite]
        exact ⟨rfl, rfl⟩
      · exact h.above x hx
  · rw [if_neg hlt]
    obtain ⟨sop', hput, h'⟩ := h.put_spec (j := (want fd).diff i) hi (Nat.not_lt.mp hlt) false
      (by rw [Interest.diff]; cases i.read <;> simp) (by rw [Interest.diff]; cases i.write <;> simp)
    refine ⟨sop', fdinfo, ?_, h'⟩
    rw [hput]
    rfl

/-! ### Dispatching -/

theorem selectLoop_spec {nfds : Nat} (hpos : 0 < nfds)
    (hread : selectAllocSize nfds ≤ readset.bytes) (hwrite : selectAllocSize nfds ≤ writeset.bytes)
    (j : Nat) : ∀ i, ∃ active, selectLoop readset writeset nfds j i = .ok active := by
  induction j with
  | zero =>
    intro i
    exact ⟨[], rfl⟩
  | succ j ih =>
    intro i
    have hnext : (if i + 1 ≥ nfds then 0 else i + 1) < nfds := by
      split <;> omega
    obtain ⟨active, hactive⟩ := ih (if i + 1 ≥ nfds then 0 else i + 1)
    have hr : readset.fdIsset (if i + 1 ≥ nfds then 0 else i + 1) = .ok (readset.bit _) :=
      if_pos (FdSet.inside_of_lt hread hnext)
    have hw : writeset.fdIsset (if i + 1 ≥ nfds then 0 else i + 1) = .ok (writeset.bit _) :=
      if_pos (FdSet.inside_of_lt hwrite hnext)
    simp only [selectLoop, hr, hw, hactive]
    exact ⟨_, rfl⟩

section
variable (h : SelectSet sop want)
include h

/-- The copies are as large as the sets, if they were not before. -/
theorem SelectSet.resizeOut_spec :
    ∃ sop', selectResizeOut sop = (true, sop') ∧ SelectSet sop' want ∧
      sop'.eventReadsetOut.bytes = sop'.eventFdsz ∧
      sop'.eventWritesetOut.bytes = sop'.eventFdsz := by
  cases hresize : sop.resizeOutSets with
  | false => exact ⟨sop, by simp [selectResizeOut, hresize], h, h.copied hresize⟩
  | true =>
    have hmm := h.mm.alloc_fst
    have hmm' : sop.mm.alloc.2.alloc.1 = true := (Mm.reliable_alloc_snd.mpr h.mm).alloc_fst
    refine ⟨{ sop with
      mm := sop.mm.alloc.2.alloc.2
      eventReadsetOut := { sop.eventReadsetOut with bytes := sop.eventFdsz }
      eventWritesetOut := { sop.eventWritesetOut with bytes := sop.eventFdsz }
      resizeOutSets := false }, by simp [selectResizeOut, hresize, hmm, hmm'], ?_, rfl, rfl⟩
    exact { h with
      outBytes := ⟨Nat.le_refl _, Nat.le_refl _⟩
      copied := fun _ => ⟨rfl, rfl⟩
      selecting := by
        intro n hn
        obtain ⟨hpos, hread, hwrite⟩ := h.selecting n hn
        exact ⟨hpos, Nat.le_trans hread h.outBytes.1, Nat.le_trans hwrite h.outBytes.2⟩ }

/-- The copies may have any bits. -/
theorem SelectSet.setOut (hread : readset.bytes = sop.eventReadsetOut.bytes)
    (hwrite : writeset.bytes = sop.eventWritesetOut.bytes) (selecting : Option Nat) (hselecting : ∀
      n, selecting = some n → 0 < n ∧ selectAllocSize n ≤ readset.bytes ∧ selectAllocSize n ≤
      writeset.bytes) (active : List (Nat × Nat)) :
    SelectSet { sop with
      eventReadsetOut := readset, eventWritesetOut := writeset
      selecting := selecting, active := active } want :=
  { h with
    outBytes := by
      rw [hread, hwrite]
      exact h.outBytes
    copied := by
      rw [hread, hwrite]
      exact h.copied
    selecting := hselecting }

theorem selectDispatch_spec : ∃ sop', selectDispatch sop = .ok sop' ∧ SelectSet sop' want := by
  obtain ⟨sop1, hout, h1, hread, hwrite⟩ := h.resizeOut_spec
  obtain ⟨readset, hcopyr, hrbytes⟩ := FdSet.copy_spec
    (Nat.le_of_eq hread.symm) (Nat.le_of_eq h1.readBytes.symm)
  obtain ⟨writeset, hcopyw, hwbytes⟩ := FdSet.copy_spec
    (Nat.le_of_eq hwrite.symm) (Nat.le_of_eq h1.writeBytes.symm)
  have hselecting : ∀ n, some (sop1.eventFds + 1) = some n → 0 < n ∧
      selectAllocSize n ≤ readset.bytes ∧ selectAllocSize n ≤ writeset.bytes := by
    intro n hn
    cases hn
    rw [hrbytes, hwbytes, hread, hwrite]
    exact ⟨Nat.succ_pos _, h1.room, h1.room⟩
  refine ⟨_, ?_, h1.setOut hrbytes hwbytes _ hselecting sop1.active⟩
  rw [selectDispatch, hout]
  show (FdSet.copy _ _ sop1.eventFdsz >>= _) = _
  rw [hcopyr]
  show (FdSet.copy _ _ sop1.eventFdsz >>= _) = _
  rw [hcopyw]
  rfl

theorem selectDispatched_spec (ready : Option ((Nat → Bool) × (Nat → Bool))) (start : Nat) :
    ∃ sop', selectDispatched ready start sop = .ok sop' ∧ SelectSet sop' want := by
  unfold selectDispatched
  cases hselecting : sop.selecting with
  | none => exact ⟨sop, rfl, h⟩
  | some nfds =>
    obtain ⟨hpos, hread, hwrite⟩ := h.selecting nfds hselecting
    cases ready with
    | none => exact ⟨_, rfl, h.setOut rfl rfl none nofun sop.active⟩
    | some ready =>
      obtain ⟨readable, writable⟩ := ready
      obtain ⟨readset, hreportr, hrbytes⟩ := FdSet.report_spec hread readable
      obtain ⟨writeset, hreportw, hwbytes⟩ := FdSet.report_spec hwrite writable
      obtain ⟨active, hactive⟩ := selectLoop_spec hpos (hrbytes.symm ▸ hread)
        (hwbytes.symm ▸ hwrite) nfds (start % nfds)
      refine ⟨_, ?_, h.setOut hrbytes hwbytes none nofun active⟩
      show (FdSet.report _ nfds readable >>= _) = _
      rw [hreportr]
      show (FdSet.report _ nfds writable >>= _) = _
      rw [hreportw]
      show (selectLoop _ _ nfds nfds (start % nfds) >>= _) = _
      rw [hactive]
      rfl

end

/-! ### The base -/

/-- `select_init` has room for the first fds, and nothing in its sets. -/
theorem selectInit_spec (memory : Nat → Bool) :
    ∃ sop, selectInit memory = .ok (some sop) ∧ SelectSet sop fun _ => Interest.empty := by
  let set : FdSet :=
    { bytes := 8, bit := fun i => if 8 * 0 ≤ i ∧ i < 8 * 8 then false else memory i }
  have hhas : ∀ fd, set.has fd = false := by
    intro fd
    show (decide ((fd / 64 + 1) * 8 ≤ 8) && if _ then false else memory fd) = false
    by_cases hfd : fd < 64
    · rw [if_pos (by omega), Bool.and_false]
    · rw [decide_eq_false (by omega), Bool.false_and]
  refine ⟨{
    eventFdsz := 8, resizeOutSets := true, eventReadsetIn := set, eventWritesetIn := set
    mm := { calls := 2 } }, rfl, ?_⟩
  exact {
    read := hhas
    write := hhas
    above := fun _ _ => ⟨rfl, rfl⟩
    room := show selectAllocSize 1 ≤ 8 by decide
    masks := Nat.dvd_refl 8
    readBytes := rfl
    writeBytes := rfl
    outBytes := ⟨Nat.zero_le 8, Nat.zero_le 8⟩
    copied := nofun
    selecting := nofun
    mm := fun _ => rfl }

/-- Every legal action succeeds and keeps what the select backend has registered. -/
theorem selectStep_spec {evs : EvId → Event} {m : Evmap SelectOp}
    (h : MapOk (fun sop _ want => SelectSet sop want) evs m) (debugMode : Bool) {a : FdAction}
    (hmem : ∀ ev, a = .del ev → 0 ≤ (evs ev).evFd → ev ∈ (m.io (evs ev).evFd.toNat).events) :
    ∃ m', selectStep debugMode evs m a = .ok m' ∧
      MapOk (fun sop _ want => SelectSet sop want) evs m' ∧
      ∀ x, (m'.io x).bare = ioAfter debugMode evs (fun x => (m.io x).bare) a x := by
  cases a with
  | add ev => exact h.add (selectops_addKeeps _) debugMode
  | del ev =>
    refine h.del selectops debugMode (hmem ev rfl) id @fun i fd _ _ => ?_
    exact selectDel_spec h.backend i fd (m.io fd).interest.ev (m.io fd).fdinfo
  | dispatch =>
    obtain ⟨sop, heq, hset⟩ := selectDispatch_spec h.backend
    refine ⟨{ m with evbase := sop }, ?_, ⟨h.mm, h.counts, h.bound, hset⟩, fun _ => rfl⟩
    rw [selectStep, heq]
    rfl
  | dispatched start revents ready =>
    obtain ⟨sop, heq, hset⟩ := selectDispatched_spec h.backend ready start
    refine ⟨{ m with evbase := sop }, ?_, ⟨h.mm, h.counts, h.bound, hset⟩, fun _ => rfl⟩
    rw [selectStep, heq]
    rfl

end

end Libevent
