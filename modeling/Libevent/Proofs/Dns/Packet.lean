import Libevent.Dns.Packet
import Libevent.Proofs.Http.Lines

/-!
# `Libevent.Proofs.Dns.Packet`: names in DNS packets

`nameRound_eq` says what a round of `name_parse` does once its checks are done: no round reads or
writes outside of the arrays. `nameParse_total`: the loop ends, because a jump uses up one of
`length` jumps and a label moves `j` forward.

`Decodes lo` is the grammar of a name, with the length bytes from `lo` on for pointers; it mentions
no reader. `name_parse` follows all of those from 64 on (`nameParse_decodes`), where the RFC has
pointers from 192 on. `nameParse_exact_iff` is the condition under which this makes no difference,
and `requestParse_standard_iff` the one for the queries of the server, whose opcode is never seen.
`reserved_byte_accepted` and `opcode_passed` are packets outside of these conditions.
-/

namespace Libevent

/-- Two parts of a name, with a dot between them. -/
def joinDot (a b : Bytes) : Bytes :=
  if a = [] then b else if b = [] then a else a ++ DOT :: b

/-- A round of the loop, read off the packet. -/
def nameNext (packet : Bytes) (n : Nat) (s : NameState) : NameNext :=
  match packet[s.j]? with
  | none => .fail
  | some b =>
    if b = 0 then if n ≤ s.out.length then .fail else .done s.out (s.nameEnd.getD (s.j + 1))
    else if 64 ≤ b then
      match packet[s.j + 1]? with
      | none => .fail
      | some low =>
        if packet.length ≤ pointerTarget b low ∨ packet.length ≤ s.ptrCount then .fail
        else .go { s with j := pointerTarget b low, nameEnd := some (s.nameEnd.getD (s.j + 2)),
                          ptrCount := s.ptrCount + 1 }
    else
      let out := joinDot s.out ((packet.drop (s.j + 1)).take b.toNat)
      if n ≤ out.length ∨ packet.length < s.j + 1 + b.toNat then .fail
      else .go { s with j := s.j + 1 + b.toNat, out := out }

variable {packet : Bytes} {n j : Nat} {s : NameState} {b : UInt8}

/-- Reading a byte of the packet. -/
theorem packetRead_one (h : packet[j]? = some b) : packetRead packet j 1 = .ok [b] := by
  obtain ⟨hj, rfl⟩ := List.getElem?_eq_some_iff.mp h
  rw [packetRead, if_pos (by omega), List.drop_eq_getElem_cons hj]
  rfl

/-- `0xc0` tests for one of the top bits. -/
theorem pointer_bits (b : UInt8) : b &&& 0xc0 ≠ 0 ↔ 64 ≤ b := by
  obtain ⟨v⟩ := b
  revert v
  decide +kernel

/-- A round reads and writes inside of the arrays only. -/
theorem nameRound_eq : nameRound packet n s = .ok (nameNext packet n s) := by
  unfold nameRound nameNext
  cases hb : packet[s.j]? with
  | none => rw [if_pos (List.getElem?_eq_none_iff.mp hb)]; rfl
  | some b =>
    have hj := (List.getElem?_eq_some_iff.mp hb).1
    rw [if_neg hj.not_ge]
    simp only [packetRead_one hb, pointer_bits, List.headD_cons, Except.bind, bind, Except.pure,
      pure]
    by_cases hzero : b = 0
    · simp only [if_pos hzero]
      grind [nameWrite]
    by_cases hptr : 64 ≤ b
    · simp only [if_neg hzero, if_pos hptr]
      cases hlow : packet[s.j + 1]? with
      | none => rw [if_pos (List.getElem?_eq_none_iff.mp hlow)]
      | some low =>
        have hj' := (List.getElem?_eq_some_iff.mp hlow).1
        simp only [packetRead_one hlow, if_neg hj'.not_ge, List.headD_cons]
        grind
    · have hpos : b.toNat ≠ 0 := UInt8.toNat_inj.not.mpr hzero
      have hlen := List.length_take (i := b.toNat) (l := packet.drop (s.j + 1))
      simp only [if_neg hzero, if_neg hptr]
      grind [nameWrite, packetRead, joinDot, UInt8.lt_iff_toNat_lt, UInt8.le_iff_toNat_le]

/-- What a round that goes on can do: a jump that is counted, or a label that moves `j` forward. -/
theorem nameNext_go {s' : NameState} (h : nameNext packet n s = .go s') :
    ∃ b, packet[s.j]? = some b ∧ b ≠ 0 ∧
      ((64 ≤ b ∧ ∃ low, packet[s.j + 1]? = some low ∧ pointerTarget b low < packet.length ∧
          s.ptrCount < packet.length ∧
          s' = ⟨pointerTarget b low, some (s.nameEnd.getD (s.j + 2)), s.ptrCount + 1, s.out⟩) ∨
        (b < 64 ∧ s.j + 1 + b.toNat ≤ packet.length ∧
          s' = { s with j := s.j + 1 + b.toNat,
                        out := joinDot s.out ((packet.drop (s.j + 1)).take b.toNat) })) := by
  unfold nameNext at h
  split at h
  · cases h
  rename_i b hb
  refine ⟨b, hb, ?_⟩
  split_ifs at h with hzero _ hptr
  · split at h
    · cases h
    rename_i low hlow
    split_ifs at h with hbad
    cases h
    exact ⟨hzero, .inl ⟨hptr, low, hlow, by omega, by omega, rfl⟩⟩
  · dsimp only at h
    split_ifs at h with hbad
    cases h
    exact ⟨hzero, .inr ⟨UInt8.not_le.mp hptr, by omega, rfl⟩⟩

/-- The loop ends at a zero byte, with room for the `NUL`. -/
theorem nameNext_done {name : Bytes} {e : Nat} (h : nameNext packet n s = .done name e) :
    packet[s.j]? = some 0 ∧ s.out.length < n ∧ name = s.out ∧ e = s.nameEnd.getD (s.j + 1) := by
  unfold nameNext at h
  grind

/-- A run is a round and then the rest of the run. -/
theorem nameLoop_succ (fuel : Nat) : nameLoop packet n (fuel + 1) s =
    match nameNext packet n s with
    | .fail => .ok none
    | .done name idx => .ok (some (name, idx))
    | .go s => nameLoop packet n fuel s := by
  rw [nameLoop, nameRound_eq]
  rfl

/-- A run of the loop ends without a fault. The fuel that is needed is counted in jumps, each of
which allows `length` steps to a next label. -/
theorem nameLoop_total {idx fuel : Nat} (hidx : idx < s.nameEnd.getD (s.j + 1))
    (hend : s.nameEnd.getD 0 ≤ packet.length)
    (hfuel : (packet.length - s.ptrCount) * (packet.length + 1) + (packet.length - s.j) < fuel) :
    ∃ r, nameLoop packet n fuel s = .ok r ∧
      ∀ name e, r = some (name, e) → name.length + 1 ≤ n ∧ idx < e ∧ e ≤ packet.length := by
  induction fuel generalizing s with
  | zero => omega
  | succ fuel ih =>
    rw [nameLoop_succ]
    cases hnext : nameNext packet n s with
    | fail => exact ⟨none, rfl, nofun⟩
    | done name e =>
      obtain ⟨hzero, hlen, rfl, rfl⟩ := nameNext_done hnext
      refine ⟨_, rfl, fun _ _ h => ?_⟩
      cases h
      have := (List.getElem?_eq_some_iff.mp hzero).1
      cases hs : s.nameEnd <;> simp_all
    | go s' =>
      obtain ⟨b, hb, -, ⟨-, low, hlow, htarget, hcount, rfl⟩ | ⟨-, hbound, rfl⟩⟩ :=
        nameNext_go hnext
      · have := (List.getElem?_eq_some_iff.mp hlow).1
        refine ih ?_ ?_ ?_
        · cases hs : s.nameEnd <;> simp_all; omega
        · cases hs : s.nameEnd <;> simp_all; omega
        · obtain ⟨k, hk⟩ := Nat.exists_eq_add_of_lt hcount
          simp only [show packet.length - s.ptrCount = k + 1 by omega, Nat.succ_mul,
            show packet.length - (s.ptrCount + 1) = k by omega] at hfuel ⊢
          omega
      · refine ih ?_ hend ?_
        · cases hs : s.nameEnd <;> simp_all; omega
        have := (List.getElem?_eq_some_iff.mp hb).1
        simp only
        omega

/-- The fuel of `nameParse` is enough for every start. -/
theorem nameParse_fuel (packet : Bytes) (idx : Nat) :
    packet.length * (packet.length + 1) + (packet.length - idx)
      < (packet.length + 1) * (packet.length + 1) := by
  rw [Nat.succ_mul]
  omega

/-- `name_parse` ends on every packet without a fault. A name fits into the output, and `*idx` moves
forward inside of the packet. -/
theorem nameParse_total (packet : Bytes) (idx n : Nat) :
    ∃ r, nameParse packet idx n = .ok r ∧
      ∀ name e, r = some (name, e) → name.length + 1 ≤ n ∧ idx < e ∧ e ≤ packet.length :=
  nameLoop_total (Nat.lt_succ_self _) (Nat.zero_le _) (nameParse_fuel packet idx)

/-! ### The grammar -/

/-- From `j` on the packet holds the name, its labels joined by dots. It takes `jumps` jumps, and
`e` is the place behind it. A length byte from `lo` on starts a pointer. -/
inductive Decodes (lo : UInt8) (packet : Bytes) : Nat → Bytes → Nat → Nat → Prop
  | zero {j : Nat} (h : packet[j]? = some 0) : Decodes lo packet j [] 0 (j + 1)
  | label {j jumps e : Nat} {b : UInt8} {name : Bytes} (hb : packet[j]? = some b)
      (hpos : b ≠ 0) (hshort : b < 64) (hbound : j + 1 + b.toNat ≤ packet.length)
      (h : Decodes lo packet (j + 1 + b.toNat) name jumps e) :
      Decodes lo packet j (joinDot ((packet.drop (j + 1)).take b.toNat) name) jumps e
  | pointer {j jumps e : Nat} {b low : UInt8} {name : Bytes} (hb : packet[j]? = some b)
      (hlo : lo ≤ b) (hlow : packet[j + 1]? = some low)
        (hbound : pointerTarget b low < packet.length)
      (h : Decodes lo packet (pointerTarget b low) name jumps e) :
      Decodes lo packet j name (jumps + 1) (j + 2)

/-- The places of the length bytes that are met on the way from a place to the zero byte, when every
length byte from 64 on is followed as a pointer. The way ends at a zero byte and at the end of the
packet. -/
inductive Reaches (packet : Bytes) : Nat → Nat → Prop
  | refl {j : Nat} : Reaches packet j j
  | label {j k : Nat} {b : UInt8} (hb : packet[j]? = some b) (hpos : b ≠ 0) (hshort : b < 64)
      (hbound : j + 1 + b.toNat ≤ packet.length) (h : Reaches packet (j + 1 + b.toNat) k) :
      Reaches packet j k
  | pointer {j k : Nat} {b low : UInt8} (hb : packet[j]? = some b) (hlo : 64 ≤ b)
      (hlow : packet[j + 1]? = some low) (hbound : pointerTarget b low < packet.length)
      (h : Reaches packet (pointerTarget b low) k) : Reaches packet j k

/-- Every length byte that is met from `idx` on has both of its top bits set or none. -/
def NoReserved (packet : Bytes) (idx : Nat) : Prop :=
  ∀ k b, Reaches packet idx k → packet[k]? = some b → b < 64 ∨ 192 ≤ b

variable {name : Bytes} {jumps e fuel : Nat}

/-- A name stays one when pointers may start at smaller length bytes. -/
theorem Decodes.mono {lo lo' : UInt8} (hlo : lo' ≤ lo) (h : Decodes lo packet j name jumps e) :
    Decodes lo' packet j name jumps e := by
  induction h with
  | zero h => exact .zero h
  | label hb hpos hshort hbound _ ih => exact .label hb hpos hshort hbound ih
  | pointer hb hptr hlow hbound _ ih => exact .pointer hb (UInt8.le_trans hlo hptr) hlow hbound ih

/-- On a way without reserved length bytes, every pointer has both top bits. -/
theorem Decodes.plain (hplain : NoReserved packet j) (h : Decodes 64 packet j name jumps e) :
    Decodes 192 packet j name jumps e := by
  induction h with
  | zero h => exact .zero h
  | label hb hpos hshort hbound _ ih =>
    exact .label hb hpos hshort hbound
      (ih fun k c hk => hplain k c (.label hb hpos hshort hbound hk))
  | pointer hb hptr hlow hbound _ ih =>
    have hboth := (hplain _ _ .refl hb).resolve_left (UInt8.not_lt.mpr hptr)
    exact .pointer hb hboth hlow hbound
      (ih fun k c hk => hplain k c (.pointer hb hptr hlow hbound hk))

/-- A name whose pointers have both top bits meets no reserved length byte. -/
theorem Decodes.noReserved (h : Decodes 192 packet j name jumps e) : NoReserved packet j := by
  induction h with
  | zero hzero =>
    intro k b hk hb
    cases hk with
    | refl => cases hzero.symm.trans hb; exact .inl (by decide)
    | label hb' hpos => cases hzero.symm.trans hb'; exact absurd rfl hpos
    | pointer hb' hlo => cases hzero.symm.trans hb'; exact absurd hlo (by decide)
  | label hfirst _ hshort _ _ ih =>
    intro k b hk hb
    cases hk with
    | refl => cases hfirst.symm.trans hb; exact .inl hshort
    | label hb' _ _ _ hk => cases hfirst.symm.trans hb'; exact ih k b hk hb
    | pointer hb' hlo => cases hfirst.symm.trans hb'; exact absurd hlo (UInt8.not_le.mpr hshort)
  | pointer hfirst hptr hsecond _ _ ih =>
    intro k b hk hb
    cases hk with
    | refl => cases hfirst.symm.trans hb; exact .inr hptr
    | label hb' _ hshort =>
      cases hfirst.symm.trans hb'
      exact absurd (UInt8.lt_of_le_of_lt hptr hshort) (by decide)
    | pointer hb' _ hlow _ hk =>
      cases hfirst.symm.trans hb'
      cases hsecond.symm.trans hlow
      exact ih k b hk hb

/-- Nothing is joined without a dot. -/
theorem joinDot_nil (a : Bytes) : joinDot a [] = a := by
  unfold joinDot
  split <;> simp_all

/-- The order in which parts are joined does not matter. -/
theorem joinDot_assoc (a b c : Bytes) : joinDot (joinDot a b) c = joinDot a (joinDot b c) := by
  unfold joinDot
  split_ifs <;> simp_all

/-- Joining makes no part shorter. -/
theorem length_le_joinDot (a b : Bytes) : a.length ≤ (joinDot a b).length := by
  unfold joinDot
  split_ifs <;> simp_all

/-- What a run of the loop returns stands in the packet. -/
theorem Decodes.of_nameLoop (h : nameLoop packet n fuel s = .ok (some (name, e)))
    (hcount : s.ptrCount ≤ packet.length) :
    ∃ rest jumps e', Decodes 64 packet s.j rest jumps e' ∧ s.ptrCount + jumps ≤ packet.length ∧
      name = joinDot s.out rest ∧ name.length < n ∧ e = s.nameEnd.getD e' := by
  induction fuel generalizing s with
  | zero => cases h
  | succ fuel ih =>
    rw [nameLoop_succ] at h
    cases hnext : nameNext packet n s with
    | fail => rw [hnext] at h; cases h
    | done name' e' =>
      obtain ⟨hzero, hlen, rfl, rfl⟩ := nameNext_done hnext
      rw [hnext] at h
      cases h
      exact ⟨[], 0, _, .zero hzero, hcount, (joinDot_nil _).symm, hlen, rfl⟩
    | go s' =>
      rw [hnext] at h
      obtain ⟨b, hb, hpos, ⟨hptr, low, hlow, htarget, hleft, rfl⟩ | ⟨hshort, hbound, rfl⟩⟩ :=
        nameNext_go hnext
      · obtain ⟨rest, jumps, e', hd, hjumps, hname, hlen, rfl⟩ := ih h hleft
        exact ⟨rest, jumps + 1, _, .pointer hb hptr hlow htarget hd,
          (Nat.add_right_comm ..).symm.trans_le hjumps, hname, hlen, rfl⟩
      · obtain ⟨rest, jumps, e', hd, hjumps, rfl, hrest⟩ := ih h hcount
        exact ⟨_, jumps, e', .label hb hpos hshort hbound hd, hjumps, joinDot_assoc .., hrest⟩

/-- A run of the loop returns what stands in the packet. -/
theorem Decodes.nameLoop {r : Option (Bytes × Nat)} (h : nameLoop packet n fuel s = .ok r)
    (hd : Decodes 64 packet s.j name jumps e) (hjumps : s.ptrCount + jumps ≤ packet.length)
    (hlen : (joinDot s.out name).length < n) : r = some (joinDot s.out name, s.nameEnd.getD e) := by
  induction fuel generalizing s name jumps e with
  | zero => cases h
  | succ fuel ih =>
    rw [nameLoop_succ, nameNext] at h
    cases hd with
    | zero hzero =>
      rw [joinDot_nil] at hlen ⊢
      rw [hzero] at h
      simp only [if_pos, if_neg hlen.not_ge] at h
      cases h
      rfl
    | @label _ _ _ b name hb hpos hshort hbound hd =>
      rw [← joinDot_assoc] at hlen ⊢
      have hout := Nat.lt_of_le_of_lt (length_le_joinDot _ _) hlen
      rw [hb] at h
      simp only [if_neg hpos, if_neg (UInt8.not_le.mpr hshort),
        if_neg (not_or.mpr ⟨hout.not_ge, hbound.not_gt⟩)] at h
      have hr := ih h hd hjumps hlen
      exact hr
    | @pointer _ jumps _ b low _ hb hptr hlow htarget hd =>
      have hpos : b ≠ 0 := by rintro rfl; exact absurd hptr (by decide)
      have hleft : s.ptrCount < packet.length := by omega
      rw [hb, hlow] at h
      simp only [if_neg hpos, if_pos hptr, if_neg (not_or.mpr ⟨htarget.not_ge, hleft.not_ge⟩)] at h
      have hr := ih h hd ((Nat.add_right_comm ..).trans_le hjumps) hlen
      exact hr

/-- The name that `name_parse` finds at `j`, when pointers start at the length byte `lo`: it takes
not more than `length` jumps and leaves room for the `NUL` in `n` bytes. -/
def NameAt (lo : UInt8) (packet : Bytes) (n j : Nat) (name : Bytes) (e : Nat) : Prop :=
  ∃ jumps, Decodes lo packet j name jumps e ∧ jumps ≤ packet.length ∧ name.length < n

/-- `name_parse` decodes the names in which each length byte from 64 on is a pointer. -/
theorem nameParse_decodes (packet : Bytes) (idx n : Nat) (name : Bytes) (e : Nat) :
    nameParse packet idx n = .ok (some (name, e)) ↔ NameAt 64 packet n idx name e := by
  constructor
  · intro h
    obtain ⟨_, jumps, _, hd, hjumps, rfl, hlen, rfl⟩ := Decodes.of_nameLoop h (Nat.zero_le _)
    exact ⟨jumps, hd, Nat.zero_add jumps ▸ hjumps, hlen⟩
  · rintro ⟨jumps, hd, hjumps, hlen⟩
    obtain ⟨r, hr, -⟩ := nameLoop_total (n := n) (s := { j := idx }) (Nat.lt_succ_self _)
      (Nat.zero_le _) (nameParse_fuel packet idx)
    exact hr.trans (congrArg _ (Decodes.nameLoop hr hd ((Nat.zero_add jumps).trans_le hjumps) hlen))

/-- A place holds one name. -/
theorem NameAt.unique {idx e' : Nat} {name' : Bytes} (h : NameAt 64 packet n idx name e)
    (h' : NameAt 64 packet n idx name' e') : name = name' ∧ e = e' := by
  have hboth := ((nameParse_decodes ..).mpr h).symm.trans ((nameParse_decodes ..).mpr h')
  exact Prod.mk.inj (Option.some.inj (Except.ok.inj hboth))

/-- The names of the grammar are those that `name_parse` decodes without a reserved length byte. -/
theorem nameAt_strict {idx : Nat} :
    NameAt 192 packet n idx name e ↔ NameAt 64 packet n idx name e ∧ NoReserved packet idx :=
  ⟨fun ⟨jumps, hd, h⟩ => ⟨⟨jumps, hd.mono (by decide), h⟩, hd.noReserved⟩,
    fun ⟨⟨jumps, hd, h⟩, hplain⟩ => ⟨jumps, hd.plain hplain, h⟩⟩

/-- `name_parse` decodes exactly the names of the grammar if and only if no reserved length byte is
on the way to a zero byte that ends a name. -/
theorem nameParse_exact_iff (packet : Bytes) (idx n : Nat) :
    (∀ name e, nameParse packet idx n = .ok (some (name, e)) ↔ NameAt 192 packet n idx name e) ↔
      ∀ name e, NameAt 64 packet n idx name e → NoReserved packet idx := by
  constructor
  · intro h name e hname
    exact (nameAt_strict.mp ((h name e).mp ((nameParse_decodes ..).mpr hname))).2
  intro h name e
  rw [nameParse_decodes, nameAt_strict]
  exact ⟨fun hname => ⟨hname, h name e hname⟩, And.left⟩

/-- The byte behind the name is not on the way to its zero byte. -/
theorem nameParse_exact_label : NameAt 192 [1, 97, 0, 64] 256 0 [97] 3 := by
  refine ((nameParse_exact_iff [1, 97, 0, 64] 0 256).mpr (fun _ _ _ => ?_) [97] 3).mp rfl
  have hname : Decodes 192 [1, 97, 0, 64] 0 (joinDot [97] []) 0 3 :=
    .label (b := 1) rfl (by decide) (by decide) (by decide) (.zero rfl)
  exact hname.noReserved

/-- The length byte 64 has one top bit: it is read as a pointer to the zero byte at 2. -/
theorem reserved_byte_accepted : nameParse [64, 2, 0] 0 256 = .ok (some ([], 2)) ∧
    ∀ name jumps e, ¬Decodes 192 [64, 2, 0] 0 name jumps e := by
  refine ⟨rfl, fun name jumps e h => ?_⟩
  cases h with
  | zero hb => cases hb
  | label hb _ hshort => cases hb; exact absurd hshort (by decide)
  | pointer hb hlo => cases hb; exact absurd hlo (by decide)

/-! ### Queries -/

/-- The questions from `j` on: a name, a type and a class. `Name` says what stands for a name. -/
inductive Questions (packet : Bytes) (Name : Nat → Bytes → Nat → Prop) :
    Nat → List ServerQuestion → Prop
  | nil {j : Nat} : Questions packet Name j []
  | cons {j e type cls : Nat} {name : Bytes} {rest : List ServerQuestion}
      (hname : Name j name e) (htype : get16 packet e = some type)
      (hcls : get16 packet (e + 2) = some cls) (hrest : Questions packet Name (e + 4) rest) :
      Questions packet Name j (⟨type, cls, name⟩ :: rest)

variable {Name Name' : Nat → Bytes → Nat → Prop} {qs qs' : List ServerQuestion}

/-- Questions stay ones when more counts as a name. -/
theorem Questions.mono (hname : ∀ j name e, Name j name e → Name' j name e)
    (h : Questions packet Name j qs) : Questions packet Name' j qs := by
  induction h with
  | nil => exact .nil
  | cons hn htype hcls _ ih => exact .cons (hname _ _ _ hn) htype hcls ih

/-- A packet holds one list of questions of each length. -/
theorem Questions.unique (h : Questions packet (NameAt 64 packet n) j qs)
    (h' : Questions packet (NameAt 64 packet n) j qs') (hlen : qs.length = qs'.length) :
    qs = qs' := by
  induction h generalizing qs' with
  | nil => exact (List.eq_nil_of_length_eq_zero hlen.symm).symm
  | cons hn htype hcls _ ih =>
    cases h' with
    | nil => cases hlen
    | cons hn' htype' hcls' hrest' =>
      obtain ⟨rfl, rfl⟩ := hn.unique hn'
      cases htype.symm.trans htype'
      cases hcls.symm.trans hcls'
      rw [ih hrest' (Nat.succ.inj hlen)]

/-- The question as the user sees it: the name is a C string. -/
def ServerQuestion.cut (q : ServerQuestion) : ServerQuestion := { q with name := cstr q.name }

/-- A question is handed on as it is exactly when its name has no `NUL`. -/
theorem cut_eq_self {q : ServerQuestion} : q.cut = q ↔ NUL ∉ q.name := by
  constructor
  · intro h hmem
    have hname : cstr q.name = q.name := congrArg ServerQuestion.name h
    rw [← hname] at hmem
    exact absurd (List.mem_takeWhile_imp hmem) (by decide)
  · intro h
    rw [ServerQuestion.cut, cstr_of_not_mem h]

/-- The loop of `request_parse`. -/
theorem serverQuestions_iff (count : Nat) (qs : List ServerQuestion) :
    serverQuestions packet count j = .ok (some qs) ↔
      ∃ raw, Questions packet (NameAt 64 packet 256) j raw ∧ raw.length = count ∧
        qs = raw.map ServerQuestion.cut := by
  induction count generalizing j qs with
  | zero =>
    constructor
    · rintro ⟨⟩
      exact ⟨[], .nil, rfl, rfl⟩
    rintro ⟨raw, -, hlen, rfl⟩
    rw [List.eq_nil_of_length_eq_zero hlen]
    rfl
  | succ count ih =>
    rw [serverQuestions]
    constructor
    · intro h
      simp only [bind, Except.bind, pure, Except.pure] at h
      repeat' split at h
      all_goals cases h
      rename_i hname _ _ htype _ _ hcls _ _ rest hloop
      obtain ⟨raw, hrest, rfl, rfl⟩ := (ih rest).mp hloop
      exact ⟨_, .cons ((nameParse_decodes ..).mp hname) htype hcls hrest, rfl, rfl⟩
    rintro ⟨raw, hqs, hlen, rfl⟩
    cases hqs with
    | nil => cases hlen
    | cons hname htype hcls hrest =>
      have hparse := (nameParse_decodes packet j 256 _ _).mpr hname
      have hloop := (ih _).mpr ⟨_, hrest, Nat.succ.inj hlen, rfl⟩
      simp only [hparse, htype, hcls, hloop, bind, Except.bind]
      rfl

/-- The packet is a query with the given opcode bits: a complete header with the response bit clear,
then as many questions as it announces, at least one. -/
structure QueryIn (packet : Bytes) (Name : Nat → Bytes → Nat → Prop) (opcode : Nat)
    (query : ServerQuery) : Prop where
  complete : 12 ≤ packet.length
  transId : get16 packet 0 = some query.transId
  flags : ∃ flags, get16 packet 2 = some flags ∧ flags &&& 0x8000 = 0 ∧ flags &&& 0x7800 = opcode ∧
    query.flags = flags &&& 0x0110
  count : get16 packet 4 = some query.questions.length
  questions : Questions packet Name 12 query.questions
  some_question : query.questions ≠ []

/-- A query of the grammar. -/
def WellFormedQuery (packet : Bytes) : Nat → ServerQuery → Prop :=
  QueryIn packet (NameAt 192 packet 256)

/-- A name that the server hands on as it stands in the packet. -/
def PlainName (packet : Bytes) (j : Nat) (name : Bytes) (e : Nat) : Prop :=
  NameAt 64 packet 256 j name e ∧ NoReserved packet j ∧ NUL ∉ name

/-- A query stays one when more counts as a name. -/
theorem QueryIn.mono {opcode : Nat} {query : ServerQuery}
    (hname : ∀ j name e, Name j name e → Name' j name e) (h : QueryIn packet Name opcode query) :
    QueryIn packet Name' opcode query :=
  { h with questions := h.questions.mono hname }

/-- Names without a `NUL` reach the user as they stand in the packet. -/
theorem Questions.map_cut (h : Questions packet (PlainName packet) j qs) :
    qs.map ServerQuestion.cut = qs := by
  induction h with
  | nil => rfl
  | cons hn _ _ _ ih => rw [List.map_cons, ih, cut_eq_self.mpr hn.2.2]

/-- Names of the grammar that reach the user as they stand in the packet are plain. -/
theorem Questions.plain (h : Questions packet (NameAt 192 packet 256) j qs)
    (hcut : qs.map ServerQuestion.cut = qs) : Questions packet (PlainName packet) j qs := by
  induction h with
  | nil => exact .nil
  | cons hn htype hcls _ ih =>
    obtain ⟨hhead, htail⟩ := List.cons.inj hcut
    obtain ⟨hname, hplain⟩ := nameAt_strict.mp hn
    exact .cons ⟨hname, hplain, cut_eq_self.mp hhead⟩ htype hcls (ih htail)

/-- What `request_parse` passes on: any query that it can read, with its names cut at a `NUL`. -/
theorem requestParse_passed (query : ServerQuery) :
    requestParse packet = .ok (.passed query) ↔
      ∃ opcode raw, QueryIn packet (NameAt 64 packet 256) opcode raw ∧
        query = { raw with questions := raw.questions.map ServerQuestion.cut } := by
  simp only [requestParse, bind, Except.bind, pure, Except.pure]
  constructor
  · intro h
    repeat' split at h
    all_goals cases h
    rename_i hid _ flags hflags _ _ hcount hcomplete hresponse hpos _ _ _ hloop _
    obtain ⟨raw, hqs, rfl, rfl⟩ := (serverQuestions_iff ..).mp hloop
    exact ⟨_, ⟨_, _, raw⟩, ⟨Nat.not_lt.mp hcomplete, hid, ⟨flags, hflags, not_not.mp hresponse,
      rfl, rfl⟩, hcount, hqs, fun hnil => hpos (List.length_eq_zero_iff.mpr hnil)⟩, rfl⟩
  rintro ⟨_, ⟨transId, flags, questions⟩,
    ⟨hcomplete, hid, ⟨flags, hflags, hresponse, -, rfl⟩, hcount, hqs, hsome⟩, rfl⟩
  have hloop := (serverQuestions_iff ..).mpr ⟨_, hqs, rfl, rfl⟩
  -- the opcode is masked away before it is looked at
  have hmasked : flags &&& 0x0110 &&& 0x7800 = 0 := by rw [Nat.land_assoc]; exact Nat.and_zero _
  simp [hid, hflags, hcount, hcomplete.not_gt, hresponse, hsome, hloop, hmasked]

/-- `request_parse` passes exactly the standard queries of the grammar to the user and answers those
with another opcode if and only if each query that it can read has the opcode 0 and names without
reserved length bytes and without a `NUL`. -/
theorem requestParse_standard_iff (packet : Bytes) :
    ((∀ query, requestParse packet = .ok (.passed query) ↔ WellFormedQuery packet 0 query) ∧
      ∀ opcode query, opcode ≠ 0 → WellFormedQuery packet opcode query →
        requestParse packet = .ok (.notimpl query)) ↔
    ∀ opcode query, QueryIn packet (NameAt 64 packet 256) opcode query →
      opcode = 0 ∧ Questions packet (PlainName packet) 12 query.questions := by
  have hlenient : ∀ j name e, NameAt 192 packet 256 j name e → NameAt 64 packet 256 j name e :=
    fun _ _ _ h => (nameAt_strict.mp h).1
  constructor
  · rintro ⟨hpassed, -⟩ opcode query hquery
    have hformed := (hpassed _).mp ((requestParse_passed _).mpr ⟨opcode, query, hquery, rfl⟩)
    -- the packet holds the questions once, so that those of the user are those of the packet
    have hcut : query.questions.map ServerQuestion.cut = query.questions :=
      (hformed.questions.mono hlenient).unique hquery.questions (List.length_map _)
    refine ⟨?_, Questions.plain (hcut ▸ hformed.questions) hcut⟩
    obtain ⟨flags, hflags, -, hopcode, -⟩ := hformed.flags
    obtain ⟨flags', hflags', -, rfl, -⟩ := hquery.flags
    cases hflags.symm.trans hflags'
    exact hopcode
  · intro hplain
    refine ⟨fun query => (requestParse_passed query).trans ⟨?_, fun hquery => ?_⟩, ?_⟩
    · rintro ⟨opcode, raw, hraw, rfl⟩
      obtain ⟨rfl, hqs⟩ := hplain opcode raw hraw
      rw [hqs.map_cut]
      exact { hraw with questions := hqs.mono fun _ _ _ h => nameAt_strict.mpr ⟨h.1, h.2.1⟩ }
    · have hraw := hquery.mono hlenient
      exact ⟨0, query, hraw, by rw [(hplain 0 query hraw).2.map_cut]⟩
    · intro opcode query hopcode hquery
      exact absurd (hplain opcode query (hquery.mono hlenient)).1 hopcode

/-- A query of type 1 and class 1 for the name `a`. -/
def queryFor (flags : UInt8) : Bytes :=
  [0, 0, flags, 0, 0, 1, 0, 0, 0, 0, 0, 0, 1, 97, 0, 0, 1, 0, 1]

section
set_option maxRecDepth 2000

/-- The query for the name `a` with the opcode 0. -/
theorem requestParse_standard_a :
    WellFormedQuery (queryFor 0) 0 ⟨0, 0, [⟨1, 1, [97]⟩]⟩ := by
  have hname : Decodes 192 (queryFor 0) 12 (joinDot [97] []) 0 15 :=
    .label (b := 1) rfl (by decide) (by decide) (by decide) (.zero rfl)
  have hquestion : NameAt 64 (queryFor 0) 256 12 [97] 15 :=
    (nameParse_decodes (queryFor 0) 12 256 [97] 15).mp rfl
  have hplain : Questions (queryFor 0) (PlainName (queryFor 0)) 12 [⟨1, 1, [97]⟩] :=
    .cons ⟨hquestion, hname.noReserved, by decide⟩ rfl rfl .nil
  refine (((requestParse_standard_iff (queryFor 0)).mpr fun opcode query hquery => ?_).1 _).mp rfl
  obtain ⟨flags, hflags, -, rfl, -⟩ := hquery.flags
  have hcount := hquery.count
  have hsame := hquery.questions.unique (hplain.mono fun _ _ _ h => h.1)
    (Option.some.inj (hcount.symm.trans (show get16 (queryFor 0) 4 = some 1 from rfl)))
  refine ⟨?_, hsame ▸ hplain⟩
  cases hflags
  rfl

/-- The opcode of the query is 1. -/
theorem opcode_passed : get16 (queryFor 8) 2 = some 0x0800 ∧
    requestParse (queryFor 8) = .ok (.passed ⟨0, 0, [⟨1, 1, [97]⟩]⟩) :=
  ⟨rfl, rfl⟩

end

end Libevent
