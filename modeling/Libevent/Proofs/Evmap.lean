import Libevent.Evmap

/-!
# `Libevent.Proofs.Evmap`: the counters of an fd

`CountsOk evs ctx`: the three counters of an entry are the numbers of its events that want
`EV_READ`, `EV_WRITE` and `EV_CLOSED`. `IoAdded` and `IoDeleted` are everything that `evmap_io_add_`
and `evmap_io_del_` can do (`evmapIoAdd_cases`, `evmapIoDel_cases`), with any allocator and any
backend: the entry of one fd is written (`EntrySet`), and the backend hears of the conditions that
come or go.
-/

namespace Libevent

/-- The entry of `fd`, empty when there is none yet. -/
def Evmap.io {β : Type} (m : Evmap β) (fd : Nat) : EvmapIo :=
  (m.entries fd).getD {}

variable {β : Type} {fd : Nat} {l : List EvId}

@[simp] theorem Evmap.setIo_entries_self (m : Evmap β) (fd : Nat) (ctx : EvmapIo) :
    (m.setIo fd ctx).entries fd = some ctx := by
  simp [Evmap.setIo]

theorem Evmap.setIo_entries_ne (m : Evmap β) {x : Nat} (ctx : EvmapIo)
    (h : x ≠ fd) : (m.setIo fd ctx).entries x = m.entries x := by
  simp [Evmap.setIo, h]

@[simp] theorem Evmap.setIo_io_self (m : Evmap β) (fd : Nat) (ctx : EvmapIo) :
    (m.setIo fd ctx).io fd = ctx := by
  simp [Evmap.io]

theorem Evmap.setIo_io_ne (m : Evmap β) {x : Nat} (ctx : EvmapIo) (h : x ≠ fd) :
    (m.setIo fd ctx).io x = m.io x := by
  simp [Evmap.io, Evmap.setIo_entries_ne _ _ h]

/-- Enough doublings of a positive number pass any slot. -/
theorem lt_growEntries (slot : Nat) : ∀ (fuel n : Nat), 0 < n → slot < n * 2 ^ fuel →
    slot < growEntries slot fuel n := by
  intro fuel
  induction fuel with
  | zero => intro n _ h; simpa [growEntries] using h
  | succ fuel ih =>
    intro n hn h
    unfold growEntries
    split
    · refine ih (n <<< 1) ?_ ?_
      · omega
      rw [Nat.shiftLeft_eq]
      calc slot < n * 2 ^ (fuel + 1) := h
        _ = n * 2 ^ 1 * 2 ^ fuel := by ring
    · omega

/-- `evmap_make_space` makes room for the slot, unless an allocation fails. -/
theorem evmapMakeSpace_cases (mm : Mm) (nentries slot : Nat) :
    (¬ mm.Reliable ∧ evmapMakeSpace mm nentries slot = (none, mm.alloc.2)) ∨
      ∃ n mm', evmapMakeSpace mm nentries slot = (some n, mm') ∧ slot < n ∧ nentries ≤ n ∧
        (mm.Reliable → mm'.Reliable) := by
  unfold evmapMakeSpace
  by_cases h : nentries ≤ slot
  · cases halloc : mm.alloc.1 with
    | false =>
      refine .inl ⟨fun hmm => ?_, by rw [if_pos h, if_neg Bool.false_ne_true]⟩
      cases hmm.alloc_fst.symm.trans halloc
    | true =>
      have hpow : slot < 2 ^ (slot + 1) :=
        Nat.lt_of_lt_of_le (Nat.lt_two_pow_self) (Nat.pow_le_pow_right (by omega) (by omega))
      have hpos : 0 < (if nentries = 0 then 32 else nentries) := by split <;> omega
      have hlt := lt_growEntries slot _ _ hpos
        (Nat.lt_of_lt_of_le hpow (Nat.le_mul_of_pos_left _ hpos))
      exact .inr ⟨_, mm.alloc.2, by rw [if_pos h, if_pos rfl], hlt, by omega, id⟩
  · exact .inr ⟨nentries, mm, if_neg h, by omega, Nat.le_refl _, id⟩

/-- `m'` is `m` with another entry for `fd`, and with the backend `b`. -/
structure EntrySet {β : Type} (m : Evmap β) (fd : Nat) (ctx' : EvmapIo) (b : β) (m' : Evmap β) :
    Prop where
  evbase : m'.evbase = b
  mm : m.mm.Reliable → m'.mm.Reliable
  lt : fd < m'.nentries
  le : m.nentries ≤ m'.nentries
  entries_ne : ∀ x, x ≠ fd → m'.entries x = m.entries x
  entries_self : m'.entries fd = some ctx'
  sigEntries : m'.sigEntries = m.sigEntries
  sigNentries : m'.sigNentries = m.sigNentries

variable {ctx : EvmapIo}

section
variable {β : Type} {m m' : Evmap β} {fd : Nat} {ctx' : EvmapIo} {b : β}

theorem EntrySet.io (h : EntrySet m fd ctx' b m') (x : Nat) :
    m'.io x = if x = fd then ctx' else m.io x := by
  unfold Evmap.io
  split
  · next hx => rw [hx, h.entries_self]; rfl
  · next hx => rw [h.entries_ne x hx]

/-- Writing what is there changes nothing. -/
theorem write_self {α : Type} (f : Nat → α) (fd : Nat) :
    (fun x => if x = fd then f fd else f x) = f := by
  funext x
  split
  · next hx => rw [hx]
  · rfl

/-- What the entries say about the fds. -/
theorem EntrySet.field {γ : Type} (f : EvmapIo → γ) (h : EntrySet m fd ctx' b m') :
    (fun x => f (m'.io x)) = fun x => if x = fd then f ctx' else f (m.io x) := by
  funext x
  rw [h.io, apply_ite f]

theorem EntrySet.bound (h : EntrySet m fd ctx' b m')
    (hbound : ∀ x, (m.entries x).isSome → x < m.nentries) (x : Nat) (hx : (m'.entries x).isSome) :
    x < m'.nentries := by
  by_cases hxf : x = fd
  · rw [hxf]; exact h.lt
  · rw [h.entries_ne x hxf] at hx
    exact Nat.lt_of_lt_of_le (hbound x hx) h.le

/-- The entry is written once more, with another backend. -/
theorem EntrySet.write (h : EntrySet m fd ctx' b m') (b' : β) (ctx : EvmapIo) :
    EntrySet m fd ctx b' (({ m' with evbase := b' } : Evmap β).setIo fd ctx) where
  evbase := rfl
  mm := h.mm
  lt := h.lt
  le := h.le
  entries_ne := fun x hx => (Evmap.setIo_entries_ne _ _ hx).trans (h.entries_ne x hx)
  entries_self := Evmap.setIo_entries_self _ _ _
  sigEntries := h.sigEntries
  sigNentries := h.sigNentries

/-- A map whose entry of `fd` is there. -/
theorem EntrySet.self (hctx : m.entries fd = some ctx) (hlt : fd < m.nentries) :
    EntrySet m fd ctx m.evbase m :=
  ⟨rfl, id, hlt, Nat.le_refl _, fun _ _ => rfl, hctx, rfl, rfl⟩

/-- The entry of `fd` is there after `getIoSlotAndCtor`, unless an allocation fails. -/
theorem getIoSlotAndCtor_cases (m : Evmap β) (fd : Nat) :
    (¬ m.mm.Reliable ∧ ∃ mm n, m.nentries ≤ n ∧
        getIoSlotAndCtor m fd = (none, { m with mm := mm, nentries := n })) ∨
      ∃ m1, getIoSlotAndCtor m fd = (some (m.io fd), m1) ∧ EntrySet m fd (m.io fd) m.evbase m1 := by
  unfold getIoSlotAndCtor
  rcases evmapMakeSpace_cases m.mm m.nentries fd with ⟨hmm, hspace⟩ | ⟨n, mm, hspace, hlt, hle, hmm⟩
  · exact .inl ⟨hmm, _, m.nentries, Nat.le_refl _, by rw [hspace]⟩
  rw [hspace]
  cases hctx : m.entries fd with
  | some ctx =>
    have hio : m.io fd = ctx := by simp [Evmap.io, hctx]
    rw [hio]
    exact .inr ⟨_, rfl, rfl, hmm, hlt, hle, fun _ _ => rfl, hctx, rfl, rfl⟩
  | none =>
    have hio : m.io fd = {} := by simp [Evmap.io, hctx]
    rw [hio]
    cases halloc : mm.alloc.1 with
    | false =>
      refine .inl ⟨fun hm => ?_, _, n, hle, if_neg (by rw [halloc]; simp)⟩
      rw [(hmm hm).alloc_fst] at halloc
      cases halloc
    | true =>
      refine .inr ⟨_, if_pos halloc, rfl, hmm, hlt, hle, ?_, ?_, rfl, rfl⟩
      · exact fun x hx => Evmap.setIo_entries_ne _ _ hx
      · exact Evmap.setIo_entries_self _ _ _

end

/-! ### The counters -/

/-- How many of the events want `bit`. -/
def wanting (evs : EvId → Event) (bit : Nat) (l : List EvId) : Nat :=
  l.countP fun e => hasAny (evs e).evEvents bit

theorem wanting_cons (evs : EvId → Event) (bit : Nat) (e : EvId) (l : List EvId) :
    wanting evs bit (e :: l) = countUp (evs e).evEvents bit (wanting evs bit l) := by
  unfold wanting countUp
  rw [List.countP_cons]
  split <;> rfl

variable {e : EvId}

theorem wanting_erase (evs : EvId → Event) (bit : Nat) (he : e ∈ l) :
    wanting evs bit (l.erase e) = countDown (evs e).evEvents bit (wanting evs bit l) := by
  unfold wanting countDown
  rw [List.countP_erase, if_congr (and_iff_right he) rfl rfl]
  split <;> rfl

theorem wanting_pos (evs : EvId → Event) {bit : Nat} (he : e ∈ l)
    (hbit : hasAny (evs e).evEvents bit = true) : 0 < wanting evs bit l :=
  List.countP_pos_iff.mpr ⟨e, he, hbit⟩

/-- The counters of an entry count its events. -/
structure CountsOk (evs : EvId → Event) (ctx : EvmapIo) : Prop where
  nread : ctx.nread = wanting evs EV_READ ctx.events
  nwrite : ctx.nwrite = wanting evs EV_WRITE ctx.events
  nclose : ctx.nclose = wanting evs EV_CLOSED ctx.events

theorem CountsOk.empty (evs : EvId → Event) : CountsOk evs {} :=
  ⟨rfl, rfl, rfl⟩

variable {evs : EvId → Event}

/-- The entry after `LIST_INSERT_HEAD` of `e`. -/
theorem CountsOk.insert (h : CountsOk evs ctx) (e : EvId) (fdinfo : Nat) :
    CountsOk evs { ctx.up (evs e).evEvents with events := e :: ctx.events, fdinfo := fdinfo } where
  nread := by rw [wanting_cons, ← h.nread]; rfl
  nwrite := by rw [wanting_cons, ← h.nwrite]; rfl
  nclose := by rw [wanting_cons, ← h.nclose]; rfl

/-- The entry after `LIST_REMOVE` of `e`. -/
theorem CountsOk.erase (h : CountsOk evs ctx) (he : e ∈ ctx.events) (fdinfo : Nat) : CountsOk evs
      { ctx.down (evs e).evEvents with events := ctx.events.erase e, fdinfo := fdinfo } where
  nread := by rw [wanting_erase evs _ he, ← h.nread]; rfl
  nwrite := by rw [wanting_erase evs _ he, ← h.nwrite]; rfl
  nclose := by rw [wanting_erase evs _ he, ← h.nclose]; rfl

/-- No counter of `evmap_io_del_` drops below zero. -/
theorem CountsOk.no_underflow (h : CountsOk evs ctx) (he : e ∈ ctx.events) :
    (hasAny (evs e).evEvents EV_READ && ctx.nread == 0 ||
      hasAny (evs e).evEvents EV_WRITE && ctx.nwrite == 0 ||
      hasAny (evs e).evEvents EV_CLOSED && ctx.nclose == 0) = false := by
  have aux : ∀ (bit n : Nat), n = wanting evs bit ctx.events →
      (hasAny (evs e).evEvents bit && n == 0) = false := by
    intro bit n hn
    cases hb : hasAny (evs e).evEvents bit with
    | false => rfl
    | true =>
      have := wanting_pos evs he hb
      simp only [Bool.true_and, beq_eq_false_iff_ne]
      omega
  rw [aux _ _ h.nread, aux _ _ h.nwrite, aux _ _ h.nclose]
  rfl

/-! ### The runs of `evmap_io_add_` and `evmap_io_del_` -/

/-- `evmap_io_add_` refuses the event: a counter would overflow, or debug mode finds a mix of
edge-triggered and level-triggered events. -/
def addRefused (debugMode : Bool) (evs : EvId → Event) (ctx : EvmapIo) (ev : EvId) : Prop :=
  ((ctx.up (evs ev).evEvents).nread > 0xffff ∨ (ctx.up (evs ev).evEvents).nwrite > 0xffff ∨
    (ctx.up (evs ev).evEvents).nclose > 0xffff) ∨ (debugMode && mixesEt evs ctx ev) = true

instance (debugMode : Bool) (evs : EvId → Event) (ctx : EvmapIo) (ev : EvId) :
    Decidable (addRefused debugMode evs ctx ev) :=
  inferInstanceAs (Decidable (_ ∨ _))

/-- The entry of `fd` after the event `ev` joined it. -/
def EvmapIo.joined (ctx : EvmapIo) (evs : EvId → Event) (ev : EvId) : EvmapIo :=
  { ctx.up (evs ev).evEvents with events := ev :: ctx.events }

/-- The entry of `fd` after the event `ev` left it. -/
def EvmapIo.left (ctx : EvmapIo) (evs : EvId → Event) (ev : EvId) : EvmapIo :=
  { ctx.down (evs ev).evEvents with events := ctx.events.erase ev }

theorem EntrySet.counts {m m' : Evmap β} {ctx' : EvmapIo} {b : β} (h : EntrySet m fd ctx' b m')
    (hcounts : ∀ x, CountsOk evs (m.io x)) (hctx : CountsOk evs ctx')
    (x : Nat) : CountsOk evs (m'.io x) := by
  rw [h.io]
  split
  · exact hctx
  · exact hcounts x

section
variable {β : Type} (debugMode : Bool) (evsel : EventOp β) (evs : EvId → Event) (m : Evmap β)
  (ev : EvId) (fd : Nat) (ctx : EvmapIo)

/-- Everything that `evmap_io_add_` can do. `after` is the map once the backend was told. -/
inductive IoAdded : Except Fault (Int × Evmap β) → Prop
  | noFd (hfd : (evs ev).evFd < 0) : IoAdded (.ok (0, m))
  | noMemory (hmm : ¬ m.mm.Reliable) (mm : Mm) {n : Nat} (hn : m.nentries ≤ n) :
      IoAdded (.ok (-1, { m with mm := mm, nentries := n }))
  | refused (hrej : addRefused debugMode evs ctx ev) {m' : Evmap β}
      (hset : EntrySet m fd ctx m.evbase m') : IoAdded (.ok (-1, m'))
  | quiet (hfd : 0 ≤ (evs ev).evFd) (hrej : ¬ addRefused debugMode evs ctx ev)
      (hres : ctx.resUp (evs ev).evEvents = 0) {m' : Evmap β}
      (hset : EntrySet m fd (ctx.joined evs ev) m.evbase m') : IoAdded (.ok (0, m'))
  | told (hfd : 0 ≤ (evs ev).evFd) (hrej : ¬ addRefused debugMode evs ctx ev)
      (hres : ctx.resUp (evs ev).evEvents ≠ 0) {after : β → EvmapIo → Evmap β}
      (hset : ∀ b ctx', EntrySet m fd ctx' b (after b ctx')) :
      IoAdded (match evsel.add m.evbase fd ctx.old
          (((evs ev).evEvents &&& EV_ET) ||| ctx.resUp (evs ev).evEvents) ctx.fdinfo with
        | .error e => .error e
        | .ok (r, b, fdinfo) =>
          if r = -1 then .ok (-1, after b { ctx with fdinfo := fdinfo })
          else .ok (1, after b { ctx.joined evs ev with fdinfo := fdinfo }))

theorem evmapIoAdd_cases :
    IoAdded debugMode evsel evs m ev (evs ev).evFd.toNat (m.io (evs ev).evFd.toNat)
      (evmapIoAdd debugMode evsel evs m (evs ev).evFd ev) := by
  unfold evmapIoAdd
  rw [if_neg (not_not.mpr rfl)]
  by_cases hfd : (evs ev).evFd < 0
  · rw [if_pos hfd]
    exact .noFd hfd
  rw [if_neg hfd]
  rw [not_lt] at hfd
  rcases getIoSlotAndCtor_cases m (evs ev).evFd.toNat with
    ⟨hmm, mm, n, hn, hslot⟩ | ⟨m1, hslot, hset⟩
  · rw [hslot]
    exact .noMemory hmm mm hn
  simp only [hslot, hset.evbase]
  split
  · next hover => exact .refused (.inl hover) hset
  next hover =>
  split
  · next hmix => exact .refused (.inr hmix) hset
  next hmix =>
  have hrej := not_or.mpr ⟨hover, hmix⟩
  split
  · next hres =>
    have hnew := hset.write m1.evbase ((m.io (evs ev).evFd.toNat).joined evs ev)
    exact .quiet hfd hrej hres { hnew with evbase := hset.evbase }
  · next hres => exact .told hfd hrej hres hset.write

/-- Everything that `evmap_io_del_` of an event of the map can do. -/
inductive IoDeleted : Except Fault (Int × Evmap β) → Prop
  | noFd (hfd : (evs ev).evFd < 0) : IoDeleted (.ok (0, m))
  | quiet (hfd : 0 ≤ (evs ev).evFd) (hres : ctx.resDown (evs ev).evEvents = 0) {m' : Evmap β}
      (hset : EntrySet m fd (ctx.left evs ev) m.evbase m') : IoDeleted (.ok (0, m'))
  | told (hfd : 0 ≤ (evs ev).evFd) (hres : ctx.resDown (evs ev).evEvents ≠ 0)
      {after : β → EvmapIo → Evmap β} (hset : ∀ b ctx', EntrySet m fd ctx' b (after b ctx')) :
      IoDeleted (match evsel.del m.evbase fd ctx.old (ctx.resDown (evs ev).evEvents) ctx.fdinfo with
        | .error e => .error e
        | .ok (r, b, fdinfo) => .ok (if r = -1 then -1 else 1, after b
            { ctx.left evs ev with fdinfo := fdinfo }))

theorem evmapIoDel_cases (hmem : 0 ≤ (evs ev).evFd → ev ∈ (m.io (evs ev).evFd.toNat).events)
    (hcounts : CountsOk evs (m.io (evs ev).evFd.toNat))
    (hbound : ∀ fd, (m.entries fd).isSome → fd < m.nentries) :
    IoDeleted evsel evs m ev (evs ev).evFd.toNat (m.io (evs ev).evFd.toNat)
      (evmapIoDel evsel evs m (evs ev).evFd ev) := by
  unfold evmapIoDel
  by_cases hfd : (evs ev).evFd < 0
  · rw [if_pos hfd]
    exact .noFd hfd
  rw [if_neg hfd, if_neg (not_not.mpr rfl)]
  rw [not_lt] at hfd
  replace hmem := hmem hfd
  obtain ⟨ctx, hctx⟩ : ∃ ctx, m.entries (evs ev).evFd.toNat = some ctx := by
    cases h : m.entries (evs ev).evFd.toNat with
    | some ctx => exact ⟨ctx, rfl⟩
    | none => simp [Evmap.io, h] at hmem
  have hio : m.io (evs ev).evFd.toNat = ctx := by simp [Evmap.io, hctx]
  have hset := EntrySet.self hctx (hbound _ (by rw [hctx]; rfl))
  rw [← hio] at hctx
  rw [if_neg (Nat.not_le.mpr hset.lt)]
  simp only [hctx, hcounts.no_underflow hmem, Bool.false_eq_true, if_false,
    if_neg (not_not.mpr hmem)]
  split
  · next hres => exact .quiet hfd hres (hset.write m.evbase _)
  · next hres => exact .told hfd hres hset.write

end

/-! ### Signals -/

/-- The events of the signal `sig`. -/
def Evmap.sig {β : Type} (m : Evmap β) (sig : Nat) : List EvId := (m.sigEntries sig).getD []

/-- `m'` is `m` with another list for the signal `sig`; nothing is said about the backend. -/
structure SigSet {β : Type} (m : Evmap β) (sig : Nat) (l : List EvId) (m' : Evmap β) : Prop where
  mm : m'.mm.Reliable
  lt : sig < m'.sigNentries
  sig : ∀ x, m'.sig x = if x = sig then l else m.sig x
  bound : (∀ x, (m.sigEntries x).isSome → x < m.sigNentries) →
    ∀ x, (m'.sigEntries x).isSome → x < m'.sigNentries
  entries : m'.entries = m.entries
  nentries : m'.nentries = m.nentries

section
variable {β : Type} {m m' : Evmap β} {sig : Nat} {l : List EvId}

/-- The list is written once more, with another backend. -/
theorem SigSet.write (h : SigSet m sig l m') (evbase : β) (l' : List EvId) :
    SigSet m sig l' (({ m' with evbase := evbase } : Evmap β).setSig sig l') where
  mm := h.mm
  sig := fun x => by
    by_cases hx : x = sig
    · simp [Evmap.sig, Evmap.setSig, hx]
    have hsig := h.sig x
    rw [if_neg hx] at hsig ⊢
    rw [← hsig]
    simp [Evmap.sig, Evmap.setSig, hx]
  lt := h.lt
  bound := fun hb x hx => by
    by_cases hxs : x = sig
    · rw [hxs]; exact h.lt
    · exact h.bound hb x (by simpa [Evmap.setSig, hxs] using hx)
  entries := h.entries
  nentries := h.nentries

/-- A map that has the list of `sig`. -/
theorem SigSet.self (hmm : m.mm.Reliable) (hlt : sig < m.sigNentries) :
    SigSet m sig (m.sig sig) m where
  mm := hmm
  sig := fun x => by
    split
    · next hx => rw [hx]
    · rfl
  lt := hlt
  bound := id
  entries := rfl
  nentries := rfl

/-- With an allocator that does not fail, the list of `sig` is there after
`getSignalSlotAndCtor`. -/
theorem getSignalSlotAndCtor_eq (hmm : m.mm.Reliable) (sig : Nat) :
    ∃ m', getSignalSlotAndCtor m sig = (some (m.sig sig), m') ∧ SigSet m sig (m.sig sig) m' := by
  obtain ⟨n, mm', hspace, hlt, hle, hmm'⟩ :=
    (evmapMakeSpace_cases m.mm m.sigNentries sig).resolve_left fun h => h.1 hmm
  replace hmm' := hmm' hmm
  have hgrown :
      ∀ mm, mm.Reliable → SigSet m sig (m.sig sig) { m with mm := mm, sigNentries := n } :=
    fun mm hmm => { SigSet.self (m := { m with mm := mm, sigNentries := n }) hmm hlt with
      bound := fun hb x hx => Nat.lt_of_lt_of_le (hb x hx) hle }
  unfold getSignalSlotAndCtor
  rw [hspace]
  cases hs : m.sigEntries sig with
  | some l =>
    refine ⟨_, ?_, hgrown mm' hmm'⟩
    simp [Evmap.sig, hs]
  | none =>
    have hnil : m.sig sig = [] := by simp [Evmap.sig, hs]
    rw [hnil]
    exact ⟨_, if_pos hmm'.alloc_fst, (hgrown mm'.alloc.2 hmm').write m.evbase []⟩

end

end Libevent
