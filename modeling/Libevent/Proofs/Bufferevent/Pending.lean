import Libevent.Proofs.Bufferevent.Group

/-!
# `Libevent.Proofs.Bufferevent.Pending`: socket bufferevents do not stall

`Flowing bev`: `ev_read` is pending exactly when reading is enabled and not suspended, `ev_write`
is pending when there is something to write and writing is enabled and not suspended, and reading
is suspended by the watermark exactly when the input has reached it.

`bevRun_flowing`: this holds in every state of every run in which `event_add` succeeds, no
watermark is `2 ^ 63` or more, and the flag of the watermark is left to the watermark.
`flowing_lost`: with a high watermark of `SIZE_MAX`, `bufferevent_readcb` takes the room below it
for a negative number and suspends reading, with nothing in the input that could be drained.
-/

namespace Libevent

open Lib Function

variable {bev bev' : Bufferevent} {d : Dir} {what : SuspendFlags}

/-! ### The invariant -/

/-- A bufferevent that does not stall. -/
structure Flowing (bev : Bufferevent) : Prop where
  read : bev.pending .read = true ↔ bev.enabled .read = true ∧ bev.suspended .read = ∅
  write : bev.enabled .write = true → bev.suspended .write = ∅ → outLen bev.output ≠ 0 →
    bev.pending .write = true
  wm : SuspendReason.wm ∈ bev.suspended .read ↔
    bev.wmReadHigh ≠ 0 ∧ bev.wmReadHigh ≤ bev.input

/-- The events are pending as they should be. -/
structure PendInv (bev : Bufferevent) : Prop where
  read : bev.pending .read = true ↔ bev.enabled .read = true ∧ bev.suspended .read = ∅
  write : bev.enabled .write = true → bev.suspended .write = ∅ → outLen bev.output ≠ 0 →
    bev.pending .write = true
  mm : bev.mm.Reliable

/-- The watermark and its callback. -/
structure WmInv (bev : Bufferevent) : Prop where
  wm : SuspendReason.wm ∈ bev.suspended .read ↔
    bev.wmReadHigh ≠ 0 ∧ bev.wmReadHigh ≤ bev.input
  cb : bev.wmCb = some true ↔ bev.wmReadHigh ≠ 0
  high : bev.wmReadHigh < 2 ^ 63

structure FlowInv (bev : Bufferevent) : Prop where
  pend : PendInv bev
  wm : WmInv bev

theorem FlowInv.flowing (h : FlowInv bev) : Flowing bev :=
  ⟨h.pend.read, h.pend.write, h.wm.wm⟩

/-! ### Suspending -/

theorem PendInv.suspend (h : PendInv bev) (d : Dir) (hwhat : what ≠ ∅) :
    PendInv (buffereventSuspend d bev what) := by
  have hne : bev.suspended d ∪ what ≠ ∅ := fun he => hwhat (Finset.union_eq_empty.mp he).2
  rw [buffereventSuspend_eq]
  cases d with
  | read =>
    refine ⟨?_, ?_, h.mm⟩
    · simp only [update_self, hne, and_false, iff_false, Bool.not_eq_true]
      split
      · exact update_self ..
      next hs =>
      by_contra hp
      exact hs (h.read.mp (by simpa using hp)).2
    intro henabled hs hout
    have hp := h.write henabled hs hout
    split
    · exact hp
    · exact hp
  | write =>
    refine ⟨?_, fun _ hs => absurd hs (by simpa using hne), h.mm⟩
    split
    · exact h.read
    · exact h.read

theorem PendInv.unsuspend (h : PendInv bev) (d : Dir) (what : SuspendFlags) :
    PendInv (buffereventUnsuspend d bev what) := by
  obtain ⟨_, mm, hfails, hpending, heq⟩ := buffereventUnsuspend_eq d bev what
  obtain rfl := hpending h.mm
  rw [heq]
  have hmm := h.mm.congr hfails
  cases d with
  | read =>
    refine ⟨?_, fun henabled hs hout => ?_, hmm⟩
    · simp only [decide_true, Bool.true_and, Bool.or_eq_true, Bool.and_eq_true,
        decide_eq_true_eq, h.read]
      constructor
      · rintro (⟨henabled, hs⟩ | ⟨hs, henabled⟩)
        · exact ⟨henabled, by rw [hs]; exact Finset.empty_sdiff what⟩
        · exact ⟨henabled, hs⟩
      · exact fun ⟨henabled, hs⟩ => .inr ⟨hs, henabled⟩
    · exact Bool.or_eq_true _ _ ▸ .inl (h.write henabled hs hout)
  | write =>
    refine ⟨?_, fun henabled hs _ => ?_, hmm⟩
    · simpa using h.read
    have hs : bev.suspended .write \ what = ∅ := by simpa using hs
    have henabled : bev.enabled .write = true := henabled
    simp [hs, henabled]

theorem WmInv.suspend (h : WmInv bev) (d : Dir)
    (hwm : d = .read → SuspendReason.wm ∈ what →
      bev.wmReadHigh ≠ 0 ∧ bev.wmReadHigh ≤ bev.input) :
    WmInv (buffereventSuspend d bev what) := by
  rw [buffereventSuspend_eq]
  refine ⟨?_, h.cb, h.high⟩
  cases d with
  | read =>
    simp only [update_self, Finset.mem_union]
    constructor
    · rintro (hmem | hmem)
      · exact h.wm.mp hmem
      · exact hwm rfl hmem
    · exact fun hmark => .inl (h.wm.mpr hmark)
  | write => exact h.wm

theorem WmInv.unsuspend (h : WmInv bev) (d : Dir)
    (hwm : d = .read → SuspendReason.wm ∈ what →
      ¬(bev.wmReadHigh ≠ 0 ∧ bev.wmReadHigh ≤ bev.input)) :
    WmInv (buffereventUnsuspend d bev what) := by
  obtain ⟨pending, mm, _, _, heq⟩ := buffereventUnsuspend_eq d bev what
  rw [heq]
  refine ⟨?_, h.cb, h.high⟩
  cases d with
  | read =>
    simp only [update_self, Finset.mem_sdiff]
    constructor
    · exact fun hmem => h.wm.mp hmem.1
    · exact fun hmark => ⟨h.wm.mpr hmark, fun hmem => hwm rfl hmem hmark⟩
  | write => exact h.wm

namespace FlowInv

section
variable (h : FlowInv bev)
include h

theorem suspend (d : Dir) (hwhat : what ≠ ∅) (hwm : d = .read → SuspendReason.wm ∉ what) :
    FlowInv (buffereventSuspend d bev what) :=
  ⟨h.pend.suspend d hwhat, h.wm.suspend d fun hd hmem => absurd hmem (hwm hd)⟩

theorem unsuspend (d : Dir) (hwm : d = .read → SuspendReason.wm ∉ what) :
    FlowInv (buffereventUnsuspend d bev what) :=
  ⟨h.pend.unsuspend d what, h.wm.unsuspend d fun hd hmem => absurd hmem (hwm hd)⟩

/-! ### Enabling -/

theorem enable (event : IoMask) : FlowInv (buffereventEnable bev event).2 := by
  obtain ⟨_, mm, hfails, hpending, heq⟩ := buffereventEnable_eq bev event
  obtain rfl := hpending h.pend.mm
  rw [heq]
  refine ⟨⟨?_, fun henabled hs hout => ?_, h.pend.mm.congr hfails⟩, { h.wm with }⟩
  · simp only [Bool.or_eq_true, Bool.and_eq_true, decide_eq_true_eq, h.pend.read]
    tauto
  simp only [Bool.or_eq_true, Bool.and_eq_true, decide_eq_true_eq] at henabled ⊢
  rcases henabled with henabled | hevent
  · exact .inl (h.pend.write henabled hs hout)
  · exact .inr ⟨hevent, hs⟩

theorem disable (event : IoMask) : FlowInv (buffereventDisable bev event) := by
  rw [buffereventDisable_eq]
  refine ⟨⟨?_, fun henabled hs hout => ?_, h.pend.mm⟩, { h.wm with }⟩
  · simp only [Bool.and_eq_true, h.pend.read]
    tauto
  · simp only [Bool.and_eq_true] at henabled ⊢
    exact ⟨h.pend.write henabled.1 hs hout, henabled.2⟩

theorem setfd : FlowInv (beSocketSetfd bev) := by
  obtain ⟨_, mm, hfails, hpending, heq⟩ := buffereventEnable_eq
    { (bev.eventDel .read).eventDel .write with inputFrozen := false, outputFrozen := false }
    bev.enabled
  obtain rfl := hpending h.pend.mm
  rw [show beSocketSetfd bev = _ from heq]
  refine ⟨⟨?_, fun henabled hs _ => ?_, h.pend.mm.congr hfails⟩, { h.wm with }⟩
  · simp only [Bufferevent.eventDel, Bool.or_self]
    simp only [ne_eq, reduceCtorEq, not_false_eq_true, update_of_ne, update_self,
      Bool.false_or, Bool.and_eq_true]
    exact and_congr_right fun _ => decide_eq_true_iff
  · have hs : bev.suspended .write = ∅ := hs
    have henabled : bev.enabled .write = true := by
      simpa [Bufferevent.eventDel] using henabled
    simp [Bufferevent.eventDel, hs, henabled]

end

/-! ### Watermarks -/

/-- The watermark is looked at, by its callback or when it is set. -/
theorem of_mark (hpend : PendInv bev) (hcb : bev.wmCb = some true) (hon : bev.wmReadHigh ≠ 0)
    (hhigh : bev.wmReadHigh < 2 ^ 63) : FlowInv (buffereventInbufWmCb bev) := by
  unfold buffereventInbufWmCb
  split
  · next hge =>
    refine ⟨hpend.suspend .read (Finset.singleton_ne_empty _), ?_⟩
    rw [buffereventWmSuspendRead, buffereventSuspendRead, buffereventSuspend_eq]
    exact ⟨by simp [hon, hge], by simp [hcb, hon], hhigh⟩
  next hlt =>
  refine ⟨hpend.unsuspend .read {SuspendReason.wm}, ?_⟩
  obtain ⟨_, mm, _, _, heq⟩ := buffereventUnsuspend_eq .read bev {.wm}
  rw [buffereventWmUnsuspendRead, buffereventUnsuspendRead, heq]
  exact ⟨by simp; omega, by simp [hcb, hon], hhigh⟩

section
variable (h : FlowInv bev) {chains : List OutChain}
include h

theorem setInput (len : Nat) : FlowInv (bev.setInput len) := by
  unfold Bufferevent.setInput
  dsimp only
  split
  · next hcond =>
    exact of_mark { h.pend with } hcond.2 (h.wm.cb.mp hcond.2) h.wm.high
  next hcond =>
  refine ⟨{ h.pend with }, ⟨?_, h.wm.cb, h.wm.high⟩⟩
  by_cases hlen : bev.input = len
  · subst hlen
    exact h.wm.wm
  -- the callback is off, so there is no watermark
  have hoff : bev.wmReadHigh = 0 := by
    by_contra hon
    exact hcond ⟨hlen, h.wm.cb.mpr hon⟩
  have hwm := h.wm.wm
  simp only [hoff, ne_eq, not_true_eq_false, false_and] at hwm ⊢
  exact hwm

theorem addInput (n : Nat) : FlowInv (bev.addInput n) := by
  unfold Bufferevent.addInput
  split
  · exact h
  · exact h.setInput _

theorem setwatermark (events : IoMask) {highmark : Nat} (hhigh : highmark < 2 ^ 63) :
    Partly (buffereventSetwatermark bev events highmark) FlowInv := by
  unfold buffereventSetwatermark
  split
  · dsimp only
    split
    · next hon =>
      split
      · exact trivial
      -- what follows is what the callback does
      have hmark : ∀ mm : Mm, mm.fails = bev.mm.fails → FlowInv (buffereventInbufWmCb
          { bev with wmReadHigh := highmark, wmCb := some true, mm := mm }) := fun mm hmm =>
        of_mark ⟨h.pend.read, h.pend.write, h.pend.mm.congr hmm⟩ rfl hon hhigh
      cases hcb : bev.wmCb with
      | none => exact hmark _ rfl
      | some _ => exact hmark _ rfl
    · next hoff =>
      have hoff : highmark = 0 := by simpa using hoff
      subst hoff
      have hpend : PendInv { bev with
          wmReadHigh := 0, wmCb := bev.wmCb.map fun _ => false } := { h.pend with }
      refine ⟨hpend.unsuspend .read {SuspendReason.wm}, ?_⟩
      obtain ⟨_, mm, _, _, heq⟩ := buffereventUnsuspend_eq .read
        { bev with wmReadHigh := 0, wmCb := bev.wmCb.map fun _ => false } {.wm}
      rw [buffereventWmUnsuspendRead, buffereventUnsuspendRead, heq]
      refine ⟨by simp, ?_, by simp⟩
      cases bev.wmCb <;> simp
  · exact h

/-! ### The output -/

theorem addOutput (chains : List OutChain) : FlowInv (bev.addOutput chains) := by
  unfold Bufferevent.addOutput buffereventSocketOutbufCb
  split
  · next hcond =>
    obtain ⟨_, mm, hfails, hpending, heq⟩ :=
      buffereventAddEvent_eq { bev with output := chains } .write
    obtain ⟨_, rfl⟩ := hpending h.pend.mm
    rw [heq]
    exact ⟨⟨by simpa using h.pend.read, by simp, h.pend.mm.congr hfails⟩, { h.wm with }⟩
  next hcond =>
  refine ⟨⟨h.pend.read, fun henabled hs hout => ?_, h.pend.mm⟩, { h.wm with }⟩
  by_contra hp
  have hp : bev.pending .write = false := by simpa using hp
  by_cases hadded : outLen chains - outLen bev.output = 0
  · have hold := h.pend.write henabled hs (by have : outLen chains ≠ 0 := hout; omega)
    cases hp.symm.trans hold
  · exact hcond ⟨hadded, henabled, hp, hs⟩

/-- The output gets shorter. -/
theorem shrinkOutput (hle : outLen chains ≤ outLen bev.output) :
    FlowInv { bev with output := chains } :=
  ⟨⟨h.pend.read, fun henabled hs hout => h.pend.write henabled hs
    (by have : outLen chains ≠ 0 := hout; omega), h.pend.mm⟩, { h.wm with }⟩

theorem removeOutput (hle : outLen chains ≤ outLen bev.output) :
    FlowInv (bev.removeOutput chains) := by
  unfold Bufferevent.removeOutput
  split
  · exact h
  · exact h.shrinkOutput hle

theorem delIfDrained : FlowInv bev.delIfDrained := by
  unfold Bufferevent.delIfDrained
  split
  · next hempty =>
    exact ⟨⟨h.pend.read, fun _ _ hout => absurd hempty hout, h.pend.mm⟩, { h.wm with }⟩
  · exact h

end

end FlowInv

theorem outLen_drainOutput : ∀ (n : Nat) (l : List OutChain), outLen (drainOutput n l) ≤ outLen l
  | _, [] => le_rfl
  | n, c :: l => by
      have ih := outLen_drainOutput (n - c.off) l
      rw [drainOutput]
      split
      · simp only [outLen, List.map_cons, List.sum_cons] at ih ⊢
        omega
      · simp only [outLen, List.map_cons, List.sum_cons]
        omega

/-! ### Rate limits -/

namespace FlowInv

theorem setRateLimiting (h : FlowInv bev) (rlim : Option RateLimit) :
    FlowInv { bev with rateLimiting := rlim } :=
  ⟨{ h.pend with }, { h.wm with }⟩

theorem setMaxSingle (h : FlowInv bev) (d : Dir) (size : Nat) :
    FlowInv (buffereventSetMaxSingle d bev size) :=
  ⟨{ h.pend with }, { h.wm with }⟩

end FlowInv

theorem flowInv_rateStable : RateStable FlowInv where
  suspend d h := h.suspend d (Finset.singleton_ne_empty _) fun _ => by decide
  unsuspend d h := h.unsuspend d fun _ => by decide
  timer _ h := h.setRateLimiting _
  alloc h := ⟨{ h.pend with }, { h.wm with }⟩
  bucket _ _ h := h.setRateLimiting _

namespace FlowInv

theorem getRlimMax (h : FlowInv bev) (d : Dir) (now : Nat) (group : GroupId → RateGroup) :
    Partly (buffereventGetRlimMax d now group bev) fun r => FlowInv r.2 :=
  getRlimMax_keeps (fun _ => flowInv_rateStable.refreshed h)
    (fun _ hbase => hbase.suspend d (Finset.singleton_ne_empty _) fun _ => by decide) group

theorem setRateLimit (h : FlowInv bev) (now : Nat) (cfg : Option TokenBucketCfg) :
    Partly (buffereventSetRateLimit now bev cfg) fun r => FlowInv r.2 := by
  have hstable := flowInv_rateStable
  cases cfg with
  | none =>
    unfold buffereventSetRateLimit
    cases bev.rateLimiting with
    | none => exact h
    | some rlim =>
      have hclear := h.setRateLimiting (some { rlim with cfg := none })
      exact hstable.delRefill (hstable.unsuspend .write (hstable.unsuspend .read hclear))
  | some cfg =>
    refine (buffereventSetRateLimit_cases now bev cfg).mono ?_
    rintro _ (⟨_, rfl⟩ | ⟨_, rfl⟩ | ⟨rlim, mm, tick, hfails, _, _, rfl⟩)
    · exact h
    · exact hstable.alloc h
    · refine hstable.installed ?_ _
      exact ⟨⟨h.pend.read, h.pend.write, h.pend.mm.congr hfails⟩, { h.wm with }⟩

end FlowInv

/-! ### Whole systems -/

theorem flowInv_groupStable : GroupStable (fun _ => FlowInv) := by
  intro b bev bev' hmove h
  cases hmove with
  | suspend d => exact h.suspend d (Finset.singleton_ne_empty _) fun _ => by decide
  | unsuspend d => exact h.unsuspend d fun _ => by decide
  | group g => exact h.setRateLimiting _
  | alloc => exact flowInv_rateStable.alloc h
  | create => exact h.setRateLimiting _

theorem flowInv_ioStable (b : BevId) : IoStable (fun _ => FlowInv) b := by
  intro bev bev' hmove h
  cases hmove with
  | disable event => exact h.disable event
  | full hon hroom =>
    refine ⟨h.pend.suspend .read (Finset.singleton_ne_empty _),
      h.wm.suspend .read fun _ _ => ⟨hon, ?_⟩⟩
    -- below the watermark there is room, which is less than `2 ^ 63`
    by_contra hlt
    have hhigh := h.wm.high
    have hpos : ssizeOf (bev.wmReadHigh - bev.input) = bev.wmReadHigh - bev.input :=
      Int.bmod_eq_of_le (by omega) (by omega)
    omega
  | freezeInput => exact ⟨{ h.pend with }, { h.wm with }⟩
  | freezeOutput => exact ⟨{ h.pend with }, { h.wm with }⟩
  | setInput len => exact h.setInput len
  | drain n => exact h.shrinkOutput (outLen_drainOutput n bev.output)
  | delIfDrained => exact h.delIfDrained
  | charge d bytes => exact flowInv_rateStable.decrementBuckets h d bytes

variable {s s' : BevSystem}

/-- The steps that are excluded: a watermark that does not fit into `ev_ssize_t`, suspending for no
reason or in the name of the watermark, and a removal that makes the output longer. -/
def Unstalling (s : BevSystem) : BevAction → Prop
  | .suspend _ d what => what ≠ ∅ ∧ (d = .read → SuspendReason.wm ∉ what)
  | .unsuspend _ d what => d = .read → SuspendReason.wm ∉ what
  | .setwatermark _ _ highmark => highmark < 2 ^ 63
  | .removeOutput b chains => outLen chains ≤ outLen (s.bevs b).output
  | _ => True

/-- A step that is not one of the stalling ones keeps the flow of each bufferevent. -/
theorem flow_step (h : s.All (fun _ => FlowInv)) {a : BevAction} (ha : Unstalling s a) :
    Partly (bevStep s a) (BevSystem.All (fun _ => FlowInv)) := by
  have hgroup := flowInv_groupStable
  have hrate := flowInv_rateStable
  cases a with
  | enable b event => exact h.setBev b ((h b).enable event)
  | disable b event => exact h.setBev b ((h b).disable event)
  | suspend b d what => exact h.setBev b ((h b).suspend d ha.1 ha.2)
  | unsuspend b d what => exact h.setBev b ((h b).unsuspend d ha)
  | setwatermark b events highmark =>
    exact Yields.map (((h b).setwatermark events ha).mono fun _ hbev => h.setBev b hbev)
  | addInput b n => exact h.setBev b ((h b).addInput n)
  | removeInput b n => exact h.setBev b ((h b).setInput _)
  | addOutput b chains => exact h.setBev b ((h b).addOutput chains)
  | removeOutput b chains => exact h.setBev b ((h b).removeOutput ha)
  | setfd b => exact h.setBev b (h b).setfd
  | readcb b env =>
    exact Yields.map ((readcb_path s b env).mono fun _ => Allowed.all hgroup
      (flowInv_ioStable b) h ((h b).getRlimMax .read s.now s.groups))
  | writecb b env =>
    exact Yields.map ((writecb_path s b env).mono fun _ => Allowed.all hgroup
      (flowInv_ioStable b) h ((h b).getRlimMax .write s.now s.groups))
  | setMaxSingle b d size => exact h.setBev b ((h b).setMaxSingle d size)
  | setRateLimit b cfg =>
    exact h.tryBev b ((h b).setRateLimit s.now cfg)
  | decrementLimit b d decr =>
    exact h.tryBev b (hrate.decrementLimit (h b) d decr)
  | getLimit b d =>
    exact h.tryBev b ((buffereventGetLimit_cases d s.now _).mono fun _ => hrate.refreshed (h b))
  | getMax b d =>
    exact h.tryBev b ((h b).getRlimMax d s.now s.groups)
  | refill b =>
    exact Yields.map ((hrate.refillCallback (h b) s.now).mono fun _ hbev => h.setBev b hbev)
  | elapse msec => exact h
  | _ => exact (bevStep_group s (by trivial)).mono fun _ hpath => hpath.all hgroup h

/-! ### Runs -/

/-- The bufferevents are as `bufferevent_socket_new` makes them, before anything was allocated or
added. -/
def BevSystem.Fresh (s : BevSystem) : Prop := ∀ b, s.bevs b = { mm := (s.bevs b).mm }

theorem flowInv_fresh {mm : Mm} (hmm : mm.Reliable) : FlowInv { mm := mm } :=
  ⟨⟨by simp [IoMask.only], by simp [outLen], hmm⟩, ⟨by simp, by simp, by simp⟩⟩

/-- Bufferevents do not stall, in any run in which `event_add` succeeds and no step is one of those
excluded by `Unstalling`. -/
theorem bevRun_flowing {as : List BevAction} (hfresh : s.Fresh)
    (hmm : ∀ b, (s.bevs b).mm.Reliable) (hsteps : Meets bevStep Unstalling s as)
    (hrun : run bevStep s as = .ok s') : ∀ b, Flowing (s'.bevs b) := by
  have hstart : s.All (fun _ => FlowInv) := fun b => by
    rw [hfresh b]
    exact flowInv_fresh (hmm b)
  have hall := Yields.run (E := fun _ => True) (fun s a h ha => flow_step h ha) hstart hsteps
  exact fun b => (hall.of_ok hrun b).flowing

/-- New bufferevents, when `event_add` always succeeds. -/
def freshSystem : BevSystem where
  groups _ := { rateLimitCfg :=
    { addr := 0, rate := fun _ => 1, maximum := fun _ => 1, msecPerTick := 1 } }

/-- A bufferevent reads up to its watermark, is drained, and writes. -/
def watermarkRun : List BevAction :=
  [.enable 0 (IoMask.only .read), .setwatermark 0 (IoMask.only .read) 4,
    .readcb 0 { result := .ok 4 }, .removeInput 0 1, .addOutput 0 [⟨3, false⟩],
    .writecb 0 { result := .ok 2 }]

/-- Nothing stalls in this run. -/
theorem bevRun_flowing_watermarkRun :
    ∃ s', run bevStep freshSystem watermarkRun = .ok s' ∧ ∀ b, Flowing (s'.bevs b) := by
  obtain ⟨s', hrun⟩ : ∃ s', run bevStep freshSystem watermarkRun = .ok s' := ⟨_, rfl⟩
  have hsteps : Meets bevStep Unstalling freshSystem watermarkRun := by
    simp [watermarkRun, Meets, Unstalling]
  exact ⟨s', hrun, bevRun_flowing (fun _ => rfl) (fun _ _ => rfl) hsteps hrun⟩

/-- With the watermark `SIZE_MAX`, the first run of the read callback suspends reading, with an
empty input. -/
theorem flowing_lost : ∃ s', run bevStep freshSystem
      [.enable 0 (IoMask.only .read), .setwatermark 0 (IoMask.only .read) (2 ^ 64 - 1),
        .readcb 0 {}] = .ok s' ∧
    (s'.bevs 0).input = 0 ∧ (s'.bevs 0).pending .read = false ∧ ¬Flowing (s'.bevs 0) := by
  refine ⟨_, rfl, rfl, rfl, fun h => ?_⟩
  have hmark := (h.wm.mp (by decide)).2
  exact absurd hmark (by decide)

end Libevent
