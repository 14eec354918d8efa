import Libevent.Bufferevent.Socket
import Libevent.Lib.Outcome

/-!
# `Libevent.Proofs.Bufferevent.Core`: what enabling and suspending do

Each function of `Libevent.Bufferevent.Core` as one update of the record. Where `event_add` is
called, it matters whether it succeeds (`Mm.Reliable`) to what is pending only. `SameRate` is what
the functions keep that do not concern rate limits (`bevStep_plain`).
-/

namespace Libevent

variable (d : Dir) (bev : Bufferevent) (what : SuspendFlags) (event : IoMask)

theorem eq_other_of_ne {d x : Dir} (h : x ≠ d) : x = d.other := by
  cases d <;> cases x <;> first | rfl | exact absurd rfl h

/-- `be_socket_disable` of one direction. -/
theorem beSocketDisable_only (d : Dir) : beSocketDisable bev (IoMask.only d) = bev.eventDel d := by
  cases d <;> simp [beSocketDisable, IoMask.only]

theorem buffereventSuspend_eq : buffereventSuspend d bev what = { bev with
      suspended := Function.update bev.suspended d (bev.suspended d ∪ what)
      pending := if bev.suspended d = ∅ then Function.update bev.pending d false
        else bev.pending } := by
  unfold buffereventSuspend
  rw [beSocketDisable_only]
  split
  · rfl
  · rfl

/-- `bufferevent_add_event_`: the event is pending when `event_add` succeeds. -/
theorem buffereventAddEvent_eq (d : Dir) : ∃ pending mm, mm.fails = bev.mm.fails ∧
    (bev.mm.Reliable → (buffereventAddEvent bev d).1 = true ∧
      pending = fun x => bev.pending x || decide (x = d)) ∧
    (buffereventAddEvent bev d).2 = { bev with pending := pending, mm := mm } := by
  unfold buffereventAddEvent
  split
  · refine ⟨_, bev.mm.alloc.2, rfl, fun _ => ⟨rfl, ?_⟩, rfl⟩
    funext x
    by_cases hx : x = d
    · subst hx; simp
    · simp [hx]
  · next hfail => exact ⟨_, bev.mm.alloc.2, rfl, fun hmm => absurd hmm.alloc_fst hfail, rfl⟩

theorem beSocketEnable_eq : ∃ pending mm, mm.fails = bev.mm.fails ∧
    (bev.mm.Reliable → pending = fun d => bev.pending d || event d) ∧
    (beSocketEnable bev event).2 = { bev with pending := pending, mm := mm } := by
  -- one direction, when it is asked for
  have hdir : ∀ (bev : Bufferevent) (d : Dir), ∃ pending mm, mm.fails = bev.mm.fails ∧
      (bev.mm.Reliable → (if event d then buffereventAddEvent bev d else (true, bev)).1 = true ∧
        pending = fun x => bev.pending x || (decide (x = d) && event d)) ∧
      (if event d then buffereventAddEvent bev d else (true, bev)).2 =
        { bev with pending := pending, mm := mm } := by
    intro bev d
    split
    · next hd => simpa [hd] using buffereventAddEvent_eq bev d
    · next hd => exact ⟨bev.pending, bev.mm, rfl, fun _ => ⟨rfl, by simp [hd]⟩, rfl⟩
  unfold beSocketEnable
  obtain ⟨pending, mm, hfails, hread, heq⟩ := hdir bev .read
  generalize (if event .read then buffereventAddEvent bev .read else (true, bev)) = r at hread heq ⊢
  obtain ⟨ok, bev'⟩ := r
  obtain rfl : bev' = _ := heq
  dsimp only
  split
  · next hfail =>
    exact ⟨_, _, hfails, fun hmm => absurd (hread hmm).1 (by simpa using hfail), rfl⟩
  obtain ⟨pending', mm', hfails', hwrite, heq'⟩ :=
    hdir { bev with pending := pending, mm := mm } .write
  refine ⟨pending', mm', hfails'.trans hfails, fun hmm => ?_, heq'⟩
  rw [(hwrite (hmm.congr hfails)).2, (hread hmm).2]
  funext d
  cases d <;> simp

theorem buffereventUnsuspend_eq : ∃ pending mm, mm.fails = bev.mm.fails ∧
      (bev.mm.Reliable → pending = fun x => bev.pending x ||
        (decide (x = d) && (decide (bev.suspended d \ what = ∅) && bev.enabled d))) ∧
      buffereventUnsuspend d bev what = { bev with
        suspended := Function.update bev.suspended d (bev.suspended d \ what)
        pending := pending, mm := mm } := by
  unfold buffereventUnsuspend
  simp only [Function.update_self]
  split
  · next hcond =>
    obtain ⟨pending, mm, hfails, hpending, heq⟩ := beSocketEnable_eq { bev with
      suspended := Function.update bev.suspended d (bev.suspended d \ what) } (IoMask.only d)
    refine ⟨pending, mm, hfails, fun hmm => (hpending hmm).trans ?_, heq⟩
    simp [IoMask.only, hcond.1, hcond.2]
  · next hcond =>
    have hnone : (decide (bev.suspended d \ what = ∅) && bev.enabled d) = false := by
      simpa using hcond
    exact ⟨_, _, rfl, fun _ => by simp only [hnone, Bool.and_false, Bool.or_false], rfl⟩

theorem buffereventEnable_eq : ∃ pending mm, mm.fails = bev.mm.fails ∧ (bev.mm.Reliable →
      pending = fun d => bev.pending d || (event d && decide (bev.suspended d = ∅))) ∧
    (buffereventEnable bev event).2 = { bev with
      enabled := fun d => bev.enabled d || event d, pending := pending, mm := mm } := by
  unfold buffereventEnable
  dsimp only
  split
  · exact beSocketEnable_eq { bev with enabled := fun d => bev.enabled d || event d }
      fun d => event d && decide (bev.suspended d = ∅)
  next hnone =>
  refine ⟨_, _, rfl, fun _ => ?_, rfl⟩
  rw [Bool.not_eq_true, Bool.or_eq_false_iff] at hnone
  funext d
  cases d with
  | read => rw [hnone.1, Bool.or_false]
  | write => rw [hnone.2, Bool.or_false]

theorem buffereventDisable_eq : buffereventDisable bev event = { bev with
      enabled := fun d => bev.enabled d && !event d
      pending := fun d => bev.pending d && !event d } := by
  unfold buffereventDisable beSocketDisable Bufferevent.eventDel
  have hupdate : ∀ (f : Dir → Bool) (x : Dir), Function.update f x false =
      fun d => f d && !decide (d = x) := by
    intro f x
    funext d
    by_cases hd : d = x
    · subst hd; simp
    · simp [hd]
  cases hr : event .read <;> cases hw : event .write <;>
    simp only [Bool.false_eq_true, if_false, if_true, Bufferevent.mk.injEq, true_and,
      and_true] <;> funext d <;> cases d <;> simp [hr, hw]

@[simp] theorem suspended_unsuspend : (buffereventUnsuspend d bev what).suspended =
      Function.update bev.suspended d (bev.suspended d \ what) := by
  obtain ⟨pending, mm, _, _, heq⟩ := buffereventUnsuspend_eq d bev what
  rw [heq]

variable {r : SuspendReason}

theorem mem_suspended_suspend (x : Dir) :
    r ∈ (buffereventSuspend d bev what).suspended x ↔ r ∈ bev.suspended x ∨ (x = d ∧ r ∈ what) := by
  rw [buffereventSuspend_eq]
  by_cases hx : x = d
  · subst hx
    simp
  · simp [hx]

theorem mem_suspended_unsuspend (x : Dir) : r ∈ (buffereventUnsuspend d bev what).suspended x ↔
      r ∈ bev.suspended x ∧ ¬(x = d ∧ r ∈ what) := by
  by_cases hx : x = d
  · subst hx
    simp
  · simp [hx]

theorem mem_suspend_self (d x : Dir) :
    r ∈ (buffereventSuspend d bev {r}).suspended x ↔ x = d ∨ r ∈ bev.suspended x := by
  rw [mem_suspended_suspend, or_comm]
  simp

theorem mem_unsuspend_self (d x : Dir) :
    r ∈ (buffereventUnsuspend d bev {r}).suspended x ↔ x ≠ d ∧ r ∈ bev.suspended x := by
  rw [mem_suspended_unsuspend, and_comm]
  simp

/-! ### What does not concern rate limits -/

/-- The rate limit is the same, and so are the flags that are not in `what`. -/
structure SameRate (what : SuspendFlags) (bev bev' : Bufferevent) : Prop where
  rate : bev'.rateLimiting = bev.rateLimiting
  flags : ∀ r ∉ what, ∀ d, r ∈ bev'.suspended d ↔ r ∈ bev.suspended d
  fails : bev'.mm.fails = bev.mm.fails

namespace SameRate

theorem suspend : SameRate what bev (buffereventSuspend d bev what) where
  rate := by rw [buffereventSuspend_eq]
  flags r hr x := (mem_suspended_suspend d bev what x).trans (or_iff_left fun h => hr h.2)
  fails := by rw [buffereventSuspend_eq]

theorem unsuspend : SameRate what bev (buffereventUnsuspend d bev what) := by
  obtain ⟨pending, mm, hfails, _, heq⟩ := buffereventUnsuspend_eq d bev what
  refine ⟨by rw [heq], fun r hr x => ?_, by rw [heq]; exact hfails⟩
  exact (mem_suspended_unsuspend d bev what x).trans (and_iff_left fun h => hr h.2)

theorem refl : SameRate {.wm} bev bev := ⟨rfl, fun _ _ _ => Iff.rfl, rfl⟩

theorem enable : SameRate {.wm} bev (buffereventEnable bev event).2 := by
  obtain ⟨pending, mm, hfails, _, heq⟩ := buffereventEnable_eq bev event
  rw [heq]
  exact ⟨rfl, fun _ _ _ => Iff.rfl, hfails⟩

theorem disable : SameRate {.wm} bev (buffereventDisable bev event) := by
  rw [buffereventDisable_eq]
  exact { refl bev with }

theorem inbufWmCb : SameRate {.wm} bev (buffereventInbufWmCb bev) := by
  unfold buffereventInbufWmCb
  split
  · exact suspend .read bev {.wm}
  · exact unsuspend .read bev {.wm}

theorem setInput (len : Nat) : SameRate {.wm} bev (bev.setInput len) := by
  unfold Bufferevent.setInput
  dsimp only
  split
  · exact { inbufWmCb { bev with input := len } with }
  · exact { refl bev with }

theorem addInput (n : Nat) : SameRate {.wm} bev (bev.addInput n) := by
  unfold Bufferevent.addInput
  split
  · exact refl bev
  · exact setInput bev _

theorem addOutput (chains : List OutChain) : SameRate {.wm} bev (bev.addOutput chains) := by
  unfold Bufferevent.addOutput buffereventSocketOutbufCb
  split
  · obtain ⟨pending, mm, hfails, _, heq⟩ :=
      buffereventAddEvent_eq { bev with output := chains } .write
    rw [heq]
    exact ⟨rfl, fun _ _ _ => Iff.rfl, hfails⟩
  · exact { refl bev with }

theorem removeOutput (chains : List OutChain) : SameRate {.wm} bev (bev.removeOutput chains) := by
  unfold Bufferevent.removeOutput
  split
  · exact refl bev
  · exact { refl bev with }

theorem delIfDrained : SameRate {.wm} bev bev.delIfDrained := by
  unfold Bufferevent.delIfDrained
  split
  · exact { refl bev with }
  · exact refl bev

theorem setwatermark (events : IoMask) (highmark : Nat) :
    Lib.Partly (buffereventSetwatermark bev events highmark) (SameRate {.wm} bev) := by
  unfold buffereventSetwatermark
  split
  · dsimp only
    split
    · split
      · exact trivial
      cases bev.wmCb with
      | none => exact { inbufWmCb { bev with
          wmReadHigh := highmark, wmCb := some true, mm := bev.mm.alloc.2 } with }
      | some on => exact { inbufWmCb { bev with
          wmReadHigh := highmark, wmCb := some true } with }
    · exact { unsuspend .read { bev with
        wmReadHigh := highmark, wmCb := bev.wmCb.map fun _ => false } {SuspendReason.wm} with }
  · exact refl bev

end SameRate

@[simp] theorem rateLimiting_suspend :
    (buffereventSuspend d bev what).rateLimiting = bev.rateLimiting :=
  (SameRate.suspend d bev what).rate

@[simp] theorem rateLimiting_unsuspend :
    (buffereventUnsuspend d bev what).rateLimiting = bev.rateLimiting :=
  (SameRate.unsuspend d bev what).rate

/-- The bufferevent of a call that does not concern rate limits. -/
def BevAction.plain : BevAction → Option BevId
  | .enable b _ | .disable b _ | .setwatermark b _ _ | .addInput b _ | .removeInput b _
  | .addOutput b _ | .removeOutput b _ | .setfd b | .setMaxSingle b _ _ => some b
  | _ => none

theorem bevStep_plain (s : BevSystem) {a : BevAction} {b : BevId} (ha : a.plain = some b) :
    Lib.Partly (bevStep s a) fun s' =>
      ∃ bev, SameRate {.wm} (s.bevs b) bev ∧ s' = s.setBev b bev := by
  cases a with
  | enable x event => cases ha; exact ⟨_, .enable _ event, rfl⟩
  | disable x event => cases ha; exact ⟨_, .disable _ event, rfl⟩
  | setwatermark x events highmark =>
    cases ha
    exact Lib.Yields.map ((SameRate.setwatermark _ events highmark).mono fun _ h => ⟨_, h, rfl⟩)
  | addInput x n => cases ha; exact ⟨_, .addInput _ n, rfl⟩
  | removeInput x n => cases ha; exact ⟨_, .setInput _ _, rfl⟩
  | addOutput x chains => cases ha; exact ⟨_, .addOutput _ chains, rfl⟩
  | removeOutput x chains => cases ha; exact ⟨_, .removeOutput _ chains, rfl⟩
  | setfd x =>
    cases ha
    refine ⟨beSocketSetfd (s.bevs b), ?_, rfl⟩
    exact { SameRate.enable { ((s.bevs b).eventDel .read).eventDel .write with
      inputFrozen := false, outputFrozen := false } (s.bevs b).enabled with }
  | setMaxSingle x d size =>
    cases ha
    exact ⟨buffereventSetMaxSingle d (s.bevs b) size, { SameRate.refl (s.bevs b) with }, rfl⟩
  | _ => cases ha

end Libevent
