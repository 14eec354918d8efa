import Libevent.Buffer.Types
import Libevent.Lib.Outcome

/-!
# `Libevent.Proofs.Buffer.Drain`: what `evbuffer_drain` removes

`Store.Valid` is what the test helper `evbuffer_validate_` checks, with the references of the
chains and with where read-pinned chains can be: at `*last_with_datap` and behind it.

`drainChains_exact_iff`: exactly when the bytes in front go and no read-pinned chain is released.
When everything is drained, the last chain must not be read-pinned. Otherwise the loop goes on until
it has emptied a read-pinned chain, and the assertion behind the loop, `remaining < chain->off`, is
`0 < 0` there (`drainChains_fails`, `drainChains_aborts`).
-/

namespace Libevent

open Lib

/-- The representation invariant of a buffer. -/
structure Store.Valid (buf : Store) : Prop where
  total : buf.totalLen = (buf.chains.map Chain.off).sum
  fits : ∀ c ∈ buf.chains, c.misalign + c.off ≤ c.bufferLen
  lastWithData : buf.chains = [] ∧ buf.lastWithDatap = 0 ∨ ∃ c ∈ buf.chains[buf.lastWithDatap]?,
    c.off ≠ 0 ∨ buf.lastWithDatap = 0
  emptyBehind : ∀ c ∈ buf.chains.drop (buf.lastWithDatap + 1), c.off = 0
  pinned : ∀ c ∈ buf.chains.take buf.lastWithDatap, c.pinnedR = false
  refs : ∀ c ∈ buf.chains, 0 < c.refcnt

/-- A chain that is referred to can be freed. It is released unless it is pinned. -/
theorem evbufferChainFree_spec {c : Chain} (h : 0 < c.refcnt) :
    ∃ l, evbufferChainFree c = .ok l ∧ ∀ x ∈ l, x.pinnedR = false := by
  unfold evbufferChainFree
  match hn : c.refcnt with
  | 0 => omega
  | 1 =>
    refine ⟨_, rfl, fun x hx => ?_⟩
    split at hx
    · cases hx
    next hpin =>
    rw [List.mem_singleton.mp hx]
    exact (by simpa using hpin : c.pinnedR = false ∧ c.pinnedW = false).1
  | n + 2 => exact ⟨[], rfl, fun x hx => by cases hx⟩

variable {l : List Chain}

theorem mapM_evbufferChainFree (h : ∀ c ∈ l, 0 < c.refcnt) :
    ∃ ls, l.mapM evbufferChainFree = .ok ls ∧ ∀ x ∈ ls.flatten, x.pinnedR = false := by
  induction l with
  | nil => exact ⟨[], rfl, fun x hx => by cases hx⟩
  | cons c l ih =>
    obtain ⟨l1, h1, hl1⟩ := evbufferChainFree_spec (h c List.mem_cons_self)
    obtain ⟨ls, hls, hpin⟩ := ih fun x hx => h x (List.mem_cons_of_mem c hx)
    refine ⟨l1 :: ls, by rw [List.mapM_cons, h1, hls]; rfl, fun x hx => ?_⟩
    rw [List.flatten_cons, List.mem_append] at hx
    exact hx.elim (hl1 x) (hpin x)

/-- The loop, when not everything is drained. `j` is where the last chain with data is, which is the
first that can be pinned: the loop stops there at the latest. -/
theorem drainLoop_spec {remaining j : Nat} (i lwd : Nat) (hlt : remaining < (l.map Chain.off).sum)
    (hpin : ∀ c ∈ l.take j, c.pinnedR = false) (hempty : ∀ c ∈ l.drop (j + 1), c.off = 0)
    (hrefs : ∀ c ∈ l, 0 < c.refcnt) :
    ∃ r lwd' released c rest, drainLoop i remaining lwd l = .ok (r, lwd', released, c, rest) ∧
      r < c.off ∧ (∀ x ∈ released, x.pinnedR = false) ∧
      c.data.drop r ++ rest.flatMap Chain.data = (l.flatMap Chain.data).drop remaining := by
  induction l generalizing remaining j i lwd with
  | nil => cases hlt
  | cons c l ih =>
    unfold drainLoop
    simp only [List.map_cons, List.sum_cons] at hlt
    rw [List.flatMap_cons, List.drop_append]
    by_cases hge : remaining ≥ c.off
    · have hdrop : c.data.drop remaining = [] := List.drop_eq_nil_of_le hge
      cases j with
      | zero =>
        -- the last chain with data holds more than what remains
        have hzero : (l.map Chain.off).sum = 0 := by
          rw [List.sum_eq_zero_iff]
          intro n hn
          obtain ⟨x, hx, rfl⟩ := List.mem_map.mp hn
          exact hempty x (by simpa using hx)
        omega
      | succ j =>
        have hc : c.pinnedR = false := hpin c (by simp)
        obtain ⟨l1, h1, hl1⟩ := evbufferChainFree_spec (hrefs c List.mem_cons_self)
        have hlt' : remaining - c.off < (l.map Chain.off).sum := by omega
        obtain ⟨r, lwd', released, c', rest, hloop, hr, hrel, hdata⟩ := ih (j := j) (i + 1)
          (if (if lwd = i then 0 else lwd) = i + 1 then 0 else if lwd = i then 0 else lwd) hlt'
          (fun x hx => hpin x (by simp [hx])) (fun x hx => hempty x (by simpa using hx))
          (fun x hx => hrefs x (List.mem_cons_of_mem c hx))
        refine ⟨r, lwd', l1 ++ released, c', rest, ?_, hr, fun x hx => ?_, ?_⟩
        · simp only [if_pos hge, hc, h1, hloop]
          rfl
        · exact (List.mem_append.mp hx).elim (hl1 x) (hrel x)
        · rw [hdata, hdrop]
          rfl
    · refine ⟨remaining, lwd - i, [], c, l, if_neg hge, by omega, ?_, ?_⟩
      · intro x hx
        cases hx
      · have hoff : c.off = c.data.length := rfl
        rw [show remaining - c.data.length = 0 by omega, List.drop_zero]

/-- The loop, when everything is drained and the last chain is read-pinned. It empties a read-pinned
chain there at the latest, unless an assertion fails before. -/
theorem drainLoop_all {remaining : Nat} (i lwd : Nat) (hsum : remaining = (l.map Chain.off).sum)
    (hlast : l.getLast?.any Chain.pinnedR = true) :
    Partly (drainLoop i remaining lwd l) fun r => r.1 = 0 ∧ r.2.2.2.1.off = 0 := by
  induction l generalizing remaining i lwd with
  | nil => cases hlast
  | cons c l ih =>
    rw [List.map_cons, List.sum_cons] at hsum
    have hge : remaining ≥ c.off := by omega
    unfold drainLoop
    rw [if_pos hge]
    by_cases hpin : c.pinnedR = true
    · simp only [if_pos hpin]
      split
      · exact trivial
      · exact ⟨rfl, rfl⟩
    cases l with
    | nil => exact absurd hlast (by simpa using hpin)
    | cons d l =>
      simp only [if_neg hpin]
      refine Yields.bind_any fun freed => ?_
      have hsum' : remaining - c.off = ((d :: l).map Chain.off).sum := by omega
      have hrest : Partly _ _ := ih (i + 1)
        (if (if lwd = i then 0 else lwd) = i + 1 then 0 else if lwd = i then 0 else lwd)
        hsum' (by rwa [List.getLast?_cons_cons] at hlast)
      exact hrest.bind fun r hr => hr

variable {buf : Store} {len : Nat}

/-- When everything is drained, a read-pinned last chain makes an assertion fail. -/
theorem drainChains_fails (hv : buf.Valid) (h0 : buf.totalLen ≠ 0) (hfree : buf.freezeStart = false)
    (hall : buf.totalLen ≤ len) (hpin : buf.hasPinnedR = true) (c : Change) :
    drainChains len buf ≠ .ok c := by
  have hloop := drainLoop_all 0 buf.lastWithDatap hv.total hpin
  have hnone : Partly (drainChains len buf) fun _ => False := by
    unfold drainChains
    simp only [if_neg h0, hfree, hpin, Nat.min_eq_right hall, Bool.false_eq_true,
      Bool.true_eq_false, and_false, if_false]
    refine hloop.bind ?_
    rintro ⟨r, lwd, released, c, rest⟩ ⟨hr, hoff⟩
    show Partly (if r < c.off then _ else _) _
    rw [if_neg (by simp_all)]
    exact trivial
  exact fun h => hnone.of_ok h

/-- When the condition holds, `evbuffer_drain` ends and removes the bytes in front. -/
theorem drainChains_ends (hv : buf.Valid) (hfree : buf.freezeStart = false)
    (hpin : len < buf.totalLen ∨ buf.hasPinnedR = false) (h0 : buf.totalLen ≠ 0) :
    ∃ c, drainChains len buf = .ok c ∧
      c.store.content = buf.content.drop (min len buf.totalLen) ∧
      ∀ x ∈ c.released, x.pinnedR = false := by
  have hlen : buf.content.length = buf.totalLen := by
    rw [hv.total]
    exact List.length_flatMap
  unfold drainChains
  simp only [if_neg h0, hfree]
  by_cases hall : len ≥ buf.totalLen ∧ buf.hasPinnedR = false
  · obtain ⟨ls, hls, hrel⟩ := mapM_evbufferChainFree hv.refs
    refine ⟨_, by rw [if_pos hall, hls]; rfl, ?_, hrel⟩
    rw [Nat.min_eq_right hall.1, List.drop_eq_nil_of_le hlen.le]
    rfl
  have hlt : len < buf.totalLen :=
    hpin.elim id fun h => Nat.lt_of_not_le fun hge => hall ⟨hge, h⟩
  rw [if_neg hall, Nat.min_eq_left hlt.le]
  obtain ⟨r, lwd, released, c, rest, hloop, hr, hrel, hdata⟩ :=
    drainLoop_spec 0 buf.lastWithDatap (hv.total ▸ hlt) hv.pinned hv.emptyBehind hv.refs
  refine ⟨_, by rw [hloop]; exact if_pos hr, ?_, hrel⟩
  rw [Store.content, Store.content, ← hdata]
  rfl

/-- `evbuffer_drain` ends, removes exactly the bytes in front and releases no read-pinned chain if
and only if there is nothing to remove, or the start of the buffer is not frozen and, when
everything is drained, the last chain is not read-pinned. -/
theorem drainChains_exact_iff (hv : buf.Valid) :
    (∃ c, drainChains len buf = .ok c ∧
      c.store.content = buf.content.drop (min len buf.totalLen) ∧
      ∀ x ∈ c.released, x.pinnedR = false) ↔
    buf.totalLen = 0 ∨ len = 0 ∨
      buf.freezeStart = false ∧ (len < buf.totalLen ∨ buf.hasPinnedR = false) := by
  by_cases h0 : buf.totalLen = 0
  · refine iff_of_true ⟨_, if_pos h0, ?_, fun x hx => by cases hx⟩ (.inl h0)
    rw [h0, Nat.min_zero, List.drop_zero]
  cases hfree : buf.freezeStart with
  | true =>
    -- the call is refused: nothing is removed
    have hrun : drainChains len buf = .ok { result := -1, store := buf } := by
      simp [drainChains, h0, hfree]
    have hlen : buf.content.length = buf.totalLen := by
      rw [hv.total]
      exact List.length_flatMap
    simp only [hrun, h0, false_or, Bool.true_eq_false, false_and, or_false]
    constructor
    · rintro ⟨c, ⟨⟩, hcontent, -⟩
      have hsame : buf.content.length = buf.content.length - min len buf.totalLen :=
        (congrArg List.length hcontent).trans List.length_drop
      omega
    · rintro rfl
      exact ⟨_, rfl, by rw [Nat.zero_min, List.drop_zero], fun x hx => by cases hx⟩
  | false =>
    constructor
    · rintro ⟨c, hrun, -, -⟩
      refine .inr (.inr ⟨rfl, ?_⟩)
      by_contra hcond
      push Not at hcond
      exact drainChains_fails hv h0 hfree hcond.1 (by simpa using hcond.2) c hrun
    · rintro (h | rfl | ⟨-, hpin⟩)
      · exact absurd h h0
      · exact drainChains_ends hv hfree (.inl (Nat.pos_of_ne_zero h0)) h0
      · exact drainChains_ends hv hfree hpin h0

/-- Two chains with one byte each; the second one is read-pinned. -/
def pinnedStore : Store where
  chains := [{ bufferLen := 8, data := [1] }, { bufferLen := 8, data := [2], pinnedR := true }]
  lastWithDatap := 1
  totalLen := 2

theorem pinnedStore_valid : pinnedStore.Valid where
  total := rfl
  fits := by decide
  lastWithData := .inr ⟨_, rfl, .inl (by decide)⟩
  emptyBehind := by decide
  pinned := by decide
  refs := by decide

/-- A drain that ends before the pinned chain. -/
theorem drainChains_exact_pinnedStore : ∃ c, drainChains 1 pinnedStore = .ok c ∧
    c.store.content = [2] ∧ ∀ x ∈ c.released, x.pinnedR = false :=
  (drainChains_exact_iff pinnedStore_valid).mpr (.inr (.inr ⟨rfl, .inl (by decide)⟩))

/-- A drain of both bytes comes to the pinned chain and fails an assertion. -/
theorem drainChains_aborts : pinnedStore.Valid ∧ drainChains 2 pinnedStore = .error .assertFailed :=
  ⟨pinnedStore_valid, rfl⟩

end Libevent
