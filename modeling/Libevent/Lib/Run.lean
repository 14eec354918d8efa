import Mathlib.Data.List.Basic

/-!
# `Libevent.Lib.Run`: runs of a step function that can fail

A system is a `step : σ → α → Except ε σ`. `run` takes a list of actions. `Meets step P s as`
says that every action of the run meets the condition `P` in the state in which it comes.

* `run_invariant`: a successful run keeps what every successful step keeps. * `run_sim`: two systems
that go through the same actions in lockstep. * `meets_iff_ok`: when actions succeed and keep `Q`
exactly when they meet `P`, a run does so all the way exactly when all its actions meet `P`. *
`meets_iff_invariant`: when `P` is exact for one step, all the states of a run satisfy `I` exactly
when all its actions meet `P`.
-/

namespace Libevent.Lib

variable {σ τ α ε : Type} {step : σ → α → Except ε σ} {P : σ → α → Prop} {I : σ → Prop} {s : σ}
  {a : α} {as : List α} {Q : σ → Prop}

/-- The actions of the list, one after another, until one fails. -/
def run (step : σ → α → Except ε σ) : σ → List α → Except ε σ
  | s, [] => .ok s
  | s, a :: as =>
    match step s a with
    | .error e => .error e
    | .ok s' => run step s' as

theorem run_cons_ok {s' : σ} (h : step s a = .ok s')
    (as : List α) : run step s (a :: as) = run step s' as := by
  simp [run, h]

theorem run_cons_eq_ok {t : σ} :
    run step s (a :: as) = .ok t ↔ ∃ s', step s a = .ok s' ∧ run step s' as = .ok t := by
  cases h : step s a with
  | error e => simp [run, h]
  | ok s' => simp [run, h]

/-- Every action of the list meets `P` in the state in which it comes. -/
def Meets (step : σ → α → Except ε σ) (P : σ → α → Prop) : σ → List α → Prop
  | _, [] => True
  | s, a :: as => P s a ∧ ∀ s', step s a = .ok s' → Meets step P s' as

instance Meets.decidable (step : σ → α → Except ε σ) (P : σ → α → Prop)
    [∀ s a, Decidable (P s a)] : ∀ (s : σ) (as : List α), Decidable (Meets step P s as)
  | _, [] => isTrue trivial
  | s, a :: as =>
    match h : step s a with
    | .error e => decidable_of_iff (P s a) ⟨fun hP => ⟨hP, fun s' hs' => by cases h.symm.trans hs'⟩,
        And.left⟩
    | .ok t =>
      have := Meets.decidable step P t as
      decidable_of_iff (P s a ∧ Meets step P t as) ⟨fun ⟨hP, hm⟩ => ⟨hP, fun s' hs' => by
        cases h.symm.trans hs'; exact hm⟩, fun hm => ⟨hm.1, hm.2 t h⟩⟩

theorem Meets.cons {s' : σ} (hP : P s a) (h : step s a = .ok s') (hrest : Meets step P s' as) :
    Meets step P s (a :: as) := by
  refine ⟨hP, fun t ht => ?_⟩
  cases h.symm.trans ht
  exact hrest

/-- A condition that does not depend on the state. -/
theorem meets_of_forall {P : α → Prop} :
    ∀ {as : List α} (s : σ), (∀ a ∈ as, P a) → Meets step (fun _ a => P a) s as
  | [], _, _ => trivial
  | a :: _, _, h => ⟨h a List.mem_cons_self, fun s' _ =>
    meets_of_forall s' fun b hb => h b (List.mem_cons_of_mem a hb)⟩

/-- A successful run whose actions meet `P` keeps what every such step keeps. -/
theorem run_invariant (hstep : ∀ s a s', I s → P s a → step s a = .ok s' → I s') :
    ∀ {as : List α} {s s' : σ}, I s → Meets step P s as → run step s as = .ok s' → I s'
  | [], s, s', hs, _, h => by cases h; exact hs
  | a :: as, s, s', hs, ⟨ha, hrest⟩, h => by
      obtain ⟨s1, h1, h2⟩ := run_cons_eq_ok.mp h
      exact run_invariant hstep (hstep s a s1 hs ha h1) (hrest s1 h1) h2

/-- When every action that meets `P` succeeds and keeps `I`, a run of such actions does. -/
theorem run_total (hstep : ∀ s a, I s → P s a → ∃ s', step s a = .ok s' ∧ I s') :
    ∀ {as : List α} {s : σ}, I s → Meets step P s as → ∃ s', run step s as = .ok s' ∧ I s'
  | [], s, hs, _ => ⟨s, rfl, hs⟩
  | a :: as, s, hs, ⟨ha, hrest⟩ => by
      obtain ⟨s1, h1, hs1⟩ := hstep s a hs ha
      obtain ⟨s', h', hs'⟩ := run_total hstep hs1 (hrest s1 h1)
      exact ⟨s', run_cons_eq_ok.mpr ⟨s1, h1, h'⟩, hs'⟩

/-- Lockstep: from related states, an action that meets `P` succeeds in both systems and
leads to related states. Then a whole run does. -/
theorem run_sim {step' : τ → α → Except ε τ} {R : σ → τ → Prop}
    (hstep : ∀ s t a, R s t → P s a → ∃ s' t', step s a = .ok s' ∧ step' t a = .ok t' ∧ R s' t') :
    ∀ {as : List α} {s : σ} {t : τ}, R s t → Meets step P s as →
      ∃ s' t', run step s as = .ok s' ∧ run step' t as = .ok t' ∧ R s' t'
  | [], s, t, hr, _ => ⟨s, t, rfl, rfl, hr⟩
  | a :: as, s, t, hr, ⟨ha, hrest⟩ => by
      obtain ⟨s1, t1, hs1, ht1, hr1⟩ := hstep s t a hr ha
      obtain ⟨s2, t2, hs2, ht2, hr2⟩ := run_sim hstep hr1 (hrest s1 hs1)
      exact ⟨s2, t2, (run_cons_ok hs1 as).trans hs2, (run_cons_ok ht1 as).trans ht2, hr2⟩

/-- Let every legal action (`L`) succeed and keep `I`, and let it keep `Q` exactly when it
meets `P`. Then all the states of a legal run satisfy `Q` exactly when all its actions
meet `P`. -/
theorem meets_iff_invariant {L : σ → α → Prop}
    (hstep : ∀ s a, I s → L s a → ∃ s', step s a = .ok s' ∧ I s')
    (hexact : ∀ s a s', I s → L s a → Q s → step s a = .ok s' → (Q s' ↔ P s a)) :
    ∀ {as : List α} {s : σ}, I s → Q s → Meets step L s as →
      ((∀ pre s', pre <+: as → run step s pre = .ok s' → Q s') ↔ Meets step P s as)
  | [], s, _, hq, _ => by
      refine ⟨fun _ => trivial, fun _ pre s' hpre h => ?_⟩
      rw [List.prefix_nil.mp hpre] at h
      cases h
      exact hq
  | a :: as, s, hi, hq, ⟨ha, hrest⟩ => by
      obtain ⟨s1, h1, hi1⟩ := hstep s a hi ha
      have hq1 := hexact s a s1 hi ha hq h1
      have ih := fun hq' => meets_iff_invariant hstep hexact hi1 hq' (hrest s1 h1)
      constructor
      · intro hall
        have hQ : Q s1 := hall [a] s1 (List.prefix_append [a] as) (run_cons_ok h1 [])
        refine ⟨hq1.mp hQ, fun s' hs' => ?_⟩
        cases h1.symm.trans hs'
        refine (ih hQ).mp fun pre t hpre ht => hall (a :: pre) t ?_ ((run_cons_ok h1 pre).trans ht)
        exact (List.prefix_cons_inj a).mpr hpre
      rintro ⟨hp, hmeets⟩ pre t hpre ht
      cases pre with
      | nil => cases ht; exact hq
      | cons b pre =>
        obtain ⟨rfl, hpre'⟩ := List.cons_prefix_cons.mp hpre
        rw [run_cons_ok h1] at ht
        exact (ih (hq1.mpr hp)).mpr (hmeets s1 h1) pre t hpre' ht

/-- From a state with `I` and `Q`, let a legal action (`L`) that meets `P` succeed and keep both,
and let one that does not meet `P` fail or break `Q`. Then a legal run succeeds and satisfies `Q`
all the way exactly when all its actions meet `P`. -/
theorem meets_iff_ok {L : α → Prop}
    (hgood : ∀ s a, I s → Q s → L a → P s a → ∃ s', step s a = .ok s' ∧ I s' ∧ Q s')
    (hbad : ∀ s a s', I s → Q s → L a → ¬ P s a → step s a = .ok s' → ¬ Q s') :
    ∀ {as : List α} {s : σ}, I s → Q s → (∀ a ∈ as, L a) →
      ((∀ pre, pre <+: as → ∃ s', run step s pre = .ok s' ∧ Q s') ↔ Meets step P s as)
  | [], s, _, hq, _ => by
      refine ⟨fun _ => trivial, fun _ pre hpre => ?_⟩
      rw [List.prefix_nil.mp hpre]
      exact ⟨s, rfl, hq⟩
  | a :: as, s, hi, hq, hl => by
      have ha : L a := hl a List.mem_cons_self
      have has : ∀ b ∈ as, L b := fun b hb => hl b (List.mem_cons_of_mem a hb)
      constructor
      · intro hall
        obtain ⟨s1, hrun, hq1⟩ := hall [a] (List.prefix_append [a] as)
        obtain ⟨s', h1, hs'⟩ := run_cons_eq_ok.mp hrun
        cases hs'
        have hp : P s a := by
          by_contra hp
          exact hbad s a s1 hi hq ha hp h1 hq1
        obtain ⟨s2, h2, hi2, -⟩ := hgood s a hi hq ha hp
        cases h1.symm.trans h2
        refine ⟨hp, fun s' hs' => ?_⟩
        cases h1.symm.trans hs'
        refine (meets_iff_ok hgood hbad hi2 hq1 has).mp fun pre hpre => ?_
        obtain ⟨t, ht, hqt⟩ := hall (a :: pre) ((List.prefix_cons_inj a).mpr hpre)
        exact ⟨t, (run_cons_ok h1 pre).symm.trans ht, hqt⟩
      · rintro ⟨hp, hmeets⟩ pre hpre
        obtain ⟨s1, h1, hi1, hq1⟩ := hgood s a hi hq ha hp
        cases pre with
        | nil => exact ⟨s, rfl, hq⟩
        | cons b pre =>
          obtain ⟨rfl, hpre'⟩ := List.cons_prefix_cons.mp hpre
          rw [run_cons_ok h1]
          exact (meets_iff_ok hgood hbad hi1 hq1 has).mpr (hmeets s1 h1) pre hpre'

end Libevent.Lib
