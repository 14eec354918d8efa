import Mathlib.Tactic

/-!
# `Libevent.Lib.Consumer`: machines that read from a buffer

A `Consumer` has a state and looks at the bytes that are buffered. It makes a move, which takes a
non-empty prefix of the buffer, or it waits for more. A move that was possible stays possible, with
the same effect, when more bytes arrive (`stable`).

`settle` makes moves until the machine waits. `settle_append` is the reason why it does not matter
how the input is cut into pieces: settling on what is there, and then on what arrives later, is
settling on everything at once. `final_settle_iff` says when a machine that ends does so.
-/

namespace Libevent.Lib

/-- A machine with states `σ` that reads symbols `α` from a buffer. -/
structure Consumer (σ α : Type) where
  move : σ → List α → Option (σ × List α)
  shrinks : ∀ {s : σ} {buf : List α} {s' : σ} {buf' : List α},
    move s buf = some (s', buf') → buf'.length < buf.length
  stable : ∀ {s : σ} {buf : List α} {s' : σ} {buf' : List α} (x : List α),
    move s buf = some (s', buf') → move s (buf ++ x) = some (s', buf' ++ x)

namespace Consumer

variable {σ α : Type} (m : Consumer σ α)

/-- At most `n` moves. -/
def settleFuel : (n : Nat) → σ → List α → σ × List α
  | 0, s, buf => (s, buf)
  | n + 1, s, buf =>
    match m.move s buf with
    | none => (s, buf)
    | some (s', buf') => settleFuel n s' buf'

/-- Moves until the machine waits. Each of them takes at least one symbol. -/
def settle (s : σ) (buf : List α) : σ × List α :=
  m.settleFuel buf.length s buf

variable {m} {s s' : σ} {buf buf' : List α}

theorem settleFuel_of_none (h : m.move s buf = none) (n : Nat) :
    m.settleFuel n s buf = (s, buf) := by
  cases n with
  | zero => rfl
  | succ n => simp [settleFuel, h]

/-- Fuel for every symbol of the buffer is enough. -/
theorem settleFuel_congr {n k : Nat} (hn : buf.length ≤ n) (hk : buf.length ≤ k) :
    m.settleFuel n s buf = m.settleFuel k s buf := by
  induction n generalizing k s buf with
  | zero =>
    cases hmove : m.move s buf with
    | none => rw [settleFuel_of_none hmove, settleFuel_of_none hmove]
    | some p =>
      have := m.shrinks hmove
      omega
  | succ n ih =>
    cases hmove : m.move s buf with
    | none => rw [settleFuel_of_none hmove, settleFuel_of_none hmove]
    | some p =>
      have hlt := m.shrinks hmove
      cases k with
      | zero => omega
      | succ k =>
        simp only [settleFuel, hmove]
        exact ih (by omega) (by omega)

theorem settle_of_none (h : m.move s buf = none) : m.settle s buf = (s, buf) :=
  settleFuel_of_none h buf.length

/-- A move comes first. -/
theorem settle_of_some (h : m.move s buf = some (s', buf')) :
    m.settle s buf = m.settle s' buf' := by
  have hlt := m.shrinks h
  have hone : m.settle s buf = m.settleFuel (buf.length + 1) s buf :=
    settleFuel_congr le_rfl (Nat.le_succ _)
  rw [hone]
  simp only [settleFuel, h]
  exact settleFuel_congr (by omega) le_rfl

/-- What every move keeps holds when the machine has settled. -/
theorem settle_induction {P : σ → List α → Prop}
    (hmove : ∀ {s buf s' buf'}, P s buf → m.move s buf = some (s', buf') → P s' buf')
    {s : σ} {buf : List α} (h : P s buf) : P (m.settle s buf).1 (m.settle s buf).2 := by
  induction hn : buf.length using Nat.strong_induction_on generalizing s buf with
  | _ n ih =>
    cases hm : m.move s buf with
    | none =>
      rw [settle_of_none hm]
      exact h
    | some p =>
      obtain ⟨s', buf'⟩ := p
      rw [settle_of_some hm]
      exact ih buf'.length (hn ▸ m.shrinks hm) (hmove h hm) rfl

theorem length_settle_le (s : σ) (buf : List α) : (m.settle s buf).2.length ≤ buf.length :=
  settle_induction (P := fun _ left => left.length ≤ buf.length)
    (fun h hmove => (m.shrinks hmove).le.trans h) le_rfl

/-- Settling on what is there and then on what arrives later is settling on everything. -/
theorem settle_append (s : σ) (buf x : List α) :
    m.settle s (buf ++ x) = m.settle (m.settle s buf).1 ((m.settle s buf).2 ++ x) := by
  induction hn : buf.length using Nat.strong_induction_on generalizing s buf with
  | _ n ih =>
    cases hmove : m.move s buf with
    | none => rw [settle_of_none hmove]
    | some p =>
      obtain ⟨s', buf'⟩ := p
      rw [settle_of_some hmove, settle_of_some (m.stable x hmove)]
      exact ih buf'.length (hn ▸ m.shrinks hmove) s' buf' rfl

/-- The machine goes on where it was waiting. -/
theorem settle_resume (h : m.settle s buf = (s', buf')) (x : List α) :
    m.settle s' (buf' ++ x) = m.settle s (buf ++ x) := by
  rw [settle_append s buf x, h]

/-- Let the machine reach the end `t` on exactly `whole`. On a prefix of a longer input it has
reached an end exactly when `whole` has arrived, and the rest of the input is left in the buffer. -/
theorem final_settle_iff {t : σ} {whole : List α} (final : σ → Prop)
    (hfinal : ∀ u, final u → ∀ buf, m.move u buf = none) (hwhole : m.settle s whole = (t, []))
    (ht : final t) {pre rest : List α} (hpre : pre <+: whole ++ rest) :
    (final (m.settle s pre).1 ↔ whole <+: pre) ∧
      ∀ x, pre = whole ++ x → m.settle s pre = (t, x) := by
  have hafter : ∀ x, pre = whole ++ x → m.settle s pre = (t, x) := by
    rintro x rfl
    rw [settle_append, hwhole]
    exact settle_of_none (hfinal t ht x)
  refine ⟨⟨fun hf => ?_, ?_⟩, hafter⟩
  · rcases List.prefix_or_prefix_of_prefix (List.prefix_append whole rest) hpre with h | ⟨y, rfl⟩
    · exact h
    -- the machine ended before the rest `y` of `whole`, so `y` would be left over
    rw [settle_append, settle_of_none (hfinal _ hf _)] at hwhole
    have hy : (m.settle s pre).2 ++ y = [] := congrArg Prod.snd hwhole
    rw [(List.append_eq_nil_iff.mp hy).2, List.append_nil]
  · rintro ⟨x, rfl⟩
    rw [hafter x rfl]
    exact ht

end Consumer

end Libevent.Lib
