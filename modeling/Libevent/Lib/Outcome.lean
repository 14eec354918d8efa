import Mathlib.Tactic
import Libevent.Lib.Run

/-!
# `Libevent.Lib.Outcome`: postconditions of computations that can fail

`Yields E r post`: the computation `r` ends with a value that satisfies `post`, or it fails
with an error that `E` tolerates. The rules follow the shape of the code: `pure`, `bind`, and
weakening of the postcondition. `Yields.run` is the rule for runs.
-/

namespace Libevent.Lib

variable {ε α β : Type} {E : ε → Prop} {a : α} {post post' : α → Prop} {f : α → Except ε β}
  {r : Except ε α}

/-- `r` ends with a value in `post`, or with an error in `E`. -/
def Yields (E : ε → Prop) (r : Except ε α) (post : α → Prop) : Prop :=
  match r with
  | .ok a => post a
  | .error e => E e

/-- Partial correctness: when `r` ends with a value, it is in `post`. -/
abbrev Partly (r : Except ε α) (post : α → Prop) : Prop := Yields (fun _ => True) r post

@[simp] theorem yields_ok : Yields E (Except.ok a : Except ε α) post ↔ post a := Iff.rfl

@[simp] theorem yields_pure : Yields E (pure a : Except ε α) post ↔ post a := Iff.rfl

theorem yields_ok_bind {post : β → Prop} :
    Yields E ((Except.ok a : Except ε α) >>= f) post ↔ Yields E (f a) post := Iff.rfl

theorem Yields.mono (h : Yields E r post) (hmono : ∀ a, post a → post' a) : Yields E r post' := by
  cases r with
  | ok a => exact hmono a h
  | error e => exact h

/-- More errors are tolerated. -/
theorem Yields.weaken {E' : ε → Prop} (hE : ∀ e, E e → E' e)
    (h : Yields E r post) : Yields E' r post := by
  cases r with
  | ok a => exact h
  | error e => exact hE e h

/-- The postcondition may use that the computation ended with the value. -/
theorem Yields.mono_eq (h : Yields E r post)
    (hmono : ∀ a, r = .ok a → post a → post' a) : Yields E r post' := by
  cases r with
  | ok a => exact hmono a rfl h
  | error e => exact h

theorem Yields.bind {P : α → Prop} {Q : β → Prop} (h : Yields E r P)
    (hf : ∀ a, P a → Yields E (f a) Q) : Yields E (r >>= f) Q := by
  cases r with
  | ok a => exact hf a h
  | error e => exact h

/-- Every value will do, and every error is tolerated. -/
theorem Yields.of_forall (h : ∀ a, post a) : Partly r post := by
  cases r with
  | ok a => exact h a
  | error e => exact trivial

/-- The rest does not depend on what comes first, and every error is tolerated. -/
theorem Yields.bind_any {Q : β → Prop} (hf : ∀ a, Partly (f a) Q) : Partly (r >>= f) Q := by
  cases r with
  | ok a => exact hf a
  | error e => exact trivial

/-- A computation whose value is only rearranged. -/
theorem Yields.bind_pure {f : α → β} {post : β → Prop}
    (h : Yields E r fun a => post (f a)) : Yields E (r >>= fun a => pure (f a)) post :=
  h.bind fun _ ha => ha

theorem Yields.of_eq (hr : r = .ok a) (h : post a) : Yields E r post := by
  subst hr
  exact h

/-- A step that is taken in one of two ways, before the same rest. -/
theorem Yields.ite_bind {c : Prop} [Decidable c] {r' : Except ε α} {post' : β → Prop}
    (h : Yields E (if c then r else r') post) (hf : ∀ a, post a → Yields E (f a) post') :
    Yields E (if c then r >>= f else r' >>= f) post' := by
  split
  · next hc => rw [if_pos hc] at h; exact h.bind hf
  · next hc => rw [if_neg hc] at h; exact h.bind hf

theorem Yields.map {f : α → β} {post : β → Prop}
    (h : Yields E r fun a => post (f a)) : Yields E (r.map f) post := by
  cases r with
  | ok a => exact h
  | error e => exact h

theorem Yields.and (h : Yields E r post)
    (h' : Yields E r post') : Yields E r (fun a => post a ∧ post' a) := by
  cases r with
  | ok a => exact ⟨h, h'⟩
  | error e => exact h

theorem Yields.of_ok (h : Yields E r post) (hr : r = .ok a) : post a := by
  subst hr
  exact h

theorem Yields.of_error (h : Yields E r post) {e : ε} (hr : r = .error e) : E e := by
  subst hr
  exact h

/-- A computation for which no error is tolerated ends. -/
theorem Yields.exists_ok (h : Yields (fun _ => False) r post) : ∃ a, r = .ok a ∧ post a := by
  cases r with
  | ok a => exact ⟨a, rfl, h⟩
  | error e => exact h.elim

/-- Runs: when every action that meets `P` keeps `I` or ends with an error in `E`, a run of such
actions does. -/
theorem Yields.run {σ : Type} {step : σ → α → Except ε σ} {P : σ → α → Prop} {I : σ → Prop}
    (hstep : ∀ s a, I s → P s a → Yields E (step s a) I) :
    ∀ {as : List α} {s : σ}, I s → Meets step P s as → Yields E (run step s as) I
  | [], _, hs, _ => hs
  | a :: as, s, hs, ⟨ha, hrest⟩ => by
      have h := hstep s a hs ha
      unfold Lib.run
      cases hr : step s a with
      | error e =>
        rw [hr] at h
        exact h
      | ok s1 =>
        rw [hr] at h
        exact Yields.run hstep h (hrest s1 hr)

end Libevent.Lib
