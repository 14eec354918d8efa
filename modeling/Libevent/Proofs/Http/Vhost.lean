import Libevent.Http.Text

/-!
# `Libevent.Proofs.Http.Vhost`: the patterns of virtual hosts

`GlobMatches pattern name` is shell matching: a star stands for any sequence of bytes, and every
other byte for itself, in either case.

At a star, `prefix_suffix_match` tries the suffixes of the name as long as they are not empty. What
follows the star can match the empty name only when it consists of stars. A pattern that ends with a
star therefore matches no name at all (`prefixSuffixMatch_lastStar`), and the patterns that are
right for every name are exactly the others (`prefixSuffixMatch_glob_iff`).
-/

namespace Libevent

/-- The name can be split along the pattern. -/
inductive GlobMatches : (pattern name : Bytes) → Prop
  | nil : GlobMatches [] []
  | star {pattern name : Bytes} (skipped : Bytes) (h : GlobMatches pattern name) :
      GlobMatches (STAR :: pattern) (skipped ++ name)
  | byte {c d : UInt8} {pattern name : Bytes} (hc : c ≠ STAR)
      (hcase : asciiLower c = asciiLower d) (h : GlobMatches pattern name) :
      GlobMatches (c :: pattern) (d :: name)

/-- A byte that is no star stands for the first byte of the name. -/
theorem GlobMatches.uncons {c : UInt8} {pattern name : Bytes}
    (h : GlobMatches (c :: pattern) name) (hstar : c ≠ STAR) :
    ∃ d t, name = d :: t ∧ asciiLower c = asciiLower d ∧ GlobMatches pattern t := by
  cases h with
  | star => exact absurd rfl hstar
  | byte hc hcase h => exact ⟨_, _, rfl, hcase, h⟩

/-- Only stars match the empty name. -/
theorem GlobMatches.all_star {pattern : Bytes} (h : GlobMatches pattern []) :
    ∀ c ∈ pattern, c = STAR := by
  induction pattern with
  | nil => simp
  | cons c pattern ih =>
    generalize hname : ([] : Bytes) = name at h
    cases h with
    | star skipped h =>
      have hnil := (List.append_eq_nil_iff.mp hname.symm).2
      subst hnil
      simpa using ih h
    | byte hc hcase h => cases hname

/-- The loop at a star finds a suffix that is not empty. -/
theorem starLoop_iff (rest : Bytes → Bool) (name : Bytes) :
    starLoop rest name = true ↔ ∃ skipped t, name = skipped ++ t ∧ t ≠ [] ∧ rest t = true := by
  induction name with
  | nil => simp [starLoop]
  | cons b name ih =>
    rw [starLoop, Bool.or_eq_true, ih]
    constructor
    · rintro (h | ⟨skipped, t, rfl, ht⟩)
      · exact ⟨[], b :: name, rfl, by simp, h⟩
      · exact ⟨b :: skipped, t, rfl, ht⟩
    rintro ⟨skipped, t, hname, ht⟩
    cases skipped with
    | nil => exact .inl ((List.nil_append t ▸ hname) ▸ ht.2)
    | cons a skipped =>
      cases hname
      exact .inr ⟨skipped, t, rfl, ht⟩

theorem asciiLower_ne_nul {c : UInt8} (hc : c ≠ NUL) : asciiLower c ≠ asciiLower NUL := by
  have hnul : asciiLower NUL = 0 := rfl
  rw [hnul]
  unfold asciiLower
  split
  · rename_i hupper
    have h1 := UInt8.le_iff_toNat_le.mp hupper.1
    have h2 := UInt8.le_iff_toNat_le.mp hupper.2
    intro hzero
    have h3 := congrArg UInt8.toNat hzero
    simp at h1 h2 h3
    omega
  · exact hc

/-- Without a star at the end of the pattern, `prefix_suffix_match` is shell matching. -/
theorem prefixSuffixMatch_of_last (pattern name : Bytes) (hpattern : NUL ∉ pattern)
    (hname : NUL ∉ name) (hlast : pattern.getLast? ≠ some STAR) :
    prefixSuffixMatch true pattern name = true ↔ GlobMatches pattern name := by
  induction pattern generalizing name with
  | nil =>
    rw [prefixSuffixMatch, List.isEmpty_iff]
    constructor
    · rintro rfl
      exact .nil
    intro h
    cases h
    rfl
  | cons c pattern ih =>
    have hrest : NUL ∉ pattern := fun h => hpattern (List.mem_cons_of_mem c h)
    rw [prefixSuffixMatch]
    by_cases hstar : c = STAR
    · subst hstar
      -- the pattern goes on behind the star, and not only with stars
      have hne : pattern ≠ [] := by
        rintro rfl
        exact hlast rfl
      have hlast' : pattern.getLast? ≠ some STAR := by
        rwa [List.getLast?_cons_of_ne_nil hne] at hlast
      rw [if_pos rfl, starLoop_iff]
      constructor
      · rintro ⟨skipped, t, rfl, -, ht⟩
        exact .star skipped ((ih t hrest (fun h => hname (by simp [h])) hlast').mp ht)
      intro h
      cases h with
      | star skipped h =>
        rename_i t
        refine ⟨skipped, t, rfl, ?_, (ih t hrest (fun h => hname (by simp [h])) hlast').mpr h⟩
        rintro rfl
        exact hlast' (by
          rw [List.getLast?_eq_some_getLast hne, h.all_star _ (List.getLast_mem hne)])
      | byte hc => exact absurd rfl hc
    · rw [if_neg hstar]
      cases name with
      | nil =>
        have hc : c ≠ NUL := fun h => hpattern (by simp [h])
        rw [if_pos (by simpa using ⟨hc, asciiLower_ne_nul hc⟩)]
        refine ⟨nofun, fun h => ?_⟩
        obtain ⟨d, t, hnil, -⟩ := h.uncons hstar
        cases hnil
      | cons d name =>
        have htail := ih name hrest (fun h => hname (List.mem_cons_of_mem d h)) (by
          cases pattern with
          | nil => simp
          | cons => simpa using hlast)
        by_cases hcase : asciiLower c = asciiLower d
        · rw [if_neg (by simp [hcase]), List.tail_cons, htail]
          refine ⟨.byte hstar hcase, fun h => ?_⟩
          obtain ⟨_, _, hcons, -, h⟩ := h.uncons hstar
          cases hcons
          exact h
        have hcd : c ≠ d := fun h => hcase (by rw [h])
        rw [if_pos (by simpa using ⟨hcd, hcase⟩)]
        refine ⟨nofun, fun h => ?_⟩
        obtain ⟨_, _, hcons, hcase', -⟩ := h.uncons hstar
        cases hcons
        exact absurd hcase' hcase

/-- With a star at the end of the pattern, `prefix_suffix_match` is never true. -/
theorem prefixSuffixMatch_lastStar {pattern : Bytes} (hlast : pattern.getLast? = some STAR)
    (name : Bytes) : prefixSuffixMatch true pattern name = false := by
  induction pattern generalizing name with
  | nil => cases hlast
  | cons c pattern ih =>
    -- what is behind the first byte matches no name that is not empty
    have hrest : ∀ t, t ≠ [] → prefixSuffixMatch true pattern t = false := by
      intro t ht
      cases pattern with
      | nil => simpa [prefixSuffixMatch] using ht
      | cons d pattern => exact ih (by simpa using hlast) t
    rw [prefixSuffixMatch]
    split
    · refine Bool.eq_false_iff.mpr fun hloop => ?_
      obtain ⟨skipped, t, -, ht, hmatch⟩ := (starLoop_iff _ name).mp hloop
      simp [hrest t ht] at hmatch
    next hstar =>
    split
    · rfl
    cases pattern with
    | nil => exact absurd (by simpa using hlast) hstar
    | cons d pattern => exact ih (by simpa using hlast) name.tail

/-- A pattern matches itself as a name. -/
theorem GlobMatches.refl (pattern : Bytes) : GlobMatches pattern pattern := by
  induction pattern with
  | nil => exact .nil
  | cons c pattern ih =>
    by_cases hstar : c = STAR
    · subst hstar
      exact .star [STAR] ih
    · exact .byte hstar rfl ih

/-- `prefix_suffix_match` with a pattern is shell matching for every name if and only if the pattern
does not end with a star. It always returns, as the recursion is on the pattern. -/
theorem prefixSuffixMatch_glob_iff (pattern : Bytes) (hpattern : NUL ∉ pattern) :
    (∀ name, NUL ∉ name →
      (prefixSuffixMatch true pattern name = true ↔ GlobMatches pattern name)) ↔
    pattern.getLast? ≠ some STAR := by
  constructor
  · intro hall hlast
    have hmatch := (hall pattern hpattern).mpr (.refl pattern)
    rw [prefixSuffixMatch_lastStar hlast] at hmatch
    cases hmatch
  · exact fun hlast name hname => prefixSuffixMatch_of_last pattern name hpattern hname hlast

/-- `*.Net` and `a.nEt`. -/
theorem prefixSuffixMatch_glob_net :
    prefixSuffixMatch true [42, 46, 78, 101, 116] [97, 46, 110, 69, 116] = true ↔
      GlobMatches [42, 46, 78, 101, 116] [97, 46, 110, 69, 116] :=
  (prefixSuffixMatch_glob_iff _ (by decide)).mpr (by decide) _ (by decide)

/-- A star alone does not match `a`. -/
theorem lastStar_never_matches :
    prefixSuffixMatch true [STAR] [97] = false ∧ GlobMatches [STAR] [97] :=
  ⟨by decide, .star [97] .nil⟩

end Libevent
