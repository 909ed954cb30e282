import LayoutTech.Proofs.Path.Canonical
import LayoutTech.Proofs.Path.Correction

/-!
# Resolved paths are corrected back

Against a base at the root, a relative path that does not climb resolves to the base or below it, and the correction of
that is the path's normal form. A corrected path is not corrected further.
-/

namespace LayoutTech.Path

variable {base path : List Char}

theorem ne_nil_of_rooted (rooted : isRooted base) : base ≠ [] := by
  rintro rfl
  cases rooted

theorem ups_normal_of_rooted (rooted : isRooted base) : (normal base).ups = 0 :=
  (isReduced_normal base).rooted ((rooted_normal base).trans rooted)

theorem ups_eq_zero_iff : (normal path).ups = 0 ↔ .up ∉ steps (normalize path) := by
  rw [steps_normalize, ← List.count_eq_zero, count_up_trail]

/-! ## Paths that do not climb -/

section Grounded

variable (relative : isRooted path = false) (ground : (normal path).ups = 0)

include relative ground

theorem normalize_of_grounded : normalize path = ['/'].intercalate (normal path).names := by
  rw [normalize_of_relative relative, Normal.pieces, ground, List.replicate_zero, List.nil_append]

theorem normalize_eq_nil_iff : normalize path = [] ↔ (normal path).names = [] := by
  rw [normalize_of_grounded relative ground]
  cases names : (normal path).names with
  | nil => exact iff_of_true rfl rfl
  | cons name rest =>
      have named := (isReduced_normal path).named
      rw [names] at named
      exact iff_of_false (relativeText_ne_nil named) (List.cons_ne_nil name rest)

theorem relativeText_names :
    relativeText (normal path).names = if normalize path = [] then ['.'] else normalize path := by
  split
  · next nil => rw [(normalize_eq_nil_iff relative ground).1 nil, relativeText]
  · next filled =>
      rw [normalize_of_grounded relative ground]
      cases names : (normal path).names with
      | nil => exact absurd ((normalize_eq_nil_iff relative ground).2 names) filled
      | cons name rest => rfl

theorem normal_join_of_grounded : normal (join base path) = (normal base).below (normal path).names := by
  rw [normal_join relative, foldl_walk_steps relative, Normal.trail, ground, List.replicate_zero, List.nil_append,
    Normal.foldl_walk_downs]

variable (rooted : isRooted base) (hp : path ≠ [])

include rooted hp

theorem normal_effective : normal (effective base path) = (normal base).below (normal path).names := by
  rw [effective_relative (ne_nil_of_rooted rooted) hp relative, normal_normalize,
    normal_join_of_grounded relative ground]

theorem effective_eq_base_iff : effective base path = normalize base ↔ normalize path = [] := by
  rw [effective_relative (ne_nil_of_rooted rooted) hp relative, normalize_eq_iff,
    normal_join_of_grounded relative ground, normalize_eq_nil_iff relative ground]
  exact ⟨fun same => List.append_right_eq_self.1 (congrArg Normal.names same), fun none => by simp [Normal.below, none]⟩

theorem correct_of_effective :
    correct base (effective base path) = if normalize path = [] then ['.'] else normalize path := by
  have below := normal_effective relative ground rooted hp
  have strip : stripBase base (effective base path) = .ok (normal path).names :=
    stripBase_eq_ok_iff.2 ⟨ups_normal_of_rooted rooted, below⟩
  have filled : effective base path ≠ [] := by
    have place : isRooted (effective base path) = true := by
      rw [← rooted_normal, below, Normal.rooted_below, rooted_normal, rooted]
    exact ne_nil_of_rooted place
  rw [correct_of_stripBase (ne_nil_of_rooted rooted) filled strip, relativeText_names relative ground]

end Grounded

/-! ## Corrected paths -/

theorem correct_of_relative (rooted : isRooted base) (relative : isRooted path = false) : correct base path = path := by
  cases strip : stripBase base path with
  | error fault => exact correct_of_error strip
  | ok names =>
      obtain ⟨-, below⟩ := stripBase_eq_ok_iff.1 strip
      have place : (normal path).rooted = (normal base).rooted := by rw [below, Normal.rooted_below]
      rw [rooted_normal, rooted_normal, relative, rooted] at place
      cases place

theorem correct_correct (rooted : isRooted base) (path : List Char) :
    correct base (correct base path) = correct base path := by
  cases strip : stripBase base path with
  | error fault => rw [correct_of_error strip, correct_of_error strip]
  | ok names =>
      by_cases hp : path = []
      · simp [hp, correct]
      · rw [correct_of_stripBase (ne_nil_of_rooted rooted) hp strip]
        exact correct_of_relative rooted (isRooted_relativeText (isName_of_stripBase strip))

/-- A relative path that does not climb resolves to the base, when nothing of it is left, or below it, and its
correction is its normal form. Correcting a path twice is correcting it once. -/
theorem correct_effective (rooted : isRooted base) :
    (∀ path, path ≠ [] → isRooted path = false → .up ∉ steps (normalize path) →
        LiesBelow base (effective base path) ∧ (effective base path = normalize base ↔ normalize path = []) ∧
          correct base (effective base path) = if normalize path = [] then ['.'] else normalize path) ∧
      ∀ path, correct base (correct base path) = correct base path := by
  refine ⟨fun path hp relative level => ?_, correct_correct rooted⟩
  have ground := ups_eq_zero_iff.2 level
  have below : LiesBelow base (effective base path) :=
    liesBelow_iff.2 ⟨_, normal_effective relative ground rooted hp⟩
  exact ⟨below, effective_eq_base_iff relative ground rooted hp, correct_of_effective relative ground rooted hp⟩

theorem correct_effective_folded :
    let base := "/pdk//./sky/../sky".toList
    let path := "lib/../a/.//layers.lyp".toList
    let inside := "lib/..".toList
    (path ≠ [] ∧ isRooted path = false ∧ .up ∉ steps (normalize path)) ∧
      (inside ≠ [] ∧ isRooted inside = false ∧ .up ∉ steps (normalize inside)) ∧
      correct base (effective base path) = "a/layers.lyp".toList ∧
      effective base inside = "/pdk/sky".toList ∧ correct base (effective base inside) = ".".toList ∧
      correct base (correct base "/pdk/sky/x.lyp".toList) = correct base "/pdk/sky/x.lyp".toList := by
  intro base path inside
  obtain ⟨resolved, again⟩ := @correct_effective base (by decide)
  obtain ⟨-, -, text⟩ := resolved path (by decide) (by decide) (by decide)
  obtain ⟨-, place, dot⟩ := resolved inside (by decide) (by decide) (by decide)
  have nothing : normalize inside = [] := by decide
  have root : normalize base = "/pdk/sky".toList := by decide
  rw [if_pos nothing] at dot
  exact ⟨by decide, by decide, text, (place.2 nothing).trans root, dot, again _⟩

end LayoutTech.Path
