import LayoutTech.Proofs.Path.NormalForm

/-!
# Normal forms are canonical

Below the root, or below some steps up, the text of a normal form has names only, and it ends in one of them. It is its
own normal form, and all that a relative path needs to know of its base.
-/

namespace LayoutTech.Path

variable {base path : List Char}

theorem normalize_of_rooted (rooted : isRooted path) :
    normalize path = '/' :: ['/'].intercalate (normal path).names := by
  have place : (normal path).rooted = true := (rooted_normal path).trans rooted
  have ground := (isReduced_normal path).rooted place
  simp [normalize_eq, Normal.toText, Normal.pieces, place, ground]

theorem normalize_of_relative (relative : isRooted path = false) :
    normalize path = ['/'].intercalate (normal path).pieces := by
  have place : (normal path).rooted = false := (rooted_normal path).trans relative
  simp [normalize_eq, Normal.toText, place]

theorem isRooted_normalize (path : List Char) : isRooted (normalize path) = isRooted path := by
  rw [normalize_eq, Normal.isRooted_toText (isReduced_normal path), rooted_normal]

/-- Only the root itself ends in a `/`. -/
theorem getLast?_normalize (other : normalize path ≠ ['/']) : (normalize path).getLast? ≠ some '/' := by
  have pieces := Normal.piece_of_mem_pieces (isReduced_normal path)
  cases rooted : isRooted path with
  | false =>
      rw [normalize_of_relative rooted]
      exact getLast?_intercalate pieces
  | true =>
      rw [normalize_of_rooted rooted] at other ⊢
      have names : (['/'].intercalate (normal path).names).getLast? ≠ some '/' :=
        getLast?_intercalate fun name mem => pieces name (List.mem_append_right _ mem)
      cases text : ['/'].intercalate (normal path).names with
      | nil => exact absurd (congrArg (List.cons '/') text) other
      | cons c cs =>
          rw [text] at names
          rwa [List.getLast?_cons_cons]

theorem normalize_join (relative : isRooted path = false) :
    normalize (join base path) = normalize (join (normalize base) path) := by
  rw [normalize_eq_iff, normal_join relative, normal_join relative, normal_normalize]

/-- A normal form starts at the root where the path does. It has names below the root, or names below steps up, and does
not end in a `/`. It is normal, and stands for the path as a base of relative paths. -/
theorem normalize_canonical (path : List Char) :
    isRooted (normalize path) = isRooted path ∧
      (isRooted path → ∃ names : List (List Char), (∀ name ∈ names, IsName name) ∧
        normalize path = '/' :: ['/'].intercalate names) ∧
      (isRooted path = false → ∃ (ups : Nat) (names : List (List Char)), (∀ name ∈ names, IsName name) ∧
        normalize path = ['/'].intercalate (List.replicate ups ['.', '.'] ++ names)) ∧
      (normalize path ≠ ['/'] → (normalize path).getLast? ≠ some '/') ∧
      normalize (normalize path) = normalize path ∧
      ∀ relative, isRooted relative = false →
        normalize (join path relative) = normalize (join (normalize path) relative) := by
  have named := (isReduced_normal path).named
  refine ⟨isRooted_normalize path, fun rooted => ?_, fun relative => ?_, getLast?_normalize, normalize_normalize path,
    fun _ => normalize_join⟩
  · exact ⟨_, named, normalize_of_rooted rooted⟩
  · exact ⟨_, _, named, normalize_of_relative relative⟩

theorem normalize_canonical_climbing :
    let path := "./../pdk//sky/../..//../lib/".toList
    let relative := "../a/./b".toList
    normalize path = "../../lib".toList ∧ normalize (normalize path) = normalize path ∧
      (normalize path).getLast? ≠ some '/' ∧ (∃ (ups : Nat) (names : List (List Char)), (∀ name ∈ names, IsName name) ∧
        normalize path = ['/'].intercalate (List.replicate ups ['.', '.'] ++ names)) ∧
      normalize (join path relative) = normalize (join (normalize path) relative) := by
  intro path relative
  obtain ⟨-, -, pieces, last, again, joined⟩ := normalize_canonical path
  exact ⟨by decide, again, last (by decide), pieces (by decide), joined relative (by decide)⟩

end LayoutTech.Path
