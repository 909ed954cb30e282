import LayoutTech.Proofs.Path.NormalForm

/-!
# Corrected paths resolve back

A path below the base is corrected to its names below the base, and these resolve to the path again. A base that
climbs has no path below it in this sense, and the paths that lie below it lexically are resolved elsewhere, unless the
base comes down again by as many names as it has steps up.
-/

namespace LayoutTech.Path

variable {base path : List Char} {names : List (List Char)}

/-! ## Names below a base -/

theorem stripBase_eq_ok_iff :
    stripBase base path = .ok names ↔ (normal base).ups = 0 ∧ normal path = (normal base).below names := by
  simp only [stripBase]
  generalize normal base = b
  generalize normal path = p
  obtain ⟨rooted, ups, bnames⟩ := b
  obtain ⟨rooted', ups', pnames⟩ := p
  simp only [Normal.below, Normal.mk.injEq]
  split
  · next other => simp [Ne.symm other]
  · split
    · next climbs => grind
    · split
      · next below =>
          obtain ⟨ground, rest, rfl⟩ := below
          grind
      · next beside => grind

/-- How names below the base are written; the base itself has none. -/
def relativeText : List (List Char) → List Char
  | [] => ['.']
  | name :: rest => ['/'].intercalate (name :: rest)

theorem correct_of_stripBase (hb : base ≠ []) (hp : path ≠ []) (h : stripBase base path = .ok names) :
    correct base path = relativeText names := by
  cases names <;> simp [correct, hb, hp, h, relativeText]

theorem correct_of_error {fault : StripFault} (h : stripBase base path = .error fault) : correct base path = path := by
  simp [correct, h]

section Relative

variable (named : ∀ name ∈ names, IsName name)

include named

theorem steps_relativeText : steps (relativeText names) = names.map .down := by
  cases names with
  | nil => rfl
  | cons name rest =>
      rw [relativeText, steps_intercalate fun name mem => (named name mem).2.2.2, filterMap_ofPiece?_names named]

theorem isRooted_relativeText : isRooted (relativeText names) = false := by
  cases names with
  | nil => rfl
  | cons name rest => exact isRooted_intercalate fun name mem => ⟨(named name mem).1, (named name mem).2.2.2⟩

theorem relativeText_ne_nil : relativeText names ≠ [] := by
  intro nil
  have steps := steps_relativeText named
  cases names with
  | nil => cases nil
  | cons name rest => rw [nil] at steps; cases steps

theorem splitOn_relativeText (filled : names ≠ []) : (relativeText names).splitOn '/' = names := by
  cases names with
  | nil => exact absurd rfl filled
  | cons name rest => exact List.splitOn_intercalate _ (fun name mem => (named name mem).2.2.2) filled

end Relative

/-! ## Resolving -/

theorem effective_relative (hb : base ≠ []) (hp : path ≠ []) (relative : isRooted path = false) :
    effective base path = normalize (join base path) := by
  simp [effective, hb, hp, relative]

theorem effective_rooted (rooted : isRooted path) : effective base path = path := by
  simp [effective, rooted]

theorem effective_relativeText (hb : base ≠ []) (named : ∀ name ∈ names, IsName name) :
    effective base (relativeText names) = ((normal base).below names).toText := by
  have relative := isRooted_relativeText named
  rw [effective_relative hb (relativeText_ne_nil named) relative, normalize_eq, normal_join relative,
    steps_relativeText named, Normal.foldl_walk_downs]

theorem isName_of_stripBase (h : stripBase base path = .ok names) : ∀ name ∈ names, IsName name := by
  obtain ⟨-, below⟩ := stripBase_eq_ok_iff.1 h
  intro name mem
  apply (isReduced_normal path).named
  rw [below]
  exact List.mem_append_right _ mem

theorem effective_of_stripBase (hb : base ≠ []) (hp : path ≠ []) (h : stripBase base path = .ok names) :
    effective base (correct base path) = normalize path := by
  obtain ⟨-, below⟩ := stripBase_eq_ok_iff.1 h
  rw [correct_of_stripBase hb hp h, effective_relativeText hb (isName_of_stripBase h), ← below, normalize_eq]

/-- A path from the root is corrected to itself, to `.` or to a row of names, and in each case leads to the same place.
Where the base can be taken off a path, it resolves to the text of its normal form. -/
theorem effective_correct (base path : List Char) :
    (isRooted path →
        (correct base path = path ∨ correct base path = ['.'] ∨
          ∀ piece ∈ (correct base path).splitOn '/', IsName piece) ∧
        normalize (effective base (correct base path)) = normalize path) ∧
      (base ≠ [] → path ≠ [] → ∀ names, stripBase base path = .ok names →
        effective base (correct base path) = normalize path) := by
  refine ⟨fun rooted => ?_, fun hb hp names h => effective_of_stripBase hb hp h⟩
  have unchanged (h : correct base path = path) : normalize (effective base (correct base path)) = normalize path := by
    rw [h, effective_rooted rooted]
  have hp : path ≠ [] := by
    rintro rfl
    cases rooted
  by_cases hb : base = []
  · have same : correct base path = path := by simp [correct, hb]
    exact ⟨.inl same, unchanged same⟩
  · cases h : stripBase base path with
    | error fault =>
        have same := correct_of_error h
        exact ⟨.inl same, unchanged same⟩
    | ok names =>
        refine ⟨.inr ?_, by rw [effective_of_stripBase hb hp h, normalize_normalize]⟩
        rw [correct_of_stripBase hb hp h]
        have named := isName_of_stripBase h
        by_cases filled : names = []
        · exact .inl (by rw [filled]; rfl)
        · rw [splitOn_relativeText named filled]
          exact .inr named

theorem effective_correct_twisted :
    let base := "/pdk//./sky/".toList
    let path := "/pdk/sky/lib/../a//layers.lyp".toList
    correct base path = "a/layers.lyp".toList ∧ normalize (effective base (correct base path)) = normalize path ∧
      effective base (correct base path) = "/pdk/sky/a/layers.lyp".toList := by
  intro base path
  obtain ⟨rooted, below⟩ := effective_correct base path
  have normal : normalize path = "/pdk/sky/a/layers.lyp".toList := by decide
  refine ⟨by decide, (rooted (by decide)).2, ?_⟩
  rw [← normal]
  exact below (by decide) (by decide) ["a".toList, "layers.lyp".toList] (by decide)

/-! ## Bases that climb -/

/-- Both start at the root or neither does, and the steps of the path are those of the base, and then names. -/
def LiesBelow (base path : List Char) : Prop :=
  isRooted base = isRooted path ∧
    ∃ names : List (List Char), steps (normalize path) = steps (normalize base) ++ names.map .down

theorem count_up_trail (p : Normal) : p.trail.count .up = p.ups := by
  have downs : (p.names.map Step.down).count .up = 0 := by
    rw [List.count_eq_zero]
    simp
  rw [Normal.trail, List.count_append, downs, List.count_replicate_self, Nat.add_zero]

theorem trail_inj {p q : Normal} : p.trail = q.trail ↔ p.ups = q.ups ∧ p.names = q.names := by
  refine ⟨fun h => ?_, fun ⟨ups, names⟩ => by rw [Normal.trail, ups, names, Normal.trail]⟩
  have ups : p.ups = q.ups := by rw [← count_up_trail, h, count_up_trail]
  refine ⟨ups, ?_⟩
  rw [Normal.trail, Normal.trail, ups, List.append_cancel_left_eq] at h
  exact (List.map_inj_right fun _ _ => Step.down.inj).1 h

theorem trail_below (p : Normal) (names : List (List Char)) : (p.below names).trail = p.trail ++ names.map .down := by
  simp [Normal.trail, Normal.below]

theorem liesBelow_iff : LiesBelow base path ↔ ∃ names, normal path = (normal base).below names := by
  simp only [LiesBelow, steps_normalize, ← trail_below, trail_inj, ← rooted_normal]
  rw [← exists_and_left]
  refine exists_congr fun names => ?_
  generalize normal path = p
  obtain ⟨rooted, ups, pnames⟩ := p
  rw [Normal.below, Normal.mk.injEq, eq_comm]

theorem isRooted_of_climbs (h : (normal path).ups ≠ 0) : isRooted path = false := by
  rw [← rooted_normal, Bool.eq_false_iff]
  exact fun rooted => h ((isReduced_normal path).rooted rooted)

theorem correct_of_climbs (h : (normal path).ups ≠ 0) : correct base path = path := by
  cases strip : stripBase base path with
  | error fault => exact correct_of_error strip
  | ok names =>
      obtain ⟨ground, below⟩ := stripBase_eq_ok_iff.1 strip
      rw [below] at h
      exact absurd ground h

/-- Seen from a base that climbs, the steps up of a path take back names of the base, and then climb further. -/
theorem normal_join_of_climbs (climbs : (normal base).ups ≠ 0)
    (below : normal path = (normal base).below names) :
    normal (join base path) =
      ⟨false, (normal base).ups + ((normal base).ups - (normal base).names.length),
        (normal base).names.take ((normal base).names.length - (normal base).ups) ++ ((normal base).names ++ names)⟩ := by
  have climbs' : (normal path).ups ≠ 0 := by rwa [below]
  have relative := isRooted_of_climbs climbs'
  have place : (normal base).rooted = false := (rooted_normal base).trans (isRooted_of_climbs climbs)
  rw [normal_join relative, foldl_walk_steps relative, below]
  generalize normal base = b at place
  obtain ⟨rooted, ups, bnames⟩ := b
  obtain rfl : rooted = false := place
  rw [Normal.trail, List.foldl_append, Normal.below, Normal.foldl_walk_ups, Normal.foldl_walk_downs, Normal.below]

/-- A path below the base resolves back exactly when the base does not climb, or comes down by as many names as it
climbed. -/
theorem effective_correct_iff (hb : base ≠ []) (hp : path ≠ []) (below : LiesBelow base path) :
    effective base (correct base path) = normalize path ↔
      (normal base).ups = 0 ∨ (normal base).ups = (normal base).names.length := by
  obtain ⟨names, place⟩ := liesBelow_iff.1 below
  by_cases ground : (normal base).ups = 0
  · have strip : stripBase base path = .ok names := stripBase_eq_ok_iff.2 ⟨ground, place⟩
    exact iff_of_true (effective_of_stripBase hb hp strip) (.inl ground)
  · have climbs : (normal path).ups ≠ 0 := by rwa [place]
    have relative : (normal base).rooted = false := (rooted_normal base).trans (isRooted_of_climbs ground)
    rw [correct_of_climbs climbs, effective_relative hb hp (isRooted_of_climbs climbs), normalize_eq_iff,
      normal_join_of_climbs ground place, place, Normal.below, relative, Normal.mk.injEq,
      List.append_left_eq_self, List.take_eq_nil_iff, ← List.length_eq_zero_iff]
    simp only [true_and]
    omega

theorem effective_correct_iff_pdk :
    let base := "../pdk".toList
    let path := "../pdk/./lib/../x.lyp".toList
    LiesBelow base path ∧ effective base (correct base path) = "../pdk/x.lyp".toList := by
  intro base path
  have below : LiesBelow base path := ⟨rfl, ["x.lyp".toList], by decide⟩
  have normal : normalize path = "../pdk/x.lyp".toList := by decide
  rw [← normal]
  exact ⟨below, (effective_correct_iff (by decide) (by decide) below).2 (by decide)⟩

/-- A path below a base that climbs further than it comes down is resolved to another file. -/
theorem effective_correct_climbing :
    let base := "../../pdk".toList
    let path := "../../pdk/x.lyp".toList
    base ≠ [] ∧ path ≠ [] ∧ LiesBelow base path ∧ normalize path = path ∧
      effective base (correct base path) = "../../../pdk/x.lyp".toList ∧
      effective base (correct base path) ≠ normalize path := by
  intro base path
  exact ⟨by decide, by decide, ⟨rfl, ["x.lyp".toList], by decide⟩, by decide, by decide, by decide⟩

end LayoutTech.Path
