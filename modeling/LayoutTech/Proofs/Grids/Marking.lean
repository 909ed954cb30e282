import LayoutTech.Proofs.Grids.Rewriting

/-!
# The mark in a written grid list

The text of a grid list has a piece for each grid. If there is a strong default, it has one mark, after the first grid
that is near it, and otherwise none; read again, it has the same grids.
-/

namespace LayoutTech.Grids

variable {g : Grids} {d v : Binary64} {values : List Binary64}

/-! ## Which entry is marked -/

theorem entries_some {before : List Binary64} (far : ∀ w ∈ before, ¬near w d) (close : near v d)
    (rest : List Binary64) :
    entries (some d) (before ++ v :: rest) = before.map (⟨·, false⟩) ++ ⟨v, true⟩ :: rest.map (⟨·, false⟩) := by
  induction before with
  | nil => simp [entries, close, entries_none]
  | cons w before ih =>
      rw [List.forall_mem_cons] at far
      simp [entries, far.1, ih far.2]

/-- A strong default that is in the list is near an entry, and the first such entry splits the list. -/
theorem Sound.exists_split (h : g.Sound) (hd : d ∈ g.strongDefault) :
    ∃ before v rest, g.values = before ++ v :: rest ∧ near v d ∧ ∀ w ∈ before, ¬near w d := by
  obtain ⟨v, first, -⟩ := h.exists_first hd
  obtain ⟨close, before, rest, split, far⟩ := List.find?_eq_some_iff_append.1 first
  exact ⟨before, v, rest, split, close, fun w hw => by simpa using far w hw⟩

/-! ## The pieces and marks of a text -/

theorem splitOn_toText (filled : g.values ≠ []) :
    g.toText.splitOn ',' = (entries g.strongDefault g.values).map Entry.toText := by
  rw [toText, entryTexts_eq]
  apply splitOn_intercalate_toText
  intro none
  have values := map_value_entries g.strongDefault g.values
  rw [none] at values
  exact filled values.symm

theorem count_mark_entry (e : Entry) : e.toText.count '!' = if e.marked then 1 else 0 := by
  rw [Entry.toText, List.count_append, List.count_eq_zero.2 (mark_notMem_toText e.value)]
  cases e.marked <;> rfl

theorem count_mark_intercalate (es : List Entry) :
    ([','].intercalate (es.map Entry.toText)).count '!' = es.countP Entry.marked := by
  induction es with
  | nil => rfl
  | cons e es ih =>
      have comma : [','].count '!' = 0 := rfl
      rw [List.countP_cons, ← ih, ← count_mark_entry, List.map_cons, Nat.add_comm]
      cases es with
      | nil => rw [List.map_nil, List.intercalate_singleton, List.intercalate_nil, List.count_nil, Nat.add_zero]
      | cons f es =>
          rw [List.map_cons, List.intercalate_cons_cons, List.count_append, List.count_append, comma, Nat.add_zero]

theorem count_mark_toText (g : Grids) :
    g.toText.count '!' = (entries g.strongDefault g.values).countP Entry.marked := by
  rw [toText, entryTexts_eq, count_mark_intercalate]

theorem countP_marked_none (values : List Binary64) : (values.map (Entry.mk · false)).countP Entry.marked = 0 := by
  rw [List.countP_map]
  exact congrFun List.countP_false values

/-! ## Lists that were made or read -/

/-- The list was made, without a strong default or with any value for it, or read from a text. -/
inductive Built : Grids → Prop
  | ofValues (values : List Binary64) : Built (ofValues values)
  | withDefault (values : List Binary64) (value : Binary64) : Built (withDefault values value)
  | read {text : List Char} {g : Grids} (h : (ofText text).result = .ok g) : Built g

theorem Built.sound (built : g.Built) (finite : ∀ v ∈ g.values, v.isFinite) : g.Sound := by
  cases built with
  | ofValues values => exact ⟨finite, fun d hd => absurd hd (Option.not_mem_none d)⟩
  | withDefault values value => exact (Obtained.made finite value).sound
  | read h => exact (Obtained.read h).sound

/-- Of a list of finite grids the strong default is one; the text has a mark if there is a strong default, after the
first grid near it, and a piece for each grid, and it is read as a list of the same grids. -/
theorem toText_marks_first (built : g.Built) (finite : ∀ v ∈ g.values, v.isFinite) :
    (∀ d ∈ g.strongDefault, d ∈ g.values) ∧
      g.toText.count '!' = (if g.strongDefault.isSome then 1 else 0) ∧
      (∀ d ∈ g.strongDefault, ∃ before v rest, g.values = before ++ v :: rest ∧ near v d ∧
        (∀ w ∈ before, ¬near w d) ∧
        g.toText.splitOn ',' = before.map Binary64.toText ++ (v.toText ++ ['!']) :: rest.map Binary64.toText) ∧
      (g.values = [] → g.toText = []) ∧
      (g.values ≠ [] → (g.toText.splitOn ',').length = g.values.length) ∧
      ∃ next, (ofText g.toText).result = .ok next ∧ next.values = g.values := by
  have sound := built.sound finite
  refine ⟨sound.listed, ?_, ?_, ?_, ?_, g.marked, ofText_toText g finite, rfl⟩
  · rw [count_mark_toText]
    cases eq : g.strongDefault with
    | none =>
        rw [entries_none]
        exact countP_marked_none g.values
    | some d =>
        obtain ⟨before, v, rest, split, close, far⟩ := sound.exists_split eq
        rw [split, entries_some far close, List.countP_append, List.countP_cons_of_pos rfl, countP_marked_none,
          countP_marked_none]
        rfl
  · intro d hd
    obtain ⟨before, v, rest, split, close, far⟩ := sound.exists_split hd
    refine ⟨before, v, rest, split, close, far, ?_⟩
    have filled : g.values ≠ [] := by
      rw [split]
      exact List.append_ne_nil_of_right_ne_nil _ (List.cons_ne_nil _ _)
    rw [splitOn_toText filled, Option.mem_def.1 hd, split, entries_some far close, List.map_append, List.map_cons,
      List.map_map, List.map_map]
    simp [Entry.toText, Function.comp_def]
  · intro none
    rw [toText, none]
    rfl
  · intro filled
    rw [splitOn_toText filled, List.length_map, ← List.length_map Entry.value, map_value_entries]

/-- Of two grids that are near each other the first one is marked. -/
theorem toText_marks_first_crowded :
    let fine := Decimal.toBinary false ⟨1, -2⟩
    let close := Decimal.toBinary false ⟨10001, -6⟩
    let g := withDefault [Decimal.toBinary true ⟨0, 0⟩, fine, close, fine] close
    (∀ v ∈ g.values, v.isFinite) ∧ g.strongDefault = some fine ∧ g.toText.count '!' = 1 ∧
      g.toText = "-0,0.01!,0.010001,0.01".toList ∧ (g.toText.splitOn ',').length = 4 ∧
      ∃ next, (ofText g.toText).result = .ok next ∧ next.values = g.values := by
  intro fine close g
  have finite : ∀ v ∈ g.values, v.isFinite := by decide +kernel
  have marked : g.strongDefault = some fine := by decide +kernel
  obtain ⟨-, count, -, -, pieces, read⟩ := toText_marks_first (.withDefault _ close) finite
  rw [marked] at count
  exact ⟨finite, marked, count, by decide +kernel, pieces (List.cons_ne_nil _ _), read⟩

end LayoutTech.Grids
