import LayoutTech.Grids
import LayoutTech.Proofs.Number.Numeral

/-!
# Written grid lists

A written list of finite grids is read back entry by entry; a value that is not finite is written, but not
read. The mark is read back at the entry that it was written after: the first that is near the strong
default. When that entry has the value of the strong default, the list that is read is the same as the one
that was written.
-/

namespace LayoutTech.Grids

/-! ## Entries -/

def Entry.toText (e : Entry) : List Char := e.value.toText ++ if e.marked then ['!'] else []

/-- The entries of a list: the first that is near the strong default is marked. -/
def entries (strongDefault : Option Binary64) : List Binary64 → List Entry
  | [] => []
  | v :: vs =>
    match strongDefault with
    | some d => if near v d then ⟨v, true⟩ :: entries none vs else ⟨v, false⟩ :: entries (some d) vs
    | none => ⟨v, false⟩ :: entries none vs

theorem entryTexts_eq (strongDefault : Option Binary64) (values : List Binary64) :
    entryTexts strongDefault values = (entries strongDefault values).map Entry.toText := by
  induction values generalizing strongDefault with
  | nil => rfl
  | cons v vs ih =>
      cases strongDefault with
      | none => simp [entryTexts, entries, Entry.toText, ih]
      | some d =>
          simp only [entryTexts, entries]
          split <;> simp [Entry.toText, ih]

theorem map_value_entries (strongDefault : Option Binary64) (values : List Binary64) :
    (entries strongDefault values).map Entry.value = values := by
  induction values generalizing strongDefault with
  | nil => rfl
  | cons v vs ih =>
      cases strongDefault with
      | none => simp [entries, ih]
      | some d =>
          simp only [entries]
          split <;> simp [ih]

theorem entries_none (values : List Binary64) : entries none values = values.map (⟨·, false⟩) := by
  induction values with
  | nil => rfl
  | cons v vs ih => rw [entries, ih, List.map_cons]

theorem find?_marked_entries_none (values : List Binary64) : (entries none values).find? Entry.marked = none := by
  rw [entries_none, List.find?_eq_none]
  simp

theorem find?_marked_entries_some (d : Binary64) (values : List Binary64) :
    ((entries (some d) values).find? Entry.marked).map Entry.value = values.find? (near · d) := by
  induction values with
  | nil => rfl
  | cons v vs ih =>
      by_cases h : near v d
      · simp [entries, h]
      · simpa [entries, h] using ih

/-- The list with the entry that gets the mark as strong default. -/
def marked (g : Grids) : Grids := ⟨g.values, g.strongDefault.bind fun d => g.values.find? (near · d)⟩

theorem ofEntries_entries (g : Grids) : ofEntries (entries g.strongDefault g.values) = g.marked := by
  rw [ofEntries, map_value_entries, marked]
  cases g.strongDefault with
  | none => rw [find?_marked_entries_none]; rfl
  | some d => rw [find?_marked_entries_some]; rfl

/-! ## Marks -/

section Marks

open Text

/-- A mark stands at the end of the piece, or only blanks follow it. -/
def IsMarked (piece : List Char) : Prop := ∃ body trail, piece = body ++ '!' :: trail ∧ AllBlank trail

theorem splitMark_marked {trail : List Char} (blank : AllBlank trail) (body : List Char) :
    splitMark (body ++ '!' :: trail) = (trim body, true) := by
  have notBlank : ∀ c ∈ ('!' :: trail).head?, ¬isBlank c := fun _ hc => Option.some.inj hc ▸ by decide
  have last : ∀ c ∈ (trimStart body ++ ['!']).getLast?, ¬isBlank c := by
    rw [List.getLast?_concat]
    exact fun _ hc => Option.some.inj hc ▸ by decide
  have entry : trim (body ++ '!' :: trail) = trimStart body ++ ['!'] := by
    rw [trim, trimStart_append_of_head notBlank, List.append_cons, trimEnd_append_of_blank blank, trimEnd_of_last last]
  simp only [splitMark, entry, List.getLast?_concat, if_true, List.dropLast_concat]
  rfl

theorem splitMark_unmarked {piece : List Char} (h : ¬IsMarked piece) : splitMark piece = (trim piece, false) := by
  have last : (trim piece).getLast? ≠ some '!' := by
    intro marked
    obtain ⟨before, -, start⟩ := exists_blank_trimStart piece
    obtain ⟨trail, blank, ending⟩ := exists_trimEnd_blank (trimStart piece)
    obtain ⟨init, entry⟩ := List.getLast?_eq_some_iff.1 marked
    refine h ⟨before ++ init, trail, ?_, blank⟩
    rw [start, ending, ← trim, entry]
    simp
  simp only [splitMark, if_neg last]

theorem isMarked_iff {piece : List Char} : IsMarked piece ↔ (splitMark piece).2 = true := by
  by_cases marked : IsMarked piece
  · obtain ⟨body, trail, rfl, blank⟩ := marked
    exact iff_of_true ⟨body, trail, rfl, blank⟩ (by rw [splitMark_marked blank])
  · exact iff_of_false marked (by rw [splitMark_unmarked marked]; exact Bool.false_ne_true)

instance : DecidablePred IsMarked := fun _ => decidable_of_iff _ isMarked_iff.symm

end Marks

/-! ## Reading an entry -/

theorem mark_notMem_toText (x : Binary64) : '!' ∉ x.toText := by
  intro mem
  rcases Binary64.mem_toText mem with digit | other
  · contradiction
  · exact absurd other (by decide)

theorem splitMark_toText (e : Entry) : splitMark e.toText = (e.value.toText, e.marked) := by
  obtain ⟨value, marked⟩ := e
  have trimmed : Text.trim value.toText = value.toText := Text.trim_of_no_blank (Binary64.not_isBlank_toText value)
  cases marked with
  | false =>
      have text : Entry.toText ⟨value, false⟩ = value.toText := List.append_nil _
      have unmarked : ¬IsMarked value.toText := by
        rintro ⟨body, trail, eq, -⟩
        exact mark_notMem_toText value (eq ▸ List.mem_append_right body List.mem_cons_self)
      rw [text, splitMark_unmarked unmarked, trimmed]
  | true =>
      have text : Entry.toText ⟨value, true⟩ = value.toText ++ ['!'] := rfl
      rw [text, splitMark_marked Text.AllBlank.nil, trimmed]

theorem ofPiece_toText (e : Entry) (text : List Char) :
    Entry.ofPiece text e.toText = if e.value.isFinite then .ok e else .error (.notFinite (toString e.value)) := by
  simp only [Entry.ofPiece, splitMark_toText, Binary64.ofText?_toText]
  rfl

/-- A warning for a second mark has no effect on what is read. -/
theorem result_readEntries_cons (text : List Char) (seen : Bool) (piece : List Char) (pieces : List (List Char)) :
    (readEntries text seen (piece :: pieces)).result =
      Entry.ofPiece text piece >>= fun e =>
        (readEntries text (seen || e.marked) pieces).result >>= fun es => .ok (e :: es) := by
  rw [readEntries, Traced.result_bind, Traced.result_ofExcept]
  apply bind_congr
  intro e
  have rest : (readEntries text (seen || e.marked) pieces >>= fun es => pure (e :: es)).result =
      (readEntries text (seen || e.marked) pieces).result >>= fun es => .ok (e :: es) := Traced.result_bind _ _
  cases e.marked && seen with
  | false => exact rest
  | true => exact rest

/-- Entries are read back up to the first that is not finite. -/
theorem readEntries_toText (es : List Entry) (text : List Char) (seen : Bool) :
    (readEntries text seen (es.map Entry.toText)).result =
      match es.find? (!·.value.isFinite) with
      | none => .ok es
      | some e => .error (.notFinite (toString e.value)) := by
  induction es generalizing seen with
  | nil => rfl
  | cons e es ih =>
      rw [List.map_cons, result_readEntries_cons, ofPiece_toText, List.find?_cons]
      cases e.value.isFinite with
      | false => rfl
      | true =>
          have rest := ih (seen || e.marked)
          cases none : es.find? (!·.value.isFinite) <;> simp_all [bind, Except.bind]

/-! ## Reading a list -/

/-- The first value that is not finite. -/
def unreadable? (g : Grids) : Option Binary64 := g.values.find? (!·.isFinite)

theorem unreadable?_eq_none {g : Grids} : g.unreadable? = none ↔ ∀ v ∈ g.values, v.isFinite := by
  simp only [unreadable?, List.find?_eq_none, Bool.not_eq_true', Bool.not_eq_false]

theorem comma_notMem_toText (e : Entry) : ',' ∉ e.toText := by
  intro mem
  rcases List.mem_append.1 mem with mem | mem
  · rcases Binary64.mem_toText mem with digit | other
    · contradiction
    · exact absurd other (by decide)
  · cases e.marked <;> simp at mem

theorem splitOn_intercalate_toText {es : List Entry} (filled : es ≠ []) :
    ([','].intercalate (es.map Entry.toText)).splitOn ',' = es.map Entry.toText := by
  apply List.splitOn_intercalate
  · rintro _ hm
    obtain ⟨e, -, rfl⟩ := List.mem_map.1 hm
    exact comma_notMem_toText e
  · rwa [ne_eq, List.map_eq_nil_iff]

/-- A written list is read back entry by entry, if all its values are finite. -/
theorem result_ofText_toText (g : Grids) :
    (ofText g.toText).result =
      match g.unreadable? with
      | none => .ok g.marked
      | some v => .error (.notFinite (toString v)) := by
  have values : g.unreadable? = ((entries g.strongDefault g.values).find? (!·.value.isFinite)).map Entry.value := by
    rw [unreadable?, ← map_value_entries g.strongDefault g.values, List.find?_map, map_value_entries]
    rfl
  rw [values, ← ofEntries_entries, toText, entryTexts_eq]
  generalize entries g.strongDefault g.values = es
  cases es with
  | nil => rfl
  | cons e es =>
      have notBlank : ¬Text.AllBlank ([','].intercalate ((e :: es).map Entry.toText)) := by
        obtain ⟨c, rest, eq⟩ := List.exists_cons_of_ne_nil (Binary64.toText_ne_nil e.value)
        intro blank
        rw [List.map_cons, Entry.toText, eq, List.cons_append, List.intercalate_cons_cons_left] at blank
        exact Binary64.not_isBlank_toText e.value c (by rw [eq]; exact List.mem_cons_self) (blank c List.mem_cons_self)
      rw [ofText, if_neg (by rw [List.isEmpty_iff, Text.trim_eq_nil]; exact notBlank),
        splitOn_intercalate_toText (List.cons_ne_nil e es), Traced.result_bind, readEntries_toText]
      cases (e :: es).find? (!·.value.isFinite) <;> rfl

theorem ofText_toText (g : Grids) (finite : ∀ v ∈ g.values, v.isFinite) :
    (ofText g.toText).result = .ok g.marked := by
  rw [result_ofText_toText, unreadable?_eq_none.2 finite]

/-! ## The strong default -/

/-- The values are finite, and the strong default has the value of the first entry that is near it. -/
structure Portable (g : Grids) : Prop where
  finite : ∀ v ∈ g.values, v.isFinite
  listed : ∀ d ∈ g.strongDefault, ∃ v ∈ g.values.find? (near · d), v.sameValue d

instance (g : Grids) : Decidable g.Portable :=
  decidable_of_iff ((∀ v ∈ g.values, v.isFinite) ∧ ∀ d ∈ g.strongDefault, ∃ v ∈ g.values.find? (near · d), v.sameValue d)
    ⟨fun h => ⟨h.1, h.2⟩, fun h => ⟨h.finite, h.listed⟩⟩

theorem near_congr {a b : Binary64} (h : a.sameValue b) (v : Binary64) : near v a = near v b := by
  rw [near, near, Binary64.distance_congr h]

theorem entryTexts_congr {a b : Binary64} (h : a.sameValue b) (values : List Binary64) :
    entryTexts (some a) values = entryTexts (some b) values := by
  induction values with
  | nil => rfl
  | cons v vs ih => simp only [entryTexts, near_congr h, ih]

theorem Portable.toText_marked {g : Grids} (h : g.Portable) : g.marked.toText = g.toText := by
  rw [toText, toText, marked]
  cases eq : g.strongDefault with
  | none => rfl
  | some d =>
      obtain ⟨v, found, same⟩ := h.listed d eq
      rw [Option.bind_some, Option.mem_def.1 found, entryTexts_congr same]

theorem all_sameValue_self {values : List Binary64} (finite : ∀ v ∈ values, v.isFinite) :
    (values.zip values).all (fun (a, b) => a.sameValue b) := by
  induction values with
  | nil => rfl
  | cons v vs ih =>
      rw [List.forall_mem_cons] at finite
      rw [List.zip_cons_cons, List.all_cons, Bool.and_eq_true]
      exact ⟨Binary64.sameValue_self finite.1, ih finite.2⟩

theorem Portable.same_marked {g : Grids} (h : g.Portable) : g.marked.same g := by
  simp only [same, marked, beq_self_eq_true, all_sameValue_self h.finite, Bool.true_and]
  cases eq : g.strongDefault with
  | none => rfl
  | some d =>
      obtain ⟨v, found, same⟩ := h.listed d eq
      rw [Option.bind_some, Option.mem_def.1 found]
      exact same

theorem find?_near_congr {a b : Binary64} (h : a.sameValue b) (values : List Binary64) :
    values.find? (near · a) = values.find? (near · b) := by
  simp only [near_congr h]

theorem Portable.marked {g : Grids} (h : g.Portable) : g.marked.Portable where
  finite := h.finite
  listed := by
    intro v hv
    obtain ⟨d, eq, found⟩ := Option.bind_eq_some_iff.1 hv
    obtain ⟨w, found', same⟩ := h.listed d eq
    obtain rfl : w = v := Option.some.inj (found'.symm.trans found)
    have self : w.sameValue w := Binary64.sameValue_self (h.finite w (List.mem_of_find?_eq_some found))
    refine ⟨w, ?_, self⟩
    rw [Grids.marked, find?_near_congr same]
    exact found

end LayoutTech.Grids
