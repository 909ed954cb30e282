import Mathlib.Data.List.Induction
import LayoutTech.LayoutOptions
import LayoutTech.Proofs.Table

/-!
# Setting layout options

Options are determined by what their formats and keys find, which is what was set last. Setting the options of
a value one after another, format by format, builds the value again.
-/

namespace LayoutTech.LayoutOptions

variable {o p : LayoutOptions}

theorem ext_formats (h : o.formats = p.formats) : o = p := by
  cases o
  cases p
  cases h
  rfl

theorem formats_set (o : LayoutOptions) (format key value : String) :
    (o.set format key value).formats = o.formats.insert format ((o.ofFormat format).insert key value) :=
  rfl

theorem ofFormat_set (o : LayoutOptions) (format key value : String) :
    (o.set format key value).ofFormat format = (o.ofFormat format).insert key value := by
  rw [ofFormat, formats_set, Table.get?_insert, if_pos rfl]
  rfl

theorem ofFormat_of_ne {format : String} (h : ∀ e ∈ o.formats.entries, e.1 ≠ format) :
    o.ofFormat format = .empty := by
  rw [ofFormat, Table.get?_eq_none_iff.2 h]
  rfl

/-! ## What is found -/

theorem ofFormat_set_of_ne {format other : String} (h : format ≠ other) (key value : String) :
    (o.set format key value).ofFormat other = o.ofFormat other := by
  rw [ofFormat, formats_set, Table.get?_insert, if_neg h]
  rfl

theorem get?_set (o : LayoutOptions) (format key value other k : String) :
    (o.set format key value).get? other k = if format = other ∧ key = k then some value else o.get? other k := by
  by_cases same : format = other
  · subst same
    rw [get?, ofFormat_set, Table.get?_insert]
    simp [get?]
  · rw [get?, ofFormat_set_of_ne same, if_neg fun h => same h.1, get?]

/-- Of all values given to an option, the last one is found. -/
theorem get?_ofList (options : List (String × String × String)) (format key : String) :
    (ofList options).get? format key =
      (options.filter fun o => o.1 = format ∧ o.2.1 = key).getLast?.map (·.2.2) := by
  induction options using List.reverseRecOn with
  | nil => rfl
  | append_singleton options option ih =>
      obtain ⟨f, k, value⟩ := option
      have next : ofList (options ++ [(f, k, value)]) = (ofList options).set f k value := by
        rw [ofList, List.foldl_append]
        rfl
      rw [next, get?_set, ih, List.filter_append]
      by_cases same : f = format ∧ k = key <;> simp [same]

/-- A format that exists has an option. -/
theorem get?_formats_eq_none_iff {format : String} : o.formats.get? format = none ↔ ∀ key, o.get? format key = none := by
  cases found : o.formats.get? format with
  | none => simp [get?, ofFormat, found]
  | some t =>
      have filled := o.filled _ (Table.get?_eq_some_iff.1 found)
      obtain ⟨⟨key, value⟩, rest, entries⟩ := List.exists_cons_of_ne_nil (List.isEmpty_eq_false_iff.1 filled)
      have mem : (key, value) ∈ t.entries := entries ▸ List.mem_cons_self
      have option : o.get? format key = some value := by
        rw [get?, ofFormat, found]
        exact Table.get?_eq_some_iff.2 mem
      refine ⟨nofun, fun none => ?_⟩
      rw [none key] at option
      cases option

theorem ext_get? (h : ∀ format key, o.get? format key = p.get? format key) : o = p := by
  apply ext_formats
  apply Table.ext_get?
  intro format
  have none : o.formats.get? format = none ↔ p.formats.get? format = none := by
    simp only [get?_formats_eq_none_iff, h]
  cases left : o.formats.get? format with
  | none => exact (none.1 left).symm
  | some s =>
      cases right : p.formats.get? format with
      | none => rw [none.2 right] at left; cases left
      | some t =>
          congr 1
          apply Table.ext_get?
          intro key
          have found := h format key
          rwa [get?, get?, ofFormat, ofFormat, left, right] at found

/-! ## Setting all -/

def setAll (o : LayoutOptions) (format : String) (entries : List (String × String)) : LayoutOptions :=
  entries.foldl (fun o (key, value) => o.set format key value) o

def setFormats (o : LayoutOptions) (formats : List (String × Table String)) : LayoutOptions :=
  formats.foldl (fun o (format, t) => o.setAll format t.entries) o

theorem formats_setAll (o : LayoutOptions) (format : String) {entries : List (String × String)} (h : entries ≠ []) :
    (o.setAll format entries).formats =
      o.formats.insert format (entries.foldl (fun t (key, value) => t.insert key value) (o.ofFormat format)) := by
  induction entries generalizing o with
  | nil => exact absurd rfl h
  | cons e rest ih =>
      cases rest with
      | nil => rfl
      | cons next rest =>
          have later := ih (o.set format e.1 e.2) (List.cons_ne_nil _ _)
          rw [formats_set, ofFormat_set, Table.insert_insert] at later
          exact later

/-- A format that is not there gets the options of the table. -/
theorem formats_setAll_entries {format : String} {t : Table String} (new : ∀ e ∈ o.formats.entries, e.1 ≠ format)
    (h : t.isEmpty = false) : (o.setAll format t.entries).formats = o.formats.insert format t := by
  have filled : t.entries ≠ [] := List.isEmpty_eq_false_iff.1 h
  rw [formats_setAll o format filled, ofFormat_of_ne new]
  exact congrArg _ t.ofList_entries

theorem entries_setFormats {formats : List (String × Table String)}
    (sorted : (o.formats.entries ++ formats).Pairwise fun a b => a.1 < b.1)
    (filled : ∀ format ∈ formats, format.2.isEmpty = false) :
    (o.setFormats formats).formats.entries = o.formats.entries ++ formats := by
  induction formats generalizing o with
  | nil => exact (List.append_nil _).symm
  | cons format rest ih =>
      rw [List.forall_mem_cons] at filled
      have below : ∀ e ∈ o.formats.entries, e.1 < format.1 := fun e he =>
        (List.pairwise_append.1 sorted).2.2 e he format List.mem_cons_self
      have new : ∀ e ∈ o.formats.entries, e.1 ≠ format.1 := fun e he eq =>
        String.lt_irrefl format.1 (eq ▸ below e he)
      have next : (o.setAll format.1 format.2.entries).formats.entries = o.formats.entries ++ [format] := by
        rw [formats_setAll_entries new filled.1, Table.entries_insert_last below]
      rw [setFormats, List.foldl_cons, ← setFormats, ih (by rwa [next, List.append_assoc]) filled.2, next,
        List.append_assoc]
      rfl

theorem setFormats_entries (o : LayoutOptions) : LayoutOptions.empty.setFormats o.formats.entries = o :=
  ext_formats (Table.ext_entries (entries_setFormats o.formats.sorted o.filled))

end LayoutTech.LayoutOptions
