import LayoutTech.Proofs.LayoutOptions
import LayoutTech.Proofs.Text.ByteOrder

/-!
# Changing layout options

Options that come about by setting and unsetting, in any order, are what is found of them: what was set last and not
unset since. Two such values are equal when the same is found in both, however they came about.
-/

namespace LayoutTech.LayoutOptions

variable {o : LayoutOptions} {format key value : String}

/-! ## Unsetting -/

theorem ofFormat_replaceFormat (o : LayoutOptions) (format : String) (options : Table String) (other : String) :
    (o.replaceFormat format options).ofFormat other = if format = other then options else o.ofFormat other := by
  unfold replaceFormat
  split
  · next none =>
      have nothing : options = .empty := Table.ext_entries (List.isEmpty_iff.1 none)
      rw [ofFormat, Table.get?_erase, nothing]
      split <;> rfl
  · rw [ofFormat, setFormat, Table.get?_insert]
    split <;> rfl

theorem fst_remove (o : LayoutOptions) (format key : String) : (o.remove format key).1 = o.get? format key := by
  rw [remove, get?, ofFormat]
  cases o.formats.get? format <;> rfl

theorem ofFormat_unset (o : LayoutOptions) (format key other : String) :
    (o.unset format key).ofFormat other =
      if format = other then (o.ofFormat format).erase key else o.ofFormat other := by
  cases found : o.formats.get? format with
  | none =>
      have nothing : o.ofFormat format = .empty := by
        rw [ofFormat, found]
        rfl
      have kept : o.unset format key = o := by
        rw [unset, remove, found]
      rw [kept]
      by_cases same : format = other
      · rw [if_pos same, ← same, nothing]
        rfl
      · rw [if_neg same]
  | some options =>
      have here : o.ofFormat format = options := by
        rw [ofFormat, found]
        rfl
      have replaced : o.unset format key = o.replaceFormat format (options.erase key) := by
        rw [unset, remove, found]
      rw [replaced, ofFormat_replaceFormat, here]

theorem get?_unset (o : LayoutOptions) (format key other k : String) :
    (o.unset format key).get? other k = if format = other ∧ key = k then none else o.get? other k := by
  rw [get?, ofFormat_unset]
  by_cases same : format = other
  · rw [if_pos same, Table.get?_erase, same]
    simp [get?]
  · rw [if_neg same, if_neg fun h => same h.1, get?]

/-! ## What is listed -/

theorem mem_formatNames_iff : format ∈ o.formatNames ↔ ∃ key value, o.get? format key = some value := by
  rw [formatNames, Table.mem_keys_iff, Table.contains, ← not_iff_not, Bool.not_eq_true, Option.isSome_eq_false_iff,
    Option.isNone_iff_eq_none, get?_formats_eq_none_iff]
  simp only [not_exists, Option.eq_none_iff_forall_ne_some, ne_eq]

theorem isEmpty_ofFormat_iff : (o.ofFormat format).isEmpty = false ↔ ∃ key value, o.get? format key = some value := by
  rw [Table.isEmpty, List.isEmpty_eq_false_iff_exists_mem]
  constructor
  · rintro ⟨⟨key, value⟩, mem⟩
    exact ⟨key, value, Table.get?_eq_some_iff.2 mem⟩
  · rintro ⟨key, value, found⟩
    exact ⟨_, Table.get?_eq_some_iff.1 found⟩

theorem isEmpty_iff : o.isEmpty ↔ ∀ format key, o.get? format key = none := by
  constructor
  · intro none format key
    have nothing : o = empty := ext_formats (Table.ext_entries (List.isEmpty_iff.1 none))
    rw [nothing]
    rfl
  · intro none
    have nothing : o = empty := ext_get? none
    rw [nothing]
    rfl

/-! ## Rows of changes -/

/-- A call that changes options. -/
inductive Change where
  | set (format key value : String)
  | unset (format key : String)
deriving DecidableEq

def Change.apply (o : LayoutOptions) : Change → LayoutOptions
  | .set format key value => o.set format key value
  | .unset format key => o.unset format key

def Change.IsAbout (format key : String) : Change → Prop
  | .set f k _ => f = format ∧ k = key
  | .unset f k => f = format ∧ k = key

/-- The options after the changes, from none at all. -/
def after (changes : List Change) : LayoutOptions := changes.foldl Change.apply empty

theorem after_concat (changes : List Change) (change : Change) :
    after (changes ++ [change]) = change.apply (after changes) := by
  rw [after, List.foldl_append]
  rfl

theorem get?_apply_of_not_isAbout {change : Change} (h : ¬change.IsAbout format key) :
    (change.apply o).get? format key = o.get? format key := by
  cases change with
  | set f k v => exact (get?_set o f k v format key).trans (if_neg h)
  | unset f k => exact (get?_unset o f k format key).trans (if_neg h)

theorem get?_apply_of_isAbout {change : Change} (h : change.IsAbout format key) :
    (change.apply o).get? format key = some value ↔ change = .set format key value := by
  cases change with
  | set f k v =>
      obtain ⟨rfl, rfl⟩ := h
      rw [Change.apply, get?_set, if_pos ⟨rfl, rfl⟩, Option.some.injEq, Change.set.injEq]
      simp
  | unset f k =>
      rw [Change.apply, get?_unset]
      exact iff_of_false (fun found => nomatch (if_pos h).symm.trans found) nofun

/-- What is found was set, and nothing happened to it since. -/
theorem get?_after_eq_some_iff {changes : List Change} :
    (after changes).get? format key = some value ↔
      ∃ before later, changes = before ++ .set format key value :: later ∧ ∀ c ∈ later, ¬c.IsAbout format key := by
  induction changes using List.reverseRecOn with
  | nil => simp [after, get?, ofFormat, empty]
  | append_singleton changes change ih =>
      rw [after_concat]
      constructor
      · intro found
        by_cases about : change.IsAbout format key
        · obtain rfl := (get?_apply_of_isAbout about).1 found
          exact ⟨changes, [], rfl, List.forall_mem_nil _⟩
        · rw [get?_apply_of_not_isAbout about, ih] at found
          obtain ⟨before, later, rfl, quiet⟩ := found
          refine ⟨before, later ++ [change], List.append_assoc .., ?_⟩
          exact List.forall_mem_append.2 ⟨quiet, List.forall_mem_singleton.2 about⟩
      · rintro ⟨before, later, eq, quiet⟩
        rcases List.eq_nil_or_concat later with rfl | ⟨later, last, rfl⟩
        · obtain ⟨-, same⟩ := List.append_inj' eq rfl
          cases same
          have about : (Change.set format key value).IsAbout format key := ⟨rfl, rfl⟩
          exact (get?_apply_of_isAbout about).2 rfl
        · rw [List.concat_eq_append] at eq quiet
          rw [← List.cons_append, ← List.append_assoc] at eq
          obtain ⟨rfl, same⟩ := List.append_inj' eq rfl
          cases same
          obtain ⟨quiet, silent⟩ := List.forall_mem_append.1 quiet
          rw [get?_apply_of_not_isAbout (silent change (List.mem_singleton_self _)), ih]
          exact ⟨before, later, rfl, quiet⟩

/-! ## Order -/

theorem bytes_keys {α : Type} (t : Table α) :
    t.keys.Pairwise fun a b => List.Lex (· < ·) (Text.bytes a) (Text.bytes b) :=
  List.pairwise_map.2 (t.sorted.imp Text.bytes_lt)

/-- After any row of changes, an option has the value that it was set to last, unless it was unset since. Removing an
option hands back what was found and changes nothing else, the lists have what is found in the order of bytes, there
is no format without options, and the options are determined by what is found. -/
theorem after_extensional (changes others : List Change) :
    let o := after changes
    (∀ format key value, o.get? format key = some value ↔
        ∃ before later, changes = before ++ .set format key value :: later ∧ ∀ c ∈ later, ¬c.IsAbout format key) ∧
      (∀ format key, (o.remove format key).1 = o.get? format key ∧
        ∀ other k, (o.remove format key).2.get? other k =
          if format = other ∧ key = k then none else o.get? other k) ∧
      (∀ format, format ∈ o.formatNames ↔ (o.ofFormat format).isEmpty = false) ∧
      (∀ format, format ∈ o.formatNames ↔ ∃ key value, o.get? format key = some value) ∧
      (∀ format key value, (key, value) ∈ (o.ofFormat format).entries ↔ o.get? format key = some value) ∧
      o.formatNames.Pairwise (fun a b => List.Lex (· < ·) (Text.bytes a) (Text.bytes b)) ∧
      (∀ format, (o.ofFormat format).keys.Pairwise fun a b => List.Lex (· < ·) (Text.bytes a) (Text.bytes b)) ∧
      (o.isEmpty ↔ ∀ format key, o.get? format key = none) ∧
      (o = after others ↔ ∀ format key, o.get? format key = (after others).get? format key) := by
  intro o
  refine ⟨fun _ _ _ => get?_after_eq_some_iff, fun format key => ⟨fst_remove o format key, get?_unset o format key⟩,
    fun _ => mem_formatNames_iff.trans isEmpty_ofFormat_iff.symm, fun _ => mem_formatNames_iff,
    fun _ _ _ => Table.get?_eq_some_iff.symm, bytes_keys _, fun _ => bytes_keys _, isEmpty_iff, ?_⟩
  constructor
  · rintro same format key
    rw [same]
  · exact ext_get?

end LayoutTech.LayoutOptions
