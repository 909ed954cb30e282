import LayoutTech.Proofs.Component.Codec
import LayoutTech.Proofs.Grids
import LayoutTech.Proofs.Technology.Keys

/-!
# Written fields

The parts of a technology's document, each read back from what is written for it: the database unit, the
options, and the blocks of the components.
-/

namespace LayoutTech.Technology

theorem mapM_eq_ok {ε α β : Type} {f : α → Except ε β} {g : α → β} {as : List α} (h : ∀ a ∈ as, f a = .ok (g a)) :
    as.mapM f = .ok (as.map g) := by
  induction as with
  | nil => rfl
  | cons a as ih =>
      rw [List.forall_mem_cons] at h
      rw [List.mapM_cons, h.1, ih h.2]
      rfl

/-! ## The database unit -/

theorem isFinite_of_isUnit {dbu : Binary64} (h : isUnit dbu) : dbu.isFinite := by
  rw [isUnit, Bool.and_eq_true] at h
  exact h.1

theorem unitOfText_toString {dbu : Binary64} (h : isUnit dbu) : unitOfText (toString dbu) = .ok dbu := by
  have text : (toString dbu).toList = dbu.toText := String.toList_ofList
  have trimmed : Text.trim dbu.toText = dbu.toText := Text.trim_of_no_blank (Binary64.not_isBlank_toText dbu)
  rw [unitOfText, text, trimmed, Binary64.ofText?_toText dbu]
  exact if_pos h

/-! ## Options -/

def isTagChar (c : Char) : Bool := c.isAlphanum || c == '_' || c == '-' || c == '.'

theorem toNat_of_isAlphanum {c : Char} (h : c.isAlphanum) : c.toNat < 128 := by
  have ranges : ((decide ('A'.val ≤ c.val ∧ c.val ≤ 'Z'.val) || (decide ('a'.val ≤ c.val) && decide (c.val ≤ 'z'.val))) ||
      (decide ('0'.val ≤ c.val) && decide (c.val ≤ '9'.val))) = true := h
  simp only [UInt32.le_iff_toNat_le, Bool.or_eq_true, Bool.and_eq_true, decide_eq_true_eq] at ranges
  have lower : 'z'.val.toNat = 122 := rfl
  have upper : 'Z'.val.toNat = 90 := rfl
  have digit : '9'.val.toNat = 57 := rfl
  have same : c.toNat = c.val.toNat := rfl
  omega

theorem isNameChar_of_isTagChar {c : Char} (h : isTagChar c) : Xml.isNameChar c := by
  have ascii : ∀ n : Fin 128, isTagChar (Char.ofNat n) → Xml.isNameChar (Char.ofNat n) := by decide
  simp only [isTagChar, Bool.or_eq_true, beq_iff_eq] at h
  rcases h with ((h | rfl) | rfl) | rfl
  · have found := ascii ⟨c.toNat, toNat_of_isAlphanum h⟩
    rw [Char.ofNat_toNat] at found
    exact found (by simp [isTagChar, h])
  all_goals decide

theorem isClean_of_isTagName {s : String} (h : isTagName s) : Xml.IsClean s := by
  unfold isTagName at h
  unfold Xml.IsClean
  cases eq : s.toList with
  | nil => rw [eq] at h; contradiction
  | cons c cs =>
      simp only [eq, Bool.and_eq_true, List.all_eq_true] at h
      refine ⟨List.cons_ne_nil _ _, List.forall_mem_cons.2 ⟨?_, fun d hd => isNameChar_of_isTagChar (h.2 d hd)⟩⟩
      apply isNameChar_of_isTagChar
      simp only [isTagChar, Char.isAlphanum, Bool.or_eq_true] at h ⊢
      rcases h.1 with letter | underscore
      · exact .inl (.inl (.inl (.inl letter)))
      · exact .inl (.inl (.inr underscore))

/-- The names of all formats and of their options can be tags. -/
def HasTagNames (options : LayoutOptions) : Prop :=
  ∀ format ∈ options.formats.entries, isTagName format.1 ∧ ∀ option ∈ format.2.entries, isTagName option.1

instance (options : LayoutOptions) : Decidable (HasTagNames options) :=
  inferInstanceAs (Decidable (∀ format ∈ options.formats.entries, _ ∧ _))

def optionElements (options : List (String × String)) : List Xml.Element :=
  options.map fun (key, value) => .ofText key value

def formatElement (format : String × Table String) : Xml.Element :=
  .ofChildren format.1 (optionElements format.2.entries)

def optionsElement (tag : String) (options : LayoutOptions) : Xml.Element :=
  .ofChildren tag (options.formats.entries.map formatElement)

theorem writeFormat_eq (tag : String) {format : String × Table String} (name : isTagName format.1)
    (keys : ∀ option ∈ format.2.entries, isTagName option.1) : writeFormat tag format = .ok (formatElement format) := by
  have noBadKey : format.2.keys.find? (!isTagName ·) = none := by
    rw [List.find?_eq_none]
    intro key hk
    obtain ⟨option, ho, rfl⟩ := List.mem_map.1 hk
    rw [keys option ho]
    exact Bool.false_ne_true
  rw [writeFormat, name, noBadKey]
  rfl

theorem writeOptions_eq (tag : String) {options : LayoutOptions} (h : HasTagNames options) :
    writeOptions tag options = .ok (optionsElement tag options) := by
  have formats : options.formats.entries.mapM (writeFormat tag) = .ok (options.formats.entries.map formatElement) :=
    mapM_eq_ok fun format hf => writeFormat_eq tag (h format hf).1 (h format hf).2
  rw [writeOptions, formats]
  rfl

theorem readFormat_optionElements (tag format : String) (options : LayoutOptions) (entries : List (String × String)) :
    readFormat tag format options (optionElements entries) = .ok (options.setAll format entries) := by
  induction entries generalizing options with
  | nil => rfl
  | cons entry rest ih => exact ih (options.set format entry.1 entry.2)

theorem readOptions_optionsElement (tag : String) (options : LayoutOptions) :
    readOptions (optionsElement tag options) = .ok options := by
  have read (formats : List (String × Table String)) (start : LayoutOptions) :
      (formats.map formatElement).foldlM (fun o block => readFormat tag block.name o block.children) start =
        .ok (start.setFormats formats) := by
    induction formats generalizing start with
    | nil => rfl
    | cons format rest ih =>
        have first := readFormat_optionElements tag format.1 start format.2.entries
        rw [List.map_cons, List.foldlM_cons, formatElement, Xml.Element.name_ofChildren,
          Xml.Element.children_ofChildren, first]
        exact ih _
  exact (read options.formats.entries .empty).trans (congrArg _ options.setFormats_entries)

theorem survives_optionsElement {style : Xml.Style} {tag : String} (clean : Xml.IsClean tag) {options : LayoutOptions}
    (h : HasTagNames options) : (optionsElement tag options).Survives style := by
  apply Xml.Element.survives_ofChildren clean
  intro block hb
  obtain ⟨format, hf, rfl⟩ := List.mem_map.1 hb
  apply Xml.Element.survives_ofChildren (isClean_of_isTagName (h format hf).1)
  intro element he
  obtain ⟨option, ho, rfl⟩ := List.mem_map.1 he
  exact Xml.Element.survives_ofText (isClean_of_isTagName ((h format hf).2 option ho)) _

/-! ## Components -/

/-- Every component survives being written. -/
def HasPortable (style : Xml.Style) (components : Table Component) : Prop :=
  ∀ entry ∈ components.entries, entry.2.Portable style

instance (style : Xml.Style) (components : Table Component) : Decidable (HasPortable style components) :=
  inferInstanceAs (Decidable (∀ entry ∈ components.entries, _))

/-- The codecs read every component from its block. -/
def AreReadBack (codecs : Codecs) (components : Table Component) : Prop :=
  ∀ entry ∈ components.entries, (codecs.decode entry.2.block).result = .ok entry.2

theorem HasPortable.areReadBack {style : Xml.Style} {components : Table Component} (h : HasPortable style components) :
    AreReadBack .builtin components := fun entry he => (h entry he).decode_block

/-- A row of blocks, with none of a component that is there already, adds its components. -/
theorem addBlocks_result {codecs : Codecs} {draft : Draft} {entries : List (String × Component)}
    (sorted : (draft.technology.components.entries ++ entries).Pairwise fun a b => a.1 < b.1)
    (keyed : ∀ entry ∈ entries, entry.2.name = entry.1)
    (back : ∀ entry ∈ entries, (codecs.decode entry.2.block).result = .ok entry.2) :
    ((entries.map fun entry => entry.2.block).foldlM (Draft.addBlock codecs) draft).result =
      .ok (draft.update fun t =>
        { t with components := entries.foldl (fun t (name, c) => t.insert name c) t.components }) := by
  -- As the names come in order, each component goes to the end of the table, and none of its name is there.
  induction entries generalizing draft with
  | nil => rfl
  | cons entry rest ih =>
      rw [List.forall_mem_cons] at keyed back
      have below : ∀ e ∈ draft.technology.components.entries, e.1 < entry.1 := fun e he =>
        (List.pairwise_append.1 sorted).2.2 e he entry List.mem_cons_self
      have name : entry.2.block.name = entry.1 := (Component.name_block _).trans keyed.1
      have new : draft.technology.components.contains entry.2.block.name = false := by
        apply Table.contains_eq_false
        rw [name]
        rintro e he eq
        exact String.lt_irrefl entry.1 (eq ▸ below e he)
      have decoded : ((codecs.decode entry.2.block).mapError (Draft.blockFault entry.2.block.name)).result =
          .ok entry.2 := by
        rw [Traced.result_mapError, back.1]
        rfl
      have added : (Draft.addBlock codecs draft entry.2.block).result =
          .ok (draft.update fun t => { t with components := t.components.insert entry.1 entry.2 }) := by
        rw [Draft.addBlock, new, if_neg Bool.false_ne_true, Traced.result_bind_of_ok decoded, ← keyed.1]
        rfl
      have next : (draft.technology.components.insert entry.1 entry.2).entries =
          draft.technology.components.entries ++ [entry] := Table.entries_insert_last below
      rw [List.map_cons, List.foldlM_cons, Traced.result_bind_of_ok added]
      refine ih ?_ keyed.2 back.2
      rw [Draft.update, next, List.append_assoc]
      exact sorted

end LayoutTech.Technology
