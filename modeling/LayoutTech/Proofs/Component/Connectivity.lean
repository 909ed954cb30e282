import LayoutTech.Component.Connectivity
import LayoutTech.Proofs.Text.Cutting

/-!
# Written connections and symbols

A canonical connection or symbol, one whose parts have no blanks around them and do not contain what
separates them, is read back from its text. What is read is canonical, whatever the text.
-/

namespace LayoutTech

namespace Text

/-- There is no blank at either end. -/
def IsTrimmed (s : String) : Prop := trim s.toList = s.toList

instance (s : String) : Decidable (IsTrimmed s) := inferInstanceAs (Decidable (_ = _))

theorem isTrimmed_iff {s : String} :
    IsTrimmed s ↔ (∀ c ∈ s.toList.head?, ¬isBlank c) ∧ ∀ c ∈ s.toList.getLast?, ¬isBlank c :=
  trim_eq_self_iff

theorem cutAt?_stop {sep : Char} {cs : List Char} (h : sep ∉ cs) (rest : List Char) :
    cutAt? sep (cs ++ sep :: rest) = some (cs, rest) := by
  induction cs with
  | nil => exact if_pos rfl
  | cons c cs ih =>
      rw [List.mem_cons, not_or] at h
      rw [List.cons_append, cutAt?, if_neg (Ne.symm h.1), ih h.2]
      rfl

theorem notMem_of_cutAt? {sep : Char} {cs before after : List Char} (h : cutAt? sep cs = some (before, after)) :
    sep ∉ before := by
  induction cs generalizing before with
  | nil => cases h
  | cons c cs ih =>
      rw [cutAt?] at h
      split at h
      · cases h
        exact List.not_mem_nil
      · next ne =>
          obtain ⟨⟨first, rest⟩, cut, eq⟩ := Option.map_eq_some_iff.1 h
          cases eq
          rw [List.mem_cons, not_or]
          exact ⟨Ne.symm ne, ih cut⟩

theorem isTrimmed_ofList_trim (cs : List Char) : IsTrimmed (String.ofList (trim cs)) := by
  rw [IsTrimmed, String.toList_ofList, trim_trim]

end Text

namespace Connection

/-- A part of a row: not empty, trimmed, and without a comma. -/
def IsLayer (layer : String) : Prop := layer ≠ "" ∧ ',' ∉ layer.toList ∧ Text.IsTrimmed layer

instance (layer : String) : Decidable (IsLayer layer) := inferInstanceAs (Decidable (_ ∧ _))

def IsCanonical (c : Connection) : Prop := ∀ layer ∈ c.layers, IsLayer layer

instance (c : Connection) : Decidable c.IsCanonical := inferInstanceAs (Decidable (∀ layer ∈ c.layers, _))

theorem layers_ne_nil (c : Connection) : c.layers ≠ [] := by
  obtain ⟨a, via, b⟩ := c
  cases via <;> exact List.cons_ne_nil _ _

theorem ofLayers?_layers (c : Connection) : ofLayers? c.layers = some c := by
  obtain ⟨a, via, b⟩ := c
  cases via <;> rfl

theorem splitOn_toText {c : Connection} (h : c.IsCanonical) :
    c.toText.toList.splitOn ',' = c.layers.map String.toList := by
  rw [toText, String.toList_ofList]
  apply List.splitOn_intercalate
  · intro piece hp
    obtain ⟨layer, hl, rfl⟩ := List.mem_map.1 hp
    exact (h layer hl).2.1
  · rw [ne_eq, List.map_eq_nil_iff]
    exact c.layers_ne_nil

theorem map_trim_layers {layers : List String} (h : ∀ layer ∈ layers, IsLayer layer) :
    ((layers.map String.toList).map fun piece => String.ofList (Text.trim piece)) = layers := by
  induction layers with
  | nil => rfl
  | cons layer rest ih =>
      rw [List.forall_mem_cons] at h
      have trimmed : Text.trim layer.toList = layer.toList := h.1.2.2
      rw [List.map_cons, List.map_cons, ih h.2, trimmed, String.ofList_toList]

theorem ofText_toText {c : Connection} (h : c.IsCanonical) : ofText c.toText = .ok c := by
  have filled : ¬c.layers.any String.isEmpty := by
    rw [List.any_eq_true]
    rintro ⟨layer, hl, empty⟩
    exact (h layer hl).1 (String.isEmpty_iff.1 empty)
  simp only [ofText, splitOn_toText h, map_trim_layers h, if_neg filled, ofLayers?_layers]

theorem layers_of_ofLayers? {layers : List String} {c : Connection} (h : ofLayers? layers = some c) :
    c.layers = layers := by
  unfold ofLayers? at h
  split at h <;> cases h <;> rfl

theorem isCanonical_of_ofText {text : String} {c : Connection} (h : ofText text = .ok c) : c.IsCanonical := by
  simp only [ofText] at h
  split at h
  · cases h
  · next filled =>
      split at h
      · next found =>
          cases h
          rw [IsCanonical, layers_of_ofLayers? found]
          intro layer hl
          obtain ⟨piece, hp, rfl⟩ := List.mem_map.1 hl
          refine ⟨fun empty => filled (List.any_eq_true.2 ⟨_, hl, String.isEmpty_iff.2 empty⟩), ?_,
            Text.isTrimmed_ofList_trim piece⟩
          rw [String.toList_ofList]
          exact fun mem => Text.notMem_of_mem_splitOn hp (Text.trim_subset piece mem)
      · cases h

theorem ofText_toText_iff {c : Connection} : ofText c.toText = .ok c ↔ c.IsCanonical :=
  ⟨isCanonical_of_ofText, ofText_toText⟩

end Connection

namespace LayerSymbol

/-- Both parts are trimmed; the symbol is not empty and has no `=` in it. -/
def IsCanonical (s : LayerSymbol) : Prop :=
  s.symbol ≠ "" ∧ '=' ∉ s.symbol.toList ∧ Text.IsTrimmed s.symbol ∧ Text.IsTrimmed s.expression

instance (s : LayerSymbol) : Decidable s.IsCanonical := inferInstanceAs (Decidable (_ ∧ _))

theorem ofText_toText {s : LayerSymbol} (h : s.IsCanonical) : ofText s.toText = .ok s := by
  obtain ⟨notEmpty, noStop, trimmed, trimmedExpression⟩ := h
  have text : s.toText.toList = s.symbol.toList ++ '=' :: s.expression.toList := by
    rw [toText, String.toList_append, String.toList_append, List.append_assoc]
    rfl
  have filled : ¬s.symbol.toList.isEmpty := by
    rwa [List.isEmpty_iff, String.toList_eq_nil_iff]
  rw [ofText, text, Text.cutAt?_stop noStop]
  simp only [Text.IsTrimmed] at trimmed trimmedExpression
  simp only [trimmed, trimmedExpression, if_neg filled, String.ofList_toList]

theorem isCanonical_of_ofText {text : String} {s : LayerSymbol} (h : ofText text = .ok s) : s.IsCanonical := by
  simp only [ofText] at h
  split at h
  · cases h
  · next before after cut =>
      split at h
      · cases h
      · next filled =>
          cases h
          refine ⟨?_, ?_, Text.isTrimmed_ofList_trim before, Text.isTrimmed_ofList_trim after⟩
          · rwa [ne_eq, String.ofList_eq_empty_iff, ← List.isEmpty_iff]
          · rw [String.toList_ofList]
            exact fun mem => Text.notMem_of_cutAt? cut (Text.trim_subset before mem)

theorem ofText_toText_iff {s : LayerSymbol} : ofText s.toText = .ok s ↔ s.IsCanonical :=
  ⟨isCanonical_of_ofText, ofText_toText⟩

end LayerSymbol

end LayoutTech
