import LayoutTech.Proofs.LayoutOptions
import LayoutTech.Technology.Document

/-!
# What a child says

The fields of a technology as the children of its element give them: the tags of a field, the texts that can be
read for it, and the value that is read. Reading a child for a field changes that field alone.
-/

namespace LayoutTech

theorem exists_ok_of_any {ε α : Type} {x : Except ε α} {p : α → Bool} (h : x.toOption.any p) :
    ∃ a, x = .ok a ∧ p a := by
  cases x with
  | error e => cases h
  | ok a => exact ⟨a, rfl, h⟩

/-! ## Options of an element -/

namespace Xml.Element

/-- Format, key and value of each option in the element. -/
def options (e : Element) : List (String × String × String) :=
  e.children.flatMap fun block => block.children.map fun option => (block.name, option.name, option.text)

/-- The value of the last option of the format and key. -/
def lastOption? (e : Element) (format key : String) : Option String :=
  (e.options.filter fun o => o.1 = format ∧ o.2.1 = key).getLast?.map (·.2.2)

end Xml.Element

/-! ## Texts -/

namespace Technology

theorem unitOfText_eq_ok_iff {text : String} {dbu : Binary64} :
    unitOfText text = .ok dbu ↔
      Binary64.ofText? (Text.trim text.toList) = some dbu ∧ dbu.isFinite ∧ dbu.isPositive := by
  unfold unitOfText
  cases Binary64.ofText? (Text.trim text.toList) with
  | none => simp
  | some number =>
      by_cases unit : isUnit number
      · have both : number.isFinite = true ∧ number.isPositive = true := by simpa [isUnit] using unit
        simp only [unit, if_true, Except.ok.injEq, Option.some.injEq]
        exact ⟨fun same => ⟨same, same ▸ both⟩, And.left⟩
      · simp only [unit, if_false, reduceCtorEq, Option.some.injEq, false_iff]
        rintro ⟨rfl, finite, positive⟩
        exact unit (by simp [isUnit, finite, positive])

theorem boolOfText_eq_ok_iff {tag text : String} {b : Bool} :
    boolOfText tag text = .ok b ↔ trimmed text ∈ if b then ["true", "1"] else ["false", "0"] := by
  unfold boolOfText
  generalize trimmed text = word
  by_cases yes : word = "true" ∨ word = "1"
  · rcases yes with rfl | rfl <;> cases b <;> simp
  · by_cases no : word = "false" ∨ word = "0"
    · rcases no with rfl | rfl <;> cases b <;> simp
    · cases b <;> simp_all

end Technology

/-! ## Fields -/

namespace Field

/-- All tags of a field, those of older documents included. -/
def tags : Field → List String
  | .name => ["name"]
  | .description => ["description"]
  | .group => ["group"]
  | .dbu => ["dbu"]
  | .grids => ["default-grids"]
  | .layerPropertiesFile => ["layer-properties-file", "layer-properties_file"]
  | .defaultBasePath => ["default-base-path", "original-base-path"]
  | .explicitBasePath => ["explicit-base-path", "base-path"]
  | .addOtherLayers => ["add-other-layers"]
  | .readerOptions => ["reader-options"]
  | .writerOptions => ["writer-options"]
  | .components => ["components"]

/-- The child can be read for the field. -/
def Accepts (child : Xml.Element) : Field → Prop
  | .dbu => ∃ dbu, Binary64.ofText? (Text.trim child.text.toList) = some dbu ∧ dbu.isFinite ∧ dbu.isPositive
  | .grids => ∃ grids, (Grids.ofText child.text.toList).result = .ok grids
  | .addOtherLayers => trimmed child.text ∈ ["true", "1"] ∨ trimmed child.text ∈ ["false", "0"]
  | .readerOptions | .writerOptions => ∀ block ∈ child.children, ∀ option ∈ block.children, option.children = []
  | _ => True

/-- The field has the value that the child gives. Components come from many children, and no child alone says
what they are. -/
def Holds (child : Xml.Element) (t : Technology) : Field → Prop
  | .name => t.name = child.text
  | .description => t.description = child.text
  | .group => t.group = child.text
  | .dbu => Binary64.ofText? (Text.trim child.text.toList) = some t.dbu
  | .grids => (Grids.ofText child.text.toList).result = .ok t.grids
  | .layerPropertiesFile => t.layerPropertiesFile = child.text
  | .defaultBasePath => t.defaultBasePath = child.text
  | .explicitBasePath => t.explicitBasePath = child.text
  | .addOtherLayers => trimmed child.text ∈ if t.addOtherLayers then ["true", "1"] else ["false", "0"]
  | .readerOptions => ∀ format key, t.readerOptions.get? format key = child.lastOption? format key
  | .writerOptions => ∀ format key, t.writerOptions.get? format key = child.lastOption? format key
  | .components => True

/-- The field has the same value in both technologies. -/
def Same (t u : Technology) : Field → Prop
  | .name => t.name = u.name
  | .description => t.description = u.description
  | .group => t.group = u.group
  | .dbu => t.dbu = u.dbu
  | .grids => t.grids = u.grids
  | .layerPropertiesFile => t.layerPropertiesFile = u.layerPropertiesFile
  | .defaultBasePath => t.defaultBasePath = u.defaultBasePath
  | .explicitBasePath => t.explicitBasePath = u.explicitBasePath
  | .addOtherLayers => t.addOtherLayers = u.addOtherLayers
  | .readerOptions => t.readerOptions = u.readerOptions
  | .writerOptions => t.writerOptions = u.writerOptions
  | .components => True

variable {field other : Field} {tag : String} {child : Xml.Element} {t u v : Technology}

theorem tag_mem_tags (field : Field) : field.tag ∈ field.tags := by
  cases field <;> decide

theorem ofTag?_eq_some_iff : ofTag? tag = some field ↔ tag ∈ field.tags := by
  constructor
  · intro h
    rw [ofTag?, Option.or_eq_some_iff] at h
    rcases h with found | ⟨-, older⟩
    · have holds := List.find?_some found
      exact eq_of_beq holds ▸ tag_mem_tags field
    · have all : ∀ e ∈ olderTags, e.1 ∈ e.2.tags := by decide
      obtain ⟨before, after, eq, -⟩ := List.lookup_eq_some_iff.1 older
      exact all (tag, field) (eq ▸ List.mem_append_right _ List.mem_cons_self)
  · have all : ∀ tag ∈ field.tags, ofTag? tag = some field := by cases field <;> decide
    exact all tag

theorem notMem_tags (unknown : ofTag? tag = none) : tag ∉ field.tags := by
  rw [← ofTag?_eq_some_iff, unknown]
  nofun

theorem eq_of_mem_tags (hf : tag ∈ field.tags) (ho : tag ∈ other.tags) : field = other :=
  Option.some.inj ((ofTag?_eq_some_iff.2 hf).symm.trans (ofTag?_eq_some_iff.2 ho))

/-- A tag is that of a field which one child gives alone, or at most that of the components. -/
theorem alone_or_components (tag : String) :
    (∃ field : Field, tag ∈ field.tags ∧ field ≠ .components) ∨ ∀ field : Field, tag ∈ field.tags → field = .components := by
  by_cases alone : ∃ field : Field, tag ∈ field.tags ∧ field ≠ .components
  · exact .inl alone
  · exact .inr fun field mem => Decidable.byContradiction fun ne => alone ⟨field, mem, ne⟩

theorem Same.refl (field : Field) (t : Technology) : field.Same t t := by
  cases field <;> trivial

theorem Same.symm (h : field.Same t u) : field.Same u t := by
  cases field <;> first | trivial | exact Eq.symm h

theorem Same.trans (h : field.Same t u) (k : field.Same u v) : field.Same t v := by
  cases field <;> first | trivial | exact Eq.trans h k

theorem Holds.of_same (h : field.Holds child u) (same : field.Same t u) : field.Holds child t := by
  cases field <;> simp only [Same, Holds] at h same ⊢ <;> simp only [same, h, implies_true]

theorem Holds.unique (h : field.Holds child t) (k : field.Holds child u) : field.Same t u := by
  cases field with
  | dbu => exact Option.some.inj (h.symm.trans k)
  | grids => exact Except.ok.inj (h.symm.trans k)
  | addOtherLayers =>
      have read : Technology.boolOfText child.name child.text = .ok t.addOtherLayers := Technology.boolOfText_eq_ok_iff.2 h
      exact Except.ok.inj (read.symm.trans (Technology.boolOfText_eq_ok_iff.2 k))
  | readerOptions => exact LayoutOptions.ext_get? fun format key => (h format key).trans (k format key).symm
  | writerOptions => exact LayoutOptions.ext_get? fun format key => (h format key).trans (k format key).symm
  | components => trivial
  | _ => exact Eq.trans h (Eq.symm k)

/-- The target with the field as it is in the source. -/
def copy (source target : Technology) : Field → Technology
  | .name => { target with name := source.name }
  | .description => { target with description := source.description }
  | .group => { target with group := source.group }
  | .dbu => { target with dbu := source.dbu }
  | .grids => { target with grids := source.grids }
  | .layerPropertiesFile => { target with layerPropertiesFile := source.layerPropertiesFile }
  | .defaultBasePath => { target with defaultBasePath := source.defaultBasePath }
  | .explicitBasePath => { target with explicitBasePath := source.explicitBasePath }
  | .addOtherLayers => { target with addOtherLayers := source.addOtherLayers }
  | .readerOptions => { target with readerOptions := source.readerOptions }
  | .writerOptions => { target with writerOptions := source.writerOptions }
  | .components => { target with components := source.components }

theorem same_copy (ne : other ≠ field) (source target : Technology) : other.Same (field.copy source target) target := by
  cases field <;> cases other <;> first | exact absurd rfl ne | trivial

theorem components_copy (ne : field ≠ .components) (source target : Technology) :
    (field.copy source target).components = target.components := by
  cases field <;> first | exact absurd rfl ne | rfl

end Field

namespace Technology

/-- The technology was not loaded from a file, and may be changed and kept. -/
structure IsUnfiled (t : Technology) : Prop where
  file : t.filePath = ""
  changeable : t.isReadonly = false
  persisted : t.isPersisted = true

theorem IsUnfiled.copy {t : Technology} (h : t.IsUnfiled) (field : Field) (source : Technology) :
    (field.copy source t).IsUnfiled := by
  cases field <;> exact ⟨h.file, h.changeable, h.persisted⟩

theorem ext_fields {t u : Technology} (fields : ∀ field : Field, field.Same t u)
    (components : t.components = u.components) (ht : t.IsUnfiled) (hu : u.IsUnfiled) : t = u := by
  have file := ht.file.trans hu.file.symm
  have changeable := ht.changeable.trans hu.changeable.symm
  have persisted := ht.persisted.trans hu.persisted.symm
  cases t
  cases u
  rw [Technology.mk.injEq]
  exact ⟨fields .name, fields .description, fields .group, fields .dbu, fields .grids, fields .layerPropertiesFile,
    fields .defaultBasePath, fields .explicitBasePath, fields .addOtherLayers, fields .readerOptions,
    fields .writerOptions, components, file, changeable, persisted⟩

/-! ## Options -/

theorem readFormat_eq_ok_iff {tag format : String} {o p : LayoutOptions} {children : List Xml.Element} :
    readFormat tag format o children = .ok p ↔
      (∀ option ∈ children, option.children = []) ∧
        p = children.foldl (fun o option => o.set format option.name option.text) o := by
  induction children generalizing o with
  | nil => simp [readFormat, eq_comm]
  | cons option rest ih =>
      rw [readFormat, List.forall_mem_cons, List.foldl_cons]
      by_cases text : option.children = []
      · simp [text, ih]
      · simp [text]

theorem readOptions_eq_ok_iff {child : Xml.Element} {o : LayoutOptions} :
    readOptions child = .ok o ↔
      (∀ block ∈ child.children, ∀ option ∈ block.children, option.children = []) ∧ o = .ofList child.options := by
  have read (blocks : List Xml.Element) (start : LayoutOptions) :
      blocks.foldlM (fun o block => readFormat child.name block.name o block.children) start = .ok o ↔
        (∀ block ∈ blocks, ∀ option ∈ block.children, option.children = []) ∧
          o = blocks.foldl (fun o block =>
            block.children.foldl (fun o option => o.set block.name option.name option.text) o) start := by
    induction blocks generalizing start with
    | nil => simp [pure, Except.pure, eq_comm]
    | cons block rest ih =>
        rw [List.foldlM_cons, Traced.bind_eq_ok, List.forall_mem_cons, List.foldl_cons]
        simp only [readFormat_eq_ok_iff, ih]
        exact ⟨fun ⟨_, ⟨first, eq⟩, rest⟩ => ⟨⟨first, rest.1⟩, eq ▸ rest.2⟩,
          fun ⟨⟨first, rest⟩, eq⟩ => ⟨_, ⟨first, rfl⟩, rest, eq⟩⟩
  rw [readOptions, read, LayoutOptions.ofList, Xml.Element.options, List.foldl_flatMap]
  simp only [List.foldl_map]

/-! ## Reading a child -/

namespace Draft

variable {codecs : Codecs} {draft next : Draft} {field : Field} {child : Xml.Element}

theorem readField_eq_ok (ne : field ≠ .components) (read : (draft.readField codecs field child).result = .ok next) :
    field.Accepts child ∧ field.Holds child next.technology ∧
      next = ⟨field.copy next.technology draft.technology, field == .name || draft.isNamed⟩ := by
  cases field with
  | name => obtain rfl := Except.ok.inj read; exact ⟨trivial, rfl, rfl⟩
  | description => obtain rfl := Except.ok.inj read; exact ⟨trivial, rfl, rfl⟩
  | group => obtain rfl := Except.ok.inj read; exact ⟨trivial, rfl, rfl⟩
  | layerPropertiesFile => obtain rfl := Except.ok.inj read; exact ⟨trivial, rfl, rfl⟩
  | defaultBasePath => obtain rfl := Except.ok.inj read; exact ⟨trivial, rfl, rfl⟩
  | explicitBasePath => obtain rfl := Except.ok.inj read; exact ⟨trivial, rfl, rfl⟩
  | components => exact absurd rfl ne
  | dbu =>
      obtain ⟨dbu, parsed, eq⟩ := Traced.result_bind_eq_ok.1 read
      obtain rfl := Except.ok.inj eq
      have unit := unitOfText_eq_ok_iff.1 (Traced.ofExcept_mapError_eq_ok.1 parsed)
      exact ⟨⟨dbu, unit⟩, unit.1, rfl⟩
  | grids =>
      obtain ⟨grids, parsed, eq⟩ := Traced.result_bind_eq_ok.1 read
      obtain rfl := Except.ok.inj eq
      have list := Traced.mapError_eq_ok.1 parsed
      exact ⟨⟨grids, list⟩, list, rfl⟩
  | addOtherLayers =>
      obtain ⟨b, parsed, eq⟩ := Traced.result_bind_eq_ok.1 read
      obtain rfl := Except.ok.inj eq
      have word := boolOfText_eq_ok_iff.1 (Traced.ofExcept_mapError_eq_ok.1 parsed)
      refine ⟨?_, word, rfl⟩
      cases b with
      | true => exact .inl word
      | false => exact .inr word
  | readerOptions =>
      obtain ⟨options, parsed, eq⟩ := Traced.result_bind_eq_ok.1 read
      obtain rfl := Except.ok.inj eq
      obtain ⟨texts, rfl⟩ := readOptions_eq_ok_iff.1 (Traced.ofExcept_mapError_eq_ok.1 parsed)
      exact ⟨texts, LayoutOptions.get?_ofList _, rfl⟩
  | writerOptions =>
      obtain ⟨options, parsed, eq⟩ := Traced.result_bind_eq_ok.1 read
      obtain rfl := Except.ok.inj eq
      obtain ⟨texts, rfl⟩ := readOptions_eq_ok_iff.1 (Traced.ofExcept_mapError_eq_ok.1 parsed)
      exact ⟨texts, LayoutOptions.get?_ofList _, rfl⟩

theorem components_readField (ne : field ≠ .components)
    (read : (draft.readField codecs field child).result = .ok next) :
    next.technology.components = draft.technology.components := by
  obtain ⟨-, -, eq⟩ := readField_eq_ok ne read
  have technology : next.technology = field.copy next.technology draft.technology := congrArg Draft.technology eq
  rw [technology, Field.components_copy ne]

theorem exists_readField (ne : field ≠ .components) (h : field.Accepts child) :
    ∃ next, (draft.readField codecs field child).result = .ok next := by
  cases field with
  | components => exact absurd rfl ne
  | dbu =>
      obtain ⟨dbu, unit⟩ := h
      have read : unitOfText child.text = .ok dbu := unitOfText_eq_ok_iff.2 unit
      exact ⟨_, Traced.result_bind_of_ok (Traced.ofExcept_mapError_eq_ok.2 read) _⟩
  | grids =>
      obtain ⟨grids, list⟩ := h
      exact ⟨_, Traced.result_bind_of_ok (Traced.mapError_eq_ok.2 list) _⟩
  | addOtherLayers =>
      have word : ∃ b : Bool, trimmed child.text ∈ if b then ["true", "1"] else ["false", "0"] :=
        h.elim (fun yes => ⟨true, yes⟩) fun no => ⟨false, no⟩
      obtain ⟨b, word⟩ := word
      exact ⟨_, Traced.result_bind_of_ok (Traced.ofExcept_mapError_eq_ok.2 (boolOfText_eq_ok_iff.2 word)) _⟩
  | readerOptions =>
      have read : readOptions child = .ok (.ofList child.options) := readOptions_eq_ok_iff.2 ⟨h, rfl⟩
      exact ⟨_, Traced.result_bind_of_ok (Traced.ofExcept_mapError_eq_ok.2 read) _⟩
  | writerOptions =>
      have read : readOptions child = .ok (.ofList child.options) := readOptions_eq_ok_iff.2 ⟨h, rfl⟩
      exact ⟨_, Traced.result_bind_of_ok (Traced.ofExcept_mapError_eq_ok.2 read) _⟩
  | _ => exact ⟨_, rfl⟩

theorem readChild_ignored {codecs : Codecs} (unknown : Field.ofTag? child.name = none)
    (unregistered : codecs.isRegistered child.name = false) : (draft.readChild codecs child).result = .ok draft := by
  rw [readChild, unknown, unregistered]
  rfl

/-- A child is one of a field that it gives alone, one for components, or ignored. -/
theorem readChild_cases (child : Xml.Element) :
    (∃ field : Field, child.name ∈ field.tags ∧ field ≠ .components) ∨ child.name ∈ Field.components.tags ∨
      Field.ofTag? child.name = none := by
  cases found : Field.ofTag? child.name with
  | none => exact .inr (.inr rfl)
  | some field =>
      have mem := Field.ofTag?_eq_some_iff.1 found
      by_cases components : field = .components
      · exact .inr (.inl (components ▸ mem))
      · exact .inl ⟨field, mem, components⟩

end Draft

theorem exists_draft_iff {codecs : Codecs} {e : Xml.Element} {t : Technology} :
    (ofElement codecs e).result = .ok t ↔
      ∃ draft, (e.children.foldlM (Draft.readChild codecs) {}).result = .ok draft ∧ draft.isNamed = true ∧
        draft.technology = t := by
  rw [ofElement, Traced.result_bind_eq_ok]
  refine exists_congr fun draft => and_congr_right fun _ => ?_
  cases draft.isNamed with
  | true => exact ⟨fun eq => ⟨rfl, Except.ok.inj eq⟩, fun ⟨_, eq⟩ => congrArg Except.ok eq⟩
  | false => exact ⟨nofun, nofun⟩

end Technology

end LayoutTech
