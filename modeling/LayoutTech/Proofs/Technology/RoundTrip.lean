import LayoutTech.Proofs.Technology.Fields

/-!
# Technologies are read back

A technology whose values can all be written is read back from its document, in either style, unless it has a
component under another name than the component's own: the record that is read is the same as the one that was
written, and knows nothing of a file.
-/

namespace LayoutTech.Technology

/-! ## The element of a technology -/

/-- Everything in the technology can be written in the style and read back. -/
structure Portable (style : Xml.Style) (t : Technology) : Prop where
  unit : isUnit t.dbu
  grids : t.grids.Portable
  readerOptions : HasTagNames t.readerOptions
  writerOptions : HasTagNames t.writerOptions
  components : HasPortable style t.components

instance (style : Xml.Style) (t : Technology) : Decidable (t.Portable style) :=
  decidable_of_iff (isUnit t.dbu ∧ t.grids.Portable ∧ HasTagNames t.readerOptions ∧ HasTagNames t.writerOptions ∧
      HasPortable style t.components)
    ⟨fun ⟨unit, grids, reader, writer, components⟩ => ⟨unit, grids, reader, writer, components⟩,
      fun h => ⟨h.unit, h.grids, h.readerOptions, h.writerOptions, h.components⟩⟩

variable {style : Xml.Style} {t : Technology}

theorem Portable.of_pretty (h : t.Portable .pretty) : t.Portable style :=
  { h with components := fun entry he => (h.components entry he).of_pretty }

/-- The element that is written when everything in the technology can be. -/
def element (t : Technology) : Xml.Element :=
  .ofChildren rootTag
    [.ofText Field.name.tag t.name,
      .ofText Field.dbu.tag (toString t.dbu),
      .ofText Field.description.tag t.description,
      .ofText Field.group.tag t.group,
      .ofText Field.grids.tag (toString t.grids),
      .ofText Field.layerPropertiesFile.tag t.layerPropertiesFile,
      .ofText Field.defaultBasePath.tag t.defaultBasePath,
      .ofText Field.explicitBasePath.tag t.explicitBasePath,
      .ofText Field.addOtherLayers.tag (if t.addOtherLayers then "true" else "false"),
      optionsElement Field.readerOptions.tag t.readerOptions,
      optionsElement Field.writerOptions.tag t.writerOptions,
      .ofChildren Field.components.tag (t.components.entries.map fun entry => entry.2.block)]

theorem toElement_eq {codecs : Codecs} (unit : isUnit t.dbu) (reader : HasTagNames t.readerOptions)
    (writer : HasTagNames t.writerOptions)
    (blocks : ∀ entry ∈ t.components.entries, codecs.encode entry.2 = .ok entry.2.block) :
    t.toElement codecs = .ok t.element := by
  have blocks : t.components.values.mapM codecs.encode = .ok (t.components.entries.map fun entry => entry.2.block) := by
    rw [Table.values, List.mapM_map]
    exact mapM_eq_ok blocks
  rw [toElement, unit, writeOptions_eq _ reader, writeOptions_eq _ writer, blocks]
  rfl

theorem Portable.toElement_eq (h : t.Portable style) : t.toElement .builtin = .ok t.element :=
  Technology.toElement_eq h.unit h.readerOptions h.writerOptions fun entry he => (h.components entry he).encode_eq

theorem isClean_tag (field : Field) : Xml.IsClean field.tag := by
  cases field <;> decide

theorem survives_element (reader : HasTagNames t.readerOptions) (writer : HasTagNames t.writerOptions)
    (blocks : ∀ entry ∈ t.components.entries, entry.2.block.Survives style) : t.element.Survives style := by
  have text (field : Field) (text : String) : (Xml.Element.ofText field.tag text).Survives style :=
    Xml.Element.survives_ofText (isClean_tag field) text
  have readerOptions : (optionsElement Field.readerOptions.tag t.readerOptions).Survives style :=
    survives_optionsElement (isClean_tag .readerOptions) reader
  have writerOptions : (optionsElement Field.writerOptions.tag t.writerOptions).Survives style :=
    survives_optionsElement (isClean_tag .writerOptions) writer
  have components : ∀ block ∈ t.components.entries.map fun entry => entry.2.block, block.Survives style :=
    List.forall_mem_map.2 blocks
  apply Xml.Element.survives_ofChildren (by decide)
  simp only [List.forall_mem_cons]
  exact ⟨text .name _, text .dbu _, text .description _, text .group _, text .grids _, text .layerPropertiesFile _,
    text .defaultBasePath _, text .explicitBasePath _, text .addOtherLayers _, readerOptions, writerOptions,
    Xml.Element.survives_ofChildren (isClean_tag .components) components, List.forall_mem_nil _⟩

theorem Portable.survives_element (h : t.Portable style) : t.element.Survives style :=
  Technology.survives_element h.readerOptions h.writerOptions fun entry he => (h.components entry he).survives_block

/-- A document of an element that survives has the element as its root. -/
theorem rootOf_toDocument {e : Xml.Element} (survives : e.Survives style) :
    rootOf e.name (e.toDocument style) = .ok e := by
  rw [rootOf, survives.parse_eq]
  exact if_pos rfl

/-! ## Reading it -/

theorem result_malformed {α : Type} {x : Except DocumentFault α} {a : α} (h : x = .ok a) :
    (Traced.ofExcept (x.mapError Fault.malformed)).result = .ok a :=
  Traced.ofExcept_mapError_eq_ok.2 h

section Root

variable {codecs : Codecs} {document : String} {root : Xml.Element}

theorem parse_of_rootOf (element : rootOf rootTag document = .ok root) (codecs : Codecs) :
    (parse codecs document).result = (ofElement codecs root).result := by
  rw [parse, Traced.result_bind_of_ok (result_malformed element)]

theorem exists_rootOf_of_parse (read : (parse codecs document).result = .ok t) :
    ∃ root, rootOf rootTag document = .ok root ∧ (ofElement codecs root).result = .ok t := by
  obtain ⟨root, element, read⟩ := Traced.result_bind_eq_ok.1 read
  exact ⟨root, Traced.ofExcept_mapError_eq_ok.1 element, read⟩

end Root

/-- The technology as it comes back. -/
def stored (t : Technology) : Technology :=
  { t with grids := t.grids.marked, filePath := "", isReadonly := false, isPersisted := true }

theorem ofTag?_tag (field : Field) : Field.ofTag? field.tag = some field := by
  cases field <;> rfl

section Children

variable {codecs : Codecs} {draft next : Draft} {child : Xml.Element} {rest : List Xml.Element}

theorem result_foldlM_field (field : Field) (name : child.name = field.tag) :
    ((child :: rest).foldlM (Draft.readChild codecs) draft).result =
      (draft.readField codecs field child).result >>= fun next =>
        (rest.foldlM (Draft.readChild codecs) next).result := by
  rw [List.foldlM_cons, Traced.result_bind, Draft.readChild, name, ofTag?_tag]

theorem readChild_cons (field : Field) (name : child.name = field.tag)
    (read : (draft.readField codecs field child).result = .ok next) :
    ((child :: rest).foldlM (Draft.readChild codecs) draft).result =
      (rest.foldlM (Draft.readChild codecs) next).result := by
  rw [result_foldlM_field field name, read]
  rfl

end Children

theorem boolOfText_written (tag : String) (b : Bool) : boolOfText tag (if b then "true" else "false") = .ok b := by
  cases b <;> rfl

section Fields

variable {codecs : Codecs} (draft : Draft)

theorem readField_dbu (h : isUnit t.dbu) :
    (draft.readField codecs .dbu (.ofText Field.dbu.tag (toString t.dbu))).result =
      .ok (draft.update ({ · with dbu := t.dbu })) := by
  rw [Draft.readField, Xml.Element.text_ofText, Traced.result_bind_of_ok (result_malformed (unitOfText_toString h))]
  rfl

theorem readField_grids (grids : Grids) :
    (draft.readField codecs .grids (.ofText Field.grids.tag (toString grids))).result =
      (Grids.ofText grids.toText).result.mapError (fun fault => Fault.malformed (.grids fault)) >>= fun grids =>
        pure (draft.update ({ · with grids })) := by
  have text : (toString grids).toList = grids.toText := String.toList_ofList
  rw [Draft.readField, Xml.Element.text_ofText, text, Traced.result_bind]
  rfl

theorem readField_addOtherLayers (b : Bool) :
    (draft.readField codecs .addOtherLayers
        (.ofText Field.addOtherLayers.tag (if b then "true" else "false"))).result =
      .ok (draft.update ({ · with addOtherLayers := b })) :=
  Traced.result_bind_of_ok (result_malformed (boolOfText_written _ b)) _

theorem readField_readerOptions (options : LayoutOptions) :
    (draft.readField codecs .readerOptions (optionsElement Field.readerOptions.tag options)).result =
      .ok (draft.update ({ · with readerOptions := options })) :=
  Traced.result_bind_of_ok (result_malformed (readOptions_optionsElement _ options)) _

theorem readField_writerOptions (options : LayoutOptions) :
    (draft.readField codecs .writerOptions (optionsElement Field.writerOptions.tag options)).result =
      .ok (draft.update ({ · with writerOptions := options })) :=
  Traced.result_bind_of_ok (result_malformed (readOptions_optionsElement _ options)) _

end Fields

theorem readField_components {codecs : Codecs} (draft : Draft) (none : draft.technology.components = .empty)
    (keyed : IsKeyed t.components) (h : AreReadBack codecs t.components) :
    (draft.readField codecs .components
        (.ofChildren Field.components.tag (t.components.entries.map fun entry => entry.2.block))).result =
      .ok (draft.update ({ · with components := t.components })) := by
  have sorted : (draft.technology.components.entries ++ t.components.entries).Pairwise fun a b => a.1 < b.1 := by
    rw [none]
    exact t.components.sorted
  have all := t.components.ofList_entries
  have read := addBlocks_result sorted keyed h
  rw [Draft.update, none, ← Table.ofList, all] at read
  exact read

/-- Of the children of a written technology only the grids and the component blocks can be refused. -/
theorem result_foldlM_children (codecs : Codecs) (unit : isUnit t.dbu) :
    (t.element.children.foldlM (Draft.readChild codecs) {}).result =
      (Grids.ofText t.grids.toText).result.mapError (fun fault => Fault.malformed (.grids fault)) >>= fun grids =>
        (Draft.readField codecs ⟨{ t.stored with grids, components := .empty }, true⟩ .components
          (.ofChildren Field.components.tag (t.components.entries.map fun entry => entry.2.block))).result := by
  rw [element, Xml.Element.children_ofChildren, readChild_cons .name rfl rfl,
    readChild_cons .dbu rfl (readField_dbu _ unit), readChild_cons .description rfl rfl,
    readChild_cons .group rfl rfl, result_foldlM_field .grids rfl, readField_grids, bind_assoc]
  apply bind_congr
  intro grids
  rw [pure_bind, readChild_cons .layerPropertiesFile rfl rfl, readChild_cons .defaultBasePath rfl rfl,
    readChild_cons .explicitBasePath rfl rfl,
    readChild_cons .addOtherLayers rfl (readField_addOtherLayers _ t.addOtherLayers),
    readChild_cons .readerOptions rfl (readField_readerOptions _ t.readerOptions),
    readChild_cons .writerOptions rfl (readField_writerOptions _ t.writerOptions),
    result_foldlM_field .components rfl]
  simp only [List.foldlM_nil, Traced.result_pure, Draft.update, stored, Xml.Element.text_ofText]
  exact bind_pure _

theorem ofElement_element {codecs : Codecs} (unit : isUnit t.dbu) (finite : ∀ v ∈ t.grids.values, v.isFinite)
    (keyed : IsKeyed t.components) (components : AreReadBack codecs t.components) :
    (ofElement codecs t.element).result = .ok t.stored := by
  have children : (t.element.children.foldlM (Draft.readChild codecs) {}).result = .ok ⟨t.stored, true⟩ := by
    rw [result_foldlM_children _ unit, Grids.ofText_toText t.grids finite]
    exact readField_components _ rfl keyed components
  rw [ofElement, Traced.result_bind_of_ok children]
  rfl

theorem Portable.ofElement_element (h : t.Portable style) (keyed : IsKeyed t.components) :
    (ofElement .builtin t.element).result = .ok t.stored :=
  Technology.ofElement_element h.unit h.grids.finite keyed h.components.areReadBack

/-! ## The record that is read -/

theorem Portable.same_stored (h : t.Portable style) : t.stored.same t := by
  have dbu : t.dbu.sameValue t.dbu := Binary64.sameValue_self (isFinite_of_isUnit h.unit)
  simp only [same, stored, beq_self_eq_true, dbu, h.grids.same_marked, decide_true, Bool.and_self]

/-- The technology and the record that is read have the same element. -/
theorem Portable.element_stored (h : t.Portable style) : t.stored.element = t.element := by
  have grids : toString t.grids.marked = toString t.grids := congrArg String.ofList h.grids.toText_marked
  unfold element
  rw [show t.stored.grids = t.grids.marked from rfl, grids]
  rfl

theorem Portable.stored (h : t.Portable style) : t.stored.Portable style :=
  { unit := h.unit, grids := h.grids.marked, readerOptions := h.readerOptions, writerOptions := h.writerOptions
    components := h.components }

theorem Portable.write_eq (h : t.Portable style) : write .builtin style t = .ok (t.element.toDocument style) := by
  rw [write, h.toElement_eq]
  rfl

theorem Portable.parse_eq (h : t.Portable style) :
    (parse .builtin (t.element.toDocument style)).result = (ofElement .builtin t.element).result :=
  parse_of_rootOf (rootOf_toDocument h.survives_element) .builtin

theorem Portable.parse_document (h : t.Portable style) (keyed : IsKeyed t.components) :
    (parse .builtin (t.element.toDocument style)).result = .ok t.stored :=
  h.parse_eq.trans (h.ofElement_element keyed)

/-- In both styles a technology is written, and it is read back as the same record, which has no file, is not read-only
and is persisted, exactly when it keeps every component under the component's own name. -/
theorem parse_write_iff (h : t.Portable .pretty) (style : Xml.Style) :
    ∃ document, write .builtin style t = .ok document ∧
      ((∃ record, (parse .builtin document).result = .ok record ∧ record.same t ∧ record.filePath = "" ∧
          record.isReadonly = false ∧ record.isPersisted = true) ↔ IsKeyed t.components) := by
  have portable : t.Portable style := h.of_pretty
  refine ⟨_, portable.write_eq, ?_, fun keyed => ?_⟩
  · rintro ⟨record, read, same, -⟩
    exact (isKeyed_of_parse read).of_same same
  · exact ⟨t.stored, portable.parse_document keyed, portable.same_stored, rfl, rfl, rfl⟩

theorem parse_write_iff_cmos :
    let grid (digits : Nat) : Binary64 := Decimal.toBinary false ⟨digits, -3⟩
    let block : Xml.Element := ⟨"vendor", [("mode", "a<\"b\"")], "", [⟨"deck", [], " \t", []⟩]⟩
    let t : Technology :=
      { name := "cmos <1>"
        description := " two\r\nlines "
        grids := ⟨[grid 5, grid 10], some (grid 10)⟩
        readerOptions := .ofList [("gds2", "box-record", "1 & 2"), ("oasis", "strict", "")]
        components := .ofList
          [("connectivity", .connectivity [⟨"M1", some "V1", "M2"⟩] [⟨"gate", "poly*active"⟩]),
            ("d25", .view25 "z(1)\n"), ("vendor", .verbatim block)] }
    t.Portable .pretty ∧ ∃ document record, write .builtin .pretty t = .ok document ∧
      (parse .builtin document).result = .ok record ∧ record.same t ∧ record.filePath = "" ∧
      record.isReadonly = false ∧ record.isPersisted = true := by
  intro grid block t
  have portable : t.Portable .pretty := by decide +kernel
  obtain ⟨document, written, back⟩ := parse_write_iff portable .pretty
  obtain ⟨record, read⟩ := back.2 (by decide +kernel)
  exact ⟨portable, document, record, written, read⟩

/-- A block that was exchanged in place is written under its new name, and is read back under that one. -/
theorem parse_write_iff_misfiled :
    let deck (name : String) : Xml.Element := ⟨name, [], "", []⟩
    let filed : Technology := ({ name := "t" } : Technology).setComponent (.verbatim (deck "lvs"))
    let t : Technology := filed.editComponent "lvs" (.verbatim fun _ => deck "drc")
    t.Portable .pretty ∧ t.components.entries = [("lvs", .verbatim (deck "drc"))] ∧
      ∀ style, ∃ document record, write .builtin style t = .ok document ∧
        (parse .builtin document).result = .ok record ∧
        record.components.entries = [("drc", .verbatim (deck "drc"))] ∧ ¬record.same t := by
  intro deck filed t
  have portable : t.Portable .pretty := by decide +kernel
  have moved : ¬IsKeyed t.components := by
    intro keyed
    have own := (isKeyed_editComponent_iff (isKeyed_setComponent isKeyed_empty _)).1 keyed (.verbatim (deck "lvs")) rfl
    exact absurd own (by decide)
  obtain ⟨record, read, listed⟩ := exists_ok_of_any (x := (ofElement .builtin t.element).result)
    (p := fun record => record.components.entries = [("drc", .verbatim (deck "drc"))]) (by decide +kernel)
  refine ⟨portable, by decide, fun style => ?_⟩
  have portable : t.Portable style := portable.of_pretty
  exact ⟨_, record, portable.write_eq, portable.parse_eq.trans read, of_decide_eq_true listed,
    fun same => moved ((isKeyed_of_ofElement read).of_same same)⟩

/-! ## Lists of technologies -/

variable {ts : List Technology}

def listElement (ts : List Technology) : Xml.Element := .ofChildren listTag (ts.map element)

theorem listElement_stored (h : ∀ t ∈ ts, t.Portable style) : listElement (ts.map stored) = listElement ts := by
  have elements : ts.map (element ∘ stored) = ts.map element :=
    List.map_congr_left fun t ht => (h t ht).element_stored
  rw [listElement, List.map_map, elements]
  rfl

theorem writeAll_eq (h : ∀ t ∈ ts, t.Portable style) :
    writeAll .builtin style ts = .ok ((listElement ts).toDocument style) := by
  have elements : ts.mapM (toElement .builtin) = .ok (ts.map element) := mapM_eq_ok fun t ht => (h t ht).toElement_eq
  rw [writeAll, elements]
  rfl

theorem rootOf_listElement (h : ∀ t ∈ ts, t.Portable style) :
    rootOf listTag ((listElement ts).toDocument style) = .ok (listElement ts) := by
  have survives : (listElement ts).Survives style := by
    apply Xml.Element.survives_ofChildren (by decide)
    intro block hb
    obtain ⟨t, ht, rfl⟩ := List.mem_map.1 hb
    exact (h t ht).survives_element
  exact rootOf_toDocument survives

end LayoutTech.Technology
