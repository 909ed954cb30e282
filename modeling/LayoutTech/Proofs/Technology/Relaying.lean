import LayoutTech.Proofs.Technology.Saving

/-!
# Documents that pass a reader without codecs

A reader without codecs keeps every component block as it is, and what it kept tells what a reader with codecs makes of
the same children. So the blocks get through it: from the document that it writes, the other reads what it would have
read from the first document.
-/

namespace LayoutTech

namespace Traced

variable {ε α β : Type}

/-- What each step keeps, a row of steps keeps. -/
theorem result_foldlM_keeps {f : α → β → Traced ε α} {P : α → Prop} {bs : List β}
    (step : ∀ b ∈ bs, ∀ a c, P a → (f a b).result = .ok c → P c) {a c : α} (start : P a)
    (run : (bs.foldlM f a).result = .ok c) : P c := by
  induction bs generalizing a with
  | nil => exact Except.ok.inj run ▸ start
  | cons b bs ih =>
      rw [List.forall_mem_cons] at step
      obtain ⟨next, first, rest⟩ := result_bind_eq_ok.1 run
      exact ih step.2 (step.1 a next start first) rest

end Traced

namespace Technology

variable {blocks components : Table Component} {kept c d : Component} {block child : Xml.Element} {draft next : Draft}
  {field : Field} {t : Technology}

/-! ## Blocks that are opened -/

/-- The first component is a block, which decodes to the second one. -/
def Opens (kept c : Component) : Prop :=
  ∃ block, kept = .verbatim block ∧ (Codecs.builtin.decode block).result = .ok c

/-- The components are what the blocks decode to, each under its tag. -/
def AreOpened (blocks components : Table Component) : Prop :=
  ∀ tag, Option.Rel Opens (blocks.get? tag) (components.get? tag)

/-- Every block can be decoded. -/
def CanBeOpened (blocks : Table Component) : Prop := ∀ tag kept, blocks.get? tag = some kept → ∃ c, Opens kept c

theorem Opens.unique (h : Opens kept c) (k : Opens kept d) : c = d := by
  obtain ⟨block, rfl, decoded⟩ := h
  obtain ⟨_, same, decoded'⟩ := k
  cases same
  exact Except.ok.inj (decoded.symm.trans decoded')

namespace AreOpened

theorem empty : AreOpened .empty .empty := fun _ => .none

theorem contains_eq (h : AreOpened blocks components) (tag : String) :
    components.contains tag = blocks.contains tag := by
  have here := h tag
  rw [Table.contains, Table.contains]
  generalize blocks.get? tag = kept, components.get? tag = c at here
  cases here <;> rfl

theorem insert (h : AreOpened blocks components) (opens : Opens kept c) (tag : String) :
    AreOpened (blocks.insert tag kept) (components.insert tag c) := by
  intro other
  rw [Table.get?_insert, Table.get?_insert]
  split
  · exact .some opens
  · exact h other

theorem canBeOpened (h : AreOpened blocks components) : CanBeOpened blocks := by
  intro tag kept found
  have here := h tag
  rw [found] at here
  generalize components.get? tag = c at here
  cases here with
  | some opens => exact ⟨_, opens⟩

theorem unique {others : Table Component} (h : AreOpened blocks components) (k : AreOpened blocks others) :
    components = others := by
  apply Table.ext_get?
  intro tag
  have here := h tag
  have there := k tag
  generalize blocks.get? tag = kept, components.get? tag = c, others.get? tag = d at here there
  cases here with
  | none => cases there; rfl
  | some opens =>
      cases there with
      | some opens' => exact congrArg some (opens.unique opens')

end AreOpened

/-! ## Two readers side by side -/

namespace Draft

def withComponents (draft : Draft) (components : Table Component) : Draft := draft.update ({ · with components })

theorem withComponents_self (h : draft.technology.components = components) :
    draft.withComponents components = draft := by
  subst h
  rfl

/-- What the first draft keeps under a tag, the second keeps under it. -/
def Grows (draft next : Draft) : Prop :=
  ∀ tag c, draft.technology.components.get? tag = some c → next.technology.components.get? tag = some c

/-- The reader without codecs has got to the draft, and the other has got as far, or has failed at a block of it. -/
def Agrees (draft : Draft) (outcome : Except Fault Draft) : Prop :=
  (∃ components, outcome = .ok (draft.withComponents components) ∧
      AreOpened draft.technology.components components) ∨
    (∃ fault, outcome = .error fault) ∧ ¬CanBeOpened draft.technology.components

theorem Grows.canBeOpened (h : draft.Grows next) (all : CanBeOpened next.technology.components) :
    CanBeOpened draft.technology.components := fun tag kept found => all tag kept (h tag kept found)

/-- Readers that agree after each step agree after a row of steps. -/
theorem agrees_foldlM {α : Type} {keep decode : Draft → α → Traced Fault Draft} {as : List α}
    (grows : ∀ a ∈ as, ∀ draft next, (keep draft a).result = .ok next → draft.Grows next)
    (agrees : ∀ a ∈ as, ∀ draft next components, AreOpened draft.technology.components components →
      (keep draft a).result = .ok next → next.Agrees (decode (draft.withComponents components) a).result)
    (opened : AreOpened draft.technology.components components) (run : (as.foldlM keep draft).result = .ok next) :
    next.Agrees (as.foldlM decode (draft.withComponents components)).result := by
  induction as generalizing draft components with
  | nil => exact .inl ⟨components, Except.ok.inj run ▸ rfl, Except.ok.inj run ▸ opened⟩
  | cons a as ih =>
      rw [List.forall_mem_cons] at grows agrees
      obtain ⟨middle, first, rest⟩ := Traced.result_bind_eq_ok.1 run
      rcases agrees.1 draft middle components opened first with ⟨components, eq, opened⟩ | ⟨⟨fault, eq⟩, closed⟩
      · rw [List.foldlM_cons, Traced.result_bind_of_ok eq]
        exact ih grows.2 agrees.2 opened rest
      · -- The block at which the other failed is still there in the end.
        have later : middle.Grows next :=
          Traced.result_foldlM_keeps (P := middle.Grows) (fun a ha d e before step tag c found =>
            grows.2 a ha d e step tag c (before tag c found)) (fun _ _ found => found) rest
        refine .inr ⟨⟨fault, ?_⟩, fun all => closed (later.canBeOpened all)⟩
        rw [List.foldlM_cons, Traced.result_bind, eq]
        rfl

/-! ## Blocks -/

theorem addBlock_empty (read : (draft.addBlock .empty block).result = .ok next) :
    draft.technology.components.contains block.name = false ∧
      next = draft.withComponents (draft.technology.components.insert block.name (.verbatim block)) := by
  obtain ⟨new, c, decoded, rfl⟩ := addBlock_eq_ok_iff.1 read
  obtain rfl : .verbatim block = c := Except.ok.inj decoded
  exact ⟨new, rfl⟩

theorem grows_addBlock (read : (draft.addBlock .empty block).result = .ok next) : draft.Grows next := by
  obtain ⟨new, rfl⟩ := addBlock_empty read
  intro tag c found
  have ne : block.name ≠ tag := by
    rintro rfl
    rw [Table.contains, found] at new
    cases new
  exact (Table.get?_insert _ _ _ _).trans ((if_neg ne).trans found)

theorem agrees_addBlock (opened : AreOpened draft.technology.components components)
    (read : (draft.addBlock .empty block).result = .ok next) :
    next.Agrees ((draft.withComponents components).addBlock .builtin block).result := by
  obtain ⟨new, rfl⟩ := addBlock_empty read
  have absent : (draft.withComponents components).technology.components.contains block.name = false :=
    (opened.contains_eq block.name).trans new
  cases decoded : (Codecs.builtin.decode block).result with
  | ok c =>
      have added := addBlock_eq_ok_iff.2 ⟨absent, c, decoded, rfl⟩
      have name := (Codecs.decode_builtin decoded).1
      refine .inl ⟨components.insert block.name c, ?_, opened.insert ⟨block, rfl, decoded⟩ block.name⟩
      rw [added, ← name]
      rfl
  | error fault =>
      refine .inr ⟨⟨blockFault block.name fault, ?_⟩, fun all => ?_⟩
      · rw [addBlock, absent, if_neg Bool.false_ne_true, Traced.result_bind, Traced.result_mapError, decoded]
        rfl
      · have here : (draft.technology.components.insert block.name (.verbatim block)).get? block.name =
            some (.verbatim block) := (Table.get?_insert _ _ _ _).trans (if_pos rfl)
        obtain ⟨c, _, same, decoded'⟩ := all _ _ here
        cases same
        rw [decoded] at decoded'
        cases decoded'

/-! ## Children -/

/-- A field that one child gives alone is read in the same way whatever the codecs and the components. -/
theorem readField_withComponents (ne : field ≠ .components) (codecs others : Codecs) (draft : Draft)
    (components : Table Component) (child : Xml.Element) :
    ((draft.withComponents components).readField codecs field child).result =
      (draft.readField others field child).result.map (·.withComponents components) := by
  cases field with
  | components => exact absurd rfl ne
  | dbu =>
      simp only [readField, Traced.result_bind]
      cases unitOfText child.text <;> rfl
  | grids =>
      simp only [readField, Traced.result_bind, Traced.result_mapError]
      cases (Grids.ofText child.text.toList).result <;> rfl
  | addOtherLayers =>
      simp only [readField, Traced.result_bind]
      cases boolOfText Field.addOtherLayers.tag child.text <;> rfl
  | readerOptions =>
      simp only [readField, Traced.result_bind]
      cases readOptions child <;> rfl
  | writerOptions =>
      simp only [readField, Traced.result_bind]
      cases readOptions child <;> rfl
  | _ => rfl

theorem grows_readChild (read : (draft.readChild .empty child).result = .ok next) : draft.Grows next := by
  rcases readChild_cases child with ⟨field, mem, ne⟩ | mem | unknown
  · rw [result_readChild_field mem] at read
    intro tag c found
    rw [components_readField ne read, found]
  · rw [result_readChild_field mem] at read
    exact Traced.result_foldlM_keeps (P := draft.Grows) (fun block _ a b before step tag c found =>
      grows_addBlock step tag c (before tag c found)) (fun _ _ found => found) read
  · rw [readChild_ignored unknown rfl] at read
    exact fun tag c found => Except.ok.inj read ▸ found

theorem agrees_readChild (inside : Codecs.builtin.isRegistered child.name = false)
    (opened : AreOpened draft.technology.components components)
    (read : (draft.readChild .empty child).result = .ok next) :
    next.Agrees ((draft.withComponents components).readChild .builtin child).result := by
  rcases readChild_cases child with ⟨field, mem, ne⟩ | mem | unknown
  · rw [result_readChild_field mem] at read ⊢
    rw [readField_withComponents ne .builtin .empty, read]
    exact .inl ⟨components, rfl, components_readField ne read ▸ opened⟩
  · rw [result_readChild_field mem] at read ⊢
    exact agrees_foldlM (fun block _ _ _ => grows_addBlock) (fun block _ _ _ _ => agrees_addBlock) opened read
  · rw [readChild_ignored unknown rfl] at read
    rw [readChild_ignored unknown inside]
    obtain rfl := Except.ok.inj read
    exact .inl ⟨components, rfl, opened⟩

end Draft

/-! ## Elements -/

/-- Without component blocks outside of the element for them, the reader with codecs reads what the other reads, with
the blocks opened, and fails when one of them cannot be. -/
theorem ofElement_opened {e : Xml.Element}
    (inside : ∀ child ∈ e.children, Codecs.builtin.isRegistered child.name = false)
    (read : (ofElement .empty e).result = .ok t) :
    (∃ components, (ofElement .builtin e).result = .ok { t with components } ∧ AreOpened t.components components) ∨
      (∃ fault, (ofElement .builtin e).result = .error fault) ∧ ¬CanBeOpened t.components := by
  obtain ⟨draft, children, named, rfl⟩ := exists_draft_iff.1 read
  have agrees := Draft.agrees_foldlM (fun child _ _ _ => Draft.grows_readChild)
    (fun child mem _ _ _ => Draft.agrees_readChild (inside child mem)) AreOpened.empty children
  rw [Draft.withComponents_self rfl] at agrees
  rcases agrees with ⟨components, done, opened⟩ | ⟨⟨fault, failed⟩, closed⟩
  · exact .inl ⟨components, exists_draft_iff.2 ⟨_, done, named, rfl⟩, opened⟩
  · refine .inr ⟨⟨fault, ?_⟩, closed⟩
    rw [ofElement, Traced.result_bind, failed]
    rfl

/-! ## What is kept -/

/-- What a reader without codecs brings along: the components are blocks under their tags, and the grids are finite. -/
structure IsUndecoded (t : Technology) : Prop where
  blocks : ∀ entry ∈ t.components.entries, ∃ block, entry = (block.name, .verbatim block) ∧ block.Survives .compact
  finite : ∀ v ∈ t.grids.values, v.isFinite

theorem IsUndecoded.addBlock (h : draft.technology.IsUndecoded) (survives : block.Survives .compact)
    (read : (draft.addBlock .empty block).result = .ok next) : next.technology.IsUndecoded := by
  obtain ⟨-, rfl⟩ := Draft.addBlock_empty read
  refine ⟨fun entry mem => ?_, h.finite⟩
  rcases Table.mem_put mem with rfl | before
  · exact ⟨block, rfl, survives⟩
  · exact h.blocks entry before

theorem IsUndecoded.readField (h : draft.technology.IsUndecoded) (ne : field ≠ .components)
    (read : (draft.readField .empty field child).result = .ok next) : next.technology.IsUndecoded := by
  obtain ⟨-, holds, eq⟩ := Draft.readField_eq_ok ne read
  have technology : next.technology = field.copy next.technology draft.technology := congrArg Draft.technology eq
  constructor
  · rw [Draft.components_readField ne read]
    exact h.blocks
  · by_cases grids : field = .grids
    · subst grids
      exact (Grids.Obtained.read holds).sound.finite
    · have other : Field.grids ≠ field := Ne.symm grids
      have same : next.technology.grids = draft.technology.grids := by
        rw [technology]
        exact Field.same_copy other _ _
      rw [same]
      exact h.finite

theorem IsUndecoded.readChild (h : draft.technology.IsUndecoded) (survives : child.Survives .compact)
    (read : (draft.readChild .empty child).result = .ok next) : next.technology.IsUndecoded := by
  rcases Draft.readChild_cases child with ⟨field, mem, ne⟩ | mem | unknown
  · rw [result_readChild_field mem] at read
    exact h.readField ne read
  · rw [result_readChild_field mem] at read
    exact Traced.result_foldlM_keeps (P := fun d : Draft => d.technology.IsUndecoded) (fun block mem _ _ before =>
      before.addBlock (Xml.Element.survives_of_mem survives mem)) h read
  · rw [Draft.readChild_ignored unknown rfl] at read
    exact Except.ok.inj read ▸ h

theorem isUndecoded_of_ofElement {e : Xml.Element} (survives : e.Survives .compact)
    (read : (ofElement .empty e).result = .ok t) : t.IsUndecoded := by
  obtain ⟨draft, children, -, rfl⟩ := exists_draft_iff.1 read
  have start : ({} : Draft).technology.IsUndecoded := ⟨List.forall_mem_nil _, List.forall_mem_nil _⟩
  exact Traced.result_foldlM_keeps (P := fun d : Draft => d.technology.IsUndecoded) (fun child mem _ _ before =>
    before.readChild (Xml.Element.survives_of_mem survives mem)) start children

namespace IsUndecoded

theorem isKeyed (h : t.IsUndecoded) : IsKeyed t.components := by
  intro entry mem
  obtain ⟨block, rfl, -⟩ := h.blocks entry mem
  rfl

theorem areReadBack (h : t.IsUndecoded) : AreReadBack .empty t.components := by
  intro entry mem
  obtain ⟨block, rfl, -⟩ := h.blocks entry mem
  rfl

/-- A reader without codecs writes what it kept, and reads it again. -/
theorem write_eq (h : t.IsUndecoded) (writable : t.IsWritable .empty) :
    t.write .empty .compact = .ok (t.element.toDocument .compact) ∧ t.element.Survives .compact ∧
      (ofElement .empty t.element).result = .ok t.stored := by
  have blocks : ∀ entry ∈ t.components.entries,
      Codecs.empty.encode entry.2 = .ok entry.2.block ∧ entry.2.block.Survives .compact := by
    intro entry mem
    obtain ⟨block, rfl, survives⟩ := h.blocks entry mem
    exact ⟨rfl, survives⟩
  have element : t.toElement .empty = .ok t.element :=
    toElement_eq writable.unit writable.readerOptions writable.writerOptions fun entry mem => (blocks entry mem).1
  refine ⟨?_, survives_element writable.readerOptions writable.writerOptions fun entry mem => (blocks entry mem).2,
    ofElement_element writable.unit h.finite h.isKeyed h.areReadBack⟩
  rw [write, element]
  rfl

end IsUndecoded

/-! ## Documents -/

theorem isRegistered_element (t : Technology) :
    ∀ child ∈ t.element.children, Codecs.builtin.isRegistered child.name = false := by
  simp only [element, Xml.Element.children_ofChildren, List.forall_mem_cons, Xml.Element.name_ofText, optionsElement,
    Xml.Element.name_ofChildren]
  decide

/-- When a reader without codecs can read a document, whose component blocks all stand inside of elements for
components, and write it again, then a reader with codecs either reads the same technology from both documents, or
reads neither. -/
theorem parse_relayed {document relayed : String}
    (clean : ∀ root, rootOf rootTag document = .ok root → root.Everywhere Xml.Element.HasCleanNames)
    (inside : ∀ root, rootOf rootTag document = .ok root →
      ∀ child ∈ root.children, Codecs.builtin.isRegistered child.name = false)
    (read : (parse .empty document).result = .ok t) (written : t.write .empty .compact = .ok relayed)
    (marked : ∀ d ∈ t.grids.strongDefault, ∃ v ∈ t.grids.values.find? (Grids.near · d), v.sameValue d) :
    (∃ u v, (parse .builtin document).result = .ok u ∧ (parse .builtin relayed).result = .ok v ∧ v.same u) ∨
      (∃ fault, (parse .builtin document).result = .error fault) ∧
        ∃ fault, (parse .builtin relayed).result = .error fault := by
  obtain ⟨root, element, read⟩ := exists_rootOf_of_parse read
  have survives := survives_of_rootOf element (clean root element)
  rw [parse_of_rootOf element]
  have undecoded := isUndecoded_of_ofElement survives read
  have writable := exists_write_iff.1 ⟨relayed, written⟩
  obtain ⟨document, survives, again⟩ := undecoded.write_eq writable
  obtain rfl := Except.ok.inj (document.symm.trans written)
  rw [parse_of_rootOf (rootOf_toDocument survives)]
  have first := ofElement_opened (inside root element) read
  have second := ofElement_opened t.isRegistered_element again
  rcases first with ⟨components, one, opened⟩ | ⟨failed, closed⟩
  · rcases second with ⟨others, other, opened'⟩ | ⟨-, closed⟩
    · obtain rfl := opened.unique opened'
      refine .inl ⟨_, _, one, other, ?_⟩
      have grids : t.grids.marked.same t.grids := Grids.Portable.same_marked ⟨undecoded.finite, marked⟩
      have dbu : t.dbu.sameValue t.dbu := Binary64.sameValue_self (isFinite_of_isUnit writable.unit)
      simp only [same, stored, beq_self_eq_true, dbu, grids, decide_true, Bool.and_self]
    · exact absurd opened.canBeOpened closed
  · rcases second with ⟨others, -, opened⟩ | ⟨failed', -⟩
    · exact absurd opened.canBeOpened closed
    · exact .inr ⟨failed, failed'⟩

theorem parse_relayed_cmos :
    let document := "<technology><default-grids>0.005, 0.01!</default-grids><components>\n" ++
      " <vendor mode='&lt;'><deck/></vendor><connectivity><connection>M1, V1,M2</connection></connectivity>" ++
      "</components><name>cmos</name></technology>"
    ∃ t relayed u v, (parse .empty document).result = .ok t ∧ t.write .empty .compact = .ok relayed ∧
      (parse .builtin document).result = .ok u ∧ (parse .builtin relayed).result = .ok v ∧ v.same u ∧
      u.component? "connectivity" = some (.connectivity [⟨"M1", some "V1", "M2"⟩] []) := by
  intro document
  let root : Xml.Element := .ofChildren rootTag
    [.ofText "default-grids" "0.005, 0.01!",
      .ofChildren "components"
        [⟨"vendor", [("mode", "<")], "", [⟨"deck", [], "", []⟩]⟩,
          .ofChildren "connectivity" [.ofText "connection" "M1, V1,M2"]],
      .ofText "name" "cmos"]
  have element : rootOf rootTag document = .ok root := by decide +kernel
  obtain ⟨t, kept, fine⟩ := exists_ok_of_any (x := (ofElement .empty root).result)
    (p := fun t => (t.write .empty .compact).isOk && decide t.grids.Portable) (by decide +kernel)
  obtain ⟨u, decoded, connected⟩ := exists_ok_of_any (x := (ofElement .builtin root).result)
    (p := fun u => u.component? "connectivity" = some (.connectivity [⟨"M1", some "V1", "M2"⟩] []))
    (by decide +kernel)
  rw [← parse_of_rootOf element] at kept decoded
  rw [Bool.and_eq_true, decide_eq_true_eq] at fine
  cases written : t.write .empty .compact with
  | error fault =>
      rw [written] at fine
      cases fine.1
  | ok relayed =>
      have only {other : Xml.Element} (read : rootOf rootTag document = .ok other) : root = other :=
        Except.ok.inj (element.symm.trans read)
      have clean : root.Everywhere Xml.Element.HasCleanNames := by decide
      have inside : ∀ child ∈ root.children, Codecs.builtin.isRegistered child.name = false := by decide
      rcases parse_relayed (fun _ read => only read ▸ clean) (fun _ read => only read ▸ inside) kept written
        fine.2.listed with ⟨u', v, one, other, same⟩ | ⟨⟨fault, failed⟩, -⟩
      · obtain rfl := Except.ok.inj (decoded.symm.trans one)
        exact ⟨t, relayed, u, v, kept, written, decoded, other, same, of_decide_eq_true connected⟩
      · rw [decoded] at failed
        cases failed

end Technology

end LayoutTech
