import Mathlib.Data.List.Forall2
import LayoutTech.Proofs.Technology.Reading

/-!
# Blocks that are lost

Blocks are told apart by their tags, but a component is kept under its own name, which its codec gives it. A record
has the last component of each name, so it has one for every block exactly when the names are all different. A block
whose tag is the name of an earlier component is refused. This keeps the names different when codecs name components
after the tags, and not when a tag is an alias.
-/

namespace LayoutTech

namespace Codecs

def Decodes (codecs : Codecs) (block : Xml.Element) (c : Component) : Prop := (codecs.decode block).result = .ok c

/-- The codecs with one more tag, whose blocks are read as if they had the other tag. -/
def addAlias (codecs : Codecs) (tag other : String) : Codecs :=
  codecs.register tag ⟨fun block => codecs.decode { block with name := other }, codecs.encode⟩

end Codecs

namespace Technology

variable {codecs : Codecs} {components : Table Component} {block child : Xml.Element}
  {blocks before after : List Xml.Element} {c : Component} {cs ds : List Component} {draft middle next : Draft}
  {field : Field} {t : Technology}

/-! ## Blocks of a child -/

/-- The blocks that a child hands to the codecs: those inside of an element for components, or the child itself when its
tag has a codec and is not that of a field. -/
def handed (codecs : Codecs) (child : Xml.Element) : List Xml.Element :=
  if child.name ∈ Field.components.tags then child.children
  else if Field.ofTag? child.name = none ∧ codecs.isRegistered child.name then [child]
  else []

theorem handed_components (mem : child.name ∈ Field.components.tags) : handed codecs child = child.children :=
  if_pos mem

theorem handed_field (mem : child.name ∈ field.tags) (ne : field ≠ .components) : handed codecs child = [] := by
  have other : child.name ∉ Field.components.tags := fun components => ne (Field.eq_of_mem_tags mem components)
  have known : Field.ofTag? child.name = some field := Field.ofTag?_eq_some_iff.2 mem
  simp [handed, other, known]

theorem handed_unknown (unknown : Field.ofTag? child.name = none) :
    handed codecs child = if codecs.isRegistered child.name then [child] else [] := by
  simp [handed, Field.notMem_tags unknown, unknown]

theorem handed_builtin (child : Xml.Element) : handed .builtin child = blocksOf child := by
  rcases Draft.readChild_cases child with ⟨field, mem, ne⟩ | mem | unknown
  · rw [handed_field mem ne, blocksOf_eq_nil mem ne]
  · rw [handed_components mem, blocksOf, if_pos mem]
  · rw [handed_unknown unknown, blocksOf, if_neg (Field.notMem_tags unknown)]

/-! ## Collecting -/

def collect (components : Table Component) (cs : List Component) : Table Component :=
  cs.foldl (fun components c => components.insert c.name c) components

/-- The blocks decode to the components, and no block has the tag of a component that is there before it. -/
inductive Collects (codecs : Codecs) : Table Component → List Xml.Element → List Component → Prop where
  | nil {components : Table Component} : Collects codecs components [] []
  | cons {components : Table Component} {block : Xml.Element} {c : Component} {blocks : List Xml.Element}
      {cs : List Component} (free : components.contains block.name = false) (decoded : codecs.Decodes block c)
      (rest : Collects codecs (components.insert c.name c) blocks cs) :
      Collects codecs components (block :: blocks) (c :: cs)

theorem collect_empty (cs : List Component) : collect .empty cs = .ofList (cs.map fun c => (c.name, c)) := by
  rw [collect, Table.ofList, List.foldl_map]

theorem contains_collect {tag : String} :
    (collect components cs).contains tag = true ↔ components.contains tag = true ∨ tag ∈ cs.map Component.name := by
  have pairs := @Table.contains_foldl_insert _ components tag (cs.map fun c => (c.name, c))
  rw [List.foldl_map, List.map_map] at pairs
  exact pairs

namespace Collects

theorem append (first : Collects codecs components before cs)
    (rest : Collects codecs (collect components cs) after ds) :
    Collects codecs components (before ++ after) (cs ++ ds) := by
  induction first with
  | nil => exact rest
  | cons free decoded _ ih => exact .cons free decoded (ih rest)

theorem decodes (h : Collects codecs components blocks cs) : List.Forall₂ codecs.Decodes blocks cs := by
  induction h with
  | nil => exact .nil
  | cons _ decoded _ ih => exact .cons decoded ih

/-- The guard: a block comes only when its tag is not the name of a component. -/
theorem free (h : Collects codecs components (before ++ block :: after) cs)
    (decoded : List.Forall₂ codecs.Decodes before ds) : (collect components ds).contains block.name = false := by
  induction decoded generalizing components cs with
  | nil =>
      cases h with
      | cons free => exact free
  | cons first _ ih =>
      cases h with
      | cons _ decoded rest =>
          obtain rfl := Except.ok.inj (first.symm.trans decoded)
          exact ih rest

theorem distinct (h : Collects codecs components blocks cs)
    (named : ∀ block ∈ blocks, ∀ c, codecs.Decodes block c → c.name = block.name) :
    (cs.map Component.name).Nodup ∧ ∀ c ∈ cs, components.contains c.name = false := by
  induction h with
  | nil => exact ⟨.nil, nofun⟩
  | @cons components block c blocks cs free decoded _ ih =>
      rw [List.forall_mem_cons] at named
      obtain ⟨distinct, new⟩ := ih named.2
      have apart : ∀ d ∈ cs, c.name ≠ d.name ∧ components.contains d.name = false := by
        intro d mem
        have absent := new d mem
        rw [← Bool.not_eq_true, Table.contains_insert_iff, not_or, Bool.not_eq_true] at absent
        exact absent
      rw [List.map_cons, List.nodup_cons, List.forall_mem_cons, named.1 c decoded]
      refine ⟨⟨?_, distinct⟩, free, fun d mem => (apart d mem).2⟩
      intro mem
      obtain ⟨d, mem, same⟩ := List.mem_map.1 mem
      exact (apart d mem).1 ((named.1 c decoded).trans same.symm)

/-- No component takes the place of another exactly when the names are different. -/
theorem length_eq_iff (h : Collects codecs .empty blocks cs) :
    (collect .empty cs).entries.length = blocks.length ↔ (cs.map Component.name).Nodup := by
  have names : (cs.map fun c => (c.name, c)).map Prod.fst = cs.map Component.name := List.map_map
  rw [← names, ← Table.length_ofList_eq_iff, List.length_map, collect_empty, h.decodes.length_eq]

end Collects

/-! ## Reading -/

/-- The second draft has the components of the first and, after them, those of the blocks. -/
def Draft.Gathers (codecs : Codecs) (draft : Draft) (blocks : List Xml.Element) (next : Draft) : Prop :=
  ∃ cs, Collects codecs draft.technology.components blocks cs ∧
    next.technology.components = collect draft.technology.components cs

namespace Draft

theorem Gathers.of_same (same : next.technology.components = draft.technology.components) :
    draft.Gathers codecs [] next :=
  ⟨[], .nil, same⟩

theorem Gathers.append (first : draft.Gathers codecs before middle) (rest : middle.Gathers codecs after next) :
    draft.Gathers codecs (before ++ after) next := by
  obtain ⟨cs, first, now⟩ := first
  obtain ⟨ds, rest, last⟩ := rest
  rw [now] at rest last
  exact ⟨cs ++ ds, first.append rest, last.trans List.foldl_append.symm⟩

theorem gathers_addBlock (read : (draft.addBlock codecs block).result = .ok next) :
    draft.Gathers codecs [block] next := by
  obtain ⟨free, c, decoded, rfl⟩ := addBlock_eq_ok_iff.1 read
  exact ⟨[c], .cons free decoded .nil, rfl⟩

theorem gathers_foldlM {α : Type} {f : Draft → α → Traced Fault Draft} {blocksOf : α → List Xml.Element} {as : List α}
    (read : (as.foldlM f draft).result = .ok next)
    (step : ∀ draft a next, (f draft a).result = .ok next → draft.Gathers codecs (blocksOf a) next) :
    draft.Gathers codecs (as.flatMap blocksOf) next := by
  induction as generalizing draft with
  | nil =>
      obtain rfl := Except.ok.inj read
      exact .of_same rfl
  | cons a as ih =>
      obtain ⟨middle, first, rest⟩ := Traced.result_bind_eq_ok.1 read
      exact (step draft a middle first).append (ih rest)

theorem gathers_readChild (read : (draft.readChild codecs child).result = .ok next) :
    draft.Gathers codecs (handed codecs child) next := by
  rcases readChild_cases child with ⟨field, mem, ne⟩ | mem | unknown
  · rw [result_readChild_field mem] at read
    rw [handed_field mem ne]
    exact .of_same (components_readField ne read)
  · rw [result_readChild_field mem] at read
    have row : (child.children.foldlM (addBlock codecs) draft).result = .ok next := read
    rw [handed_components mem, ← List.flatMap_singleton' child.children]
    exact gathers_foldlM row fun _ _ _ => gathers_addBlock
  · rw [handed_unknown unknown]
    cases registered : codecs.isRegistered child.name with
    | true =>
        rw [readChild, unknown, registered] at read
        exact gathers_addBlock read
    | false =>
        rw [readChild_ignored unknown registered] at read
        obtain rfl := Except.ok.inj read
        exact .of_same rfl

end Draft

theorem collects_ofElement {e : Xml.Element} (read : (ofElement codecs e).result = .ok t) :
    ∃ cs, Collects codecs .empty (e.children.flatMap (handed codecs)) cs ∧ t.components = collect .empty cs := by
  obtain ⟨draft, children, -, rfl⟩ := exists_draft_iff.1 read
  exact Draft.gathers_foldlM children fun _ _ _ => Draft.gathers_readChild

/-- The codecs for the kinds of components known here lose no block. -/
theorem length_components {e : Xml.Element} (read : (ofElement .builtin e).result = .ok t) :
    t.components.entries.length = (componentBlocks e.children).length := by
  obtain ⟨cs, collects, eq⟩ := collects_ofElement read
  have handed : e.children.flatMap (handed .builtin) = componentBlocks e.children :=
    List.flatMap_congr fun child _ => handed_builtin child
  rw [eq, ← handed, collects.length_eq_iff]
  exact (collects.distinct fun block _ c decoded => (Codecs.decode_builtin decoded).1).1

/-- What is read has the components of all blocks, the last one of each name: as many as there are blocks exactly when
the names are different, as they are when every component has the tag of its block as its name. No block is read whose
tag is the name of an earlier component. -/
theorem components_of_blocks (codecs : Codecs) (e : Xml.Element) :
    let blocks := e.children.flatMap (handed codecs)
    (∀ t, (ofElement codecs e).result = .ok t → ∃ cs, List.Forall₂ codecs.Decodes blocks cs ∧
        t.components = .ofList (cs.map fun c => (c.name, c)) ∧
        (t.components.entries.length = blocks.length ↔ (cs.map Component.name).Nodup) ∧
        ((∀ block ∈ blocks, ∀ c, codecs.Decodes block c → c.name = block.name) →
          t.components.entries.length = blocks.length)) ∧
      ∀ before block after cs, blocks = before ++ block :: after → List.Forall₂ codecs.Decodes before cs →
        block.name ∈ cs.map Component.name → ∃ fault, (ofElement codecs e).result = .error fault := by
  intro blocks
  constructor
  · intro t read
    obtain ⟨cs, collects, eq⟩ := collects_ofElement read
    have count := collects.length_eq_iff
    refine ⟨cs, collects.decodes, eq.trans (collect_empty cs), ?_⟩
    rw [eq]
    exact ⟨count, fun named => count.2 (collects.distinct named).1⟩
  · intro before block after cs split decoded taken
    cases read : (ofElement codecs e).result with
    | error fault => exact ⟨fault, rfl⟩
    | ok t =>
        obtain ⟨ds, collects, -⟩ := collects_ofElement read
        have free := (split ▸ collects : Collects codecs .empty (before ++ block :: after) ds).free decoded
        rw [contains_collect.2 (.inr taken)] at free
        cases free

theorem components_of_blocks_alias :
    let codecs := Codecs.builtin.addAlias "d25-alias" Component.view25Name
    let name : Xml.Element := .ofText "name" "cmos"
    let wires : Xml.Element := .ofChildren "connectivity" []
    let older : Xml.Element := .ofChildren "d25-alias" [.ofText "src" "a"]
    let view : Xml.Element := .ofChildren "d25" [.ofText "src" "b"]
    let apart : Xml.Element := .ofChildren "technology" [name, .ofChildren "components" [wires], older]
    let twice : Xml.Element := .ofChildren "technology" [name, .ofChildren "components" [older], view]
    let plain : Xml.Element := .ofChildren "technology" [view, .ofChildren "components" [wires], name]
    (∃ t, (ofElement codecs apart).result = .ok t ∧
        t.components.entries = [("connectivity", .connectivity [] []), ("d25", .view25 "a")] ∧
        ∃ cs, List.Forall₂ codecs.Decodes [wires, older] cs ∧ (cs.map Component.name).Nodup) ∧
      (∃ fault, (ofElement codecs twice).result = .error fault) ∧
      ∃ t, (ofElement .builtin plain).result = .ok t ∧ t.components.entries.length = [view, wires].length := by
  intro codecs name wires older view apart twice plain
  refine ⟨?_, ?_, ?_⟩
  · obtain ⟨t, read, entries⟩ := exists_ok_of_any (x := (ofElement codecs apart).result)
      (p := fun t => t.components.entries = [("connectivity", .connectivity [] []), ("d25", .view25 "a")])
      (by decide +kernel)
    rw [decide_eq_true_eq] at entries
    obtain ⟨cs, decoded, -, count, -⟩ := (components_of_blocks codecs apart).1 t read
    exact ⟨t, read, entries, cs, decoded, count.1 (by rw [entries]; rfl)⟩
  · have first : codecs.Decodes older (.view25 "a") := rfl
    exact (components_of_blocks codecs twice).2 [older] view [] [.view25 "a"] rfl (.cons first .nil) (by decide)
  · obtain ⟨t, read, -⟩ := exists_ok_of_any (x := (ofElement .builtin plain).result) (p := fun _ => true)
      (by decide +kernel)
    obtain ⟨cs, -, -, -, named⟩ := (components_of_blocks .builtin plain).1 t read
    exact ⟨t, read, named fun block _ c decoded => (Codecs.decode_builtin decoded).1⟩

/-- An alias gets past the guard: of two blocks with its tag, the second takes the place of the first. -/
theorem components_of_blocks_overwritten :
    let codecs := Codecs.builtin.addAlias "d25-alias" Component.view25Name
    let block (source : String) : Xml.Element := .ofChildren "d25-alias" [.ofText "src" source]
    let e : Xml.Element :=
      .ofChildren "technology" [.ofText "name" "t", .ofChildren "components" [block "a", block "b"]]
    e.children.flatMap (handed codecs) = [block "a", block "b"] ∧
      ∃ t, (ofElement codecs e).result = .ok t ∧ t.components.entries = [("d25", .view25 "b")] := by
  intro codecs block e
  obtain ⟨t, read, entries⟩ := exists_ok_of_any (x := (ofElement codecs e).result)
    (p := fun t => t.components.entries = [("d25", .view25 "b")]) (by decide +kernel)
  exact ⟨by decide +kernel, t, read, of_decide_eq_true entries⟩

end Technology

end LayoutTech
