import LayoutTech.Proofs.Table
import LayoutTech.Proofs.Technology.Children

/-!
# What an element says

A technology is read from an element exactly when a name is given, every child can be read for its field, and the
component blocks can be decoded and have different tags. The last child of a field gives its value, and the
components are those of all blocks together.
-/

namespace LayoutTech

/-! ## Codecs -/

namespace Codecs

variable {block : Xml.Element} {c : Component}

/-- What a block is read as: a component of one of the two kinds, or itself when it has no codec. -/
theorem decode_cases (h : (builtin.decode block).result = .ok c) :
    (block.name = Component.view25Name ∧ ∃ source, c = .view25 source) ∨
      (block.name = Component.connectivityName ∧ ∃ connections symbols, c = .connectivity connections symbols) ∨
      (builtin.isRegistered block.name = false ∧ c = .verbatim block) := by
  by_cases view : block.name = Component.view25Name
  · have codec : builtin.find? block.name = some .view25 := if_pos view
    rw [decode, codec] at h
    exact .inl ⟨view, _, (Except.ok.inj h).symm⟩
  · by_cases connectivity : block.name = Component.connectivityName
    · have codec : builtin.find? block.name = some .connectivity := (if_neg view).trans (if_pos connectivity)
      rw [decode, codec] at h
      obtain ⟨parts, -, eq⟩ := Traced.result_bind_eq_ok.1 h
      exact .inr (.inl ⟨connectivity, _, _, (Except.ok.inj eq).symm⟩)
    · have codec : builtin.find? block.name = none := (if_neg view).trans (if_neg connectivity)
      rw [decode, codec] at h
      exact .inr (.inr ⟨by rw [isRegistered, codec]; rfl, (Except.ok.inj h).symm⟩)

/-- The component of a block has the name of the block, and a block is kept as it is when it has no codec. -/
theorem decode_builtin (h : (builtin.decode block).result = .ok c) :
    c.name = block.name ∧ ∀ kept, c = .verbatim kept ↔ kept = block ∧ builtin.isRegistered block.name = false := by
  rcases decode_cases h with ⟨name, source, rfl⟩ | ⟨name, connections, symbols, rfl⟩ | ⟨unregistered, rfl⟩
  · rw [name]
    exact ⟨rfl, fun kept => ⟨nofun, fun ⟨_, unregistered⟩ => nomatch unregistered⟩⟩
  · rw [name]
    exact ⟨rfl, fun kept => ⟨nofun, fun ⟨_, unregistered⟩ => nomatch unregistered⟩⟩
  · exact ⟨rfl, fun kept => by rw [Component.verbatim.injEq, and_iff_left unregistered, eq_comm]⟩

/-- What was read can be written. -/
theorem exists_encode (h : (builtin.decode block).result = .ok c) : ∃ e, builtin.encode c = .ok e := by
  rcases decode_cases h with ⟨-, source, rfl⟩ | ⟨-, connections, symbols, rfl⟩ | ⟨-, rfl⟩
  · exact ⟨_, rfl⟩
  · exact ⟨_, rfl⟩
  · exact ⟨_, rfl⟩

end Codecs

namespace Technology

/-! ## Blocks -/

/-- The component blocks that a child brings: those inside of it, or itself if its tag has a codec. -/
def blocksOf (child : Xml.Element) : List Xml.Element :=
  if child.name ∈ Field.components.tags then child.children
  else if Codecs.builtin.isRegistered child.name then [child]
  else []

def componentBlocks (children : List Xml.Element) : List Xml.Element := children.flatMap blocksOf

structure AreComponents (blocks : List Xml.Element) : Prop where
  distinct : (blocks.map Xml.Element.name).Nodup
  decoded : ∀ block ∈ blocks, ∃ c, (Codecs.builtin.decode block).result = .ok c

/-- The table has what the blocks decode to, each under its tag, and nothing else. -/
def IsMapOf (components : Table Component) (blocks : List Xml.Element) : Prop :=
  ∀ tag c, components.get? tag = some c ↔
    ∃ block ∈ blocks, block.name = tag ∧ (Codecs.builtin.decode block).result = .ok c

variable {components : Table Component} {blocks new : List Xml.Element} {block child : Xml.Element} {c : Component}
  {draft next : Draft} {field : Field} {children : List Xml.Element} {t u : Technology}

theorem AreComponents.nil : AreComponents [] := ⟨.nil, fun _ h => nomatch h⟩

theorem AreComponents.of_append (h : AreComponents (blocks ++ new)) : AreComponents blocks where
  distinct := by
    have names := h.distinct
    rw [List.map_append, List.nodup_append] at names
    exact names.1
  decoded block mem := h.decoded block (List.mem_append_left _ mem)

theorem IsMapOf.nil : IsMapOf .empty [] := fun tag c => by simp

theorem IsMapOf.contains_iff (map : IsMapOf components blocks) (all : AreComponents blocks) {tag : String} :
    components.contains tag = true ↔ tag ∈ blocks.map Xml.Element.name := by
  rw [Table.contains, Option.isSome_iff_exists, List.mem_map]
  constructor
  · rintro ⟨c, found⟩
    obtain ⟨block, mem, name, -⟩ := (map tag c).1 found
    exact ⟨block, mem, name⟩
  · rintro ⟨block, mem, name⟩
    obtain ⟨c, decoded⟩ := all.decoded block mem
    exact ⟨c, (map tag c).2 ⟨block, mem, name, decoded⟩⟩

theorem IsMapOf.insert (map : IsMapOf components blocks) (new : block.name ∉ blocks.map Xml.Element.name)
    (decoded : (Codecs.builtin.decode block).result = .ok c) :
    IsMapOf (components.insert block.name c) (blocks ++ [block]) := by
  intro tag d
  rw [Table.get?_insert]
  by_cases same : block.name = tag
  · subst same
    rw [if_pos rfl, Option.some.injEq]
    constructor
    · rintro rfl
      exact ⟨block, by simp, rfl, decoded⟩
    · rintro ⟨b, mem, name, found⟩
      rcases List.mem_append.1 mem with mem | mem
      · exact absurd (List.mem_map.2 ⟨b, mem, name⟩) new
      · obtain rfl := List.mem_singleton.1 mem
        exact Except.ok.inj (decoded.symm.trans found)
  · rw [if_neg same, map]
    constructor
    · rintro ⟨b, mem, found⟩
      exact ⟨b, List.mem_append_left _ mem, found⟩
    · rintro ⟨b, mem, name, found⟩
      rcases List.mem_append.1 mem with mem | mem
      · exact ⟨b, mem, name, found⟩
      · exact absurd (List.mem_singleton.1 mem ▸ name) same

theorem addBlock_eq_ok_iff {codecs : Codecs} :
    (draft.addBlock codecs block).result = .ok next ↔
      draft.technology.components.contains block.name = false ∧
        ∃ c, (codecs.decode block).result = .ok c ∧ next = draft.update (·.setComponent c) := by
  rw [Draft.addBlock]
  cases draft.technology.components.contains block.name with
  | true => simp
  | false =>
      rw [if_neg Bool.false_ne_true, Traced.result_bind_eq_ok]
      simp only [Traced.result_mapError, Traced.mapError_eq_ok, true_and]
      exact exists_congr fun c => and_congr_right fun _ => ⟨fun h => (Except.ok.inj h).symm, fun h => h ▸ rfl⟩

theorem addBlock_read (all : AreComponents blocks) (map : IsMapOf draft.technology.components blocks)
    (read : (draft.addBlock .builtin block).result = .ok next) :
    AreComponents (blocks ++ [block]) ∧ IsMapOf next.technology.components (blocks ++ [block]) ∧
      ∃ components, next = draft.update ({ · with components }) := by
  obtain ⟨absent, c, decoded, rfl⟩ := addBlock_eq_ok_iff.1 read
  have new : block.name ∉ blocks.map Xml.Element.name := by
    rw [← map.contains_iff all, absent]
    exact Bool.false_ne_true
  have distinct : ((blocks ++ [block]).map Xml.Element.name).Nodup := by
    rw [List.map_append, List.map_singleton]
    exact List.nodup_append.2 ⟨all.distinct, by simp, fun a ha b hb eq =>
      new (by rwa [← List.mem_singleton.1 hb, ← eq])⟩
  refine ⟨⟨distinct, ?_⟩, ?_, _, rfl⟩
  · rw [List.forall_mem_append, List.forall_mem_singleton]
    exact ⟨all.decoded, c, decoded⟩
  · have table : (draft.update (·.setComponent c)).technology.components =
        draft.technology.components.insert c.name c := rfl
    rw [table, (Codecs.decode_builtin decoded).1]
    exact map.insert new decoded

theorem addBlocks_read (all : AreComponents blocks) (map : IsMapOf draft.technology.components blocks)
    (read : (new.foldlM (Draft.addBlock .builtin) draft).result = .ok next) :
    AreComponents (blocks ++ new) ∧ IsMapOf next.technology.components (blocks ++ new) ∧
      ∃ components, next = draft.update ({ · with components }) := by
  induction new generalizing blocks draft with
  | nil =>
      obtain rfl := Except.ok.inj read
      rw [List.append_nil]
      exact ⟨all, map, _, rfl⟩
  | cons block rest ih =>
      obtain ⟨middle, first, later⟩ := Traced.result_bind_eq_ok.1 read
      obtain ⟨all, map, _, rfl⟩ := addBlock_read all map first
      obtain ⟨all, map, _, rfl⟩ := ih all map later
      rw [← List.append_cons] at all map
      exact ⟨all, map, _, rfl⟩

theorem exists_addBlocks (map : IsMapOf draft.technology.components blocks) (all : AreComponents (blocks ++ new)) :
    ∃ next, (new.foldlM (Draft.addBlock .builtin) draft).result = .ok next := by
  induction new generalizing blocks draft with
  | nil => exact ⟨draft, rfl⟩
  | cons block rest ih =>
      have names := all.distinct
      rw [List.map_append, List.nodup_append] at names
      have absent : draft.technology.components.contains block.name = false := by
        rw [← Bool.not_eq_true, map.contains_iff all.of_append]
        exact fun mem => names.2.2 _ mem _ (List.mem_map_of_mem List.mem_cons_self) rfl
      obtain ⟨c, decoded⟩ := all.decoded block (List.mem_append_right _ List.mem_cons_self)
      have first := addBlock_eq_ok_iff.2 ⟨absent, c, decoded, rfl⟩
      obtain ⟨-, map, -⟩ := addBlock_read all.of_append map first
      obtain ⟨next, later⟩ := ih map (List.append_cons .. ▸ all)
      exact ⟨next, (Traced.result_bind_of_ok first _).trans later⟩

/-! ## Children -/

theorem blocksOf_eq_nil (mem : child.name ∈ field.tags) (ne : field ≠ .components) : blocksOf child = [] := by
  have outside : ∀ tag ∈ field.tags, tag ∉ Field.components.tags ∧ Codecs.builtin.isRegistered tag = false := by
    cases field <;> first | exact absurd rfl ne | decide
  obtain ⟨other, unregistered⟩ := outside _ mem
  rw [blocksOf, if_neg other, unregistered]
  rfl

theorem result_readChild_field {codecs : Codecs} (mem : child.name ∈ field.tags) :
    (draft.readChild codecs child).result = (draft.readField codecs field child).result := by
  rw [Draft.readChild, Field.ofTag?_eq_some_iff.2 mem]

theorem result_readChild_blocks (others : ∀ field : Field, child.name ∈ field.tags → field = .components) :
    (draft.readChild .builtin child).result = ((blocksOf child).foldlM (Draft.addBlock .builtin) draft).result := by
  by_cases components : child.name ∈ Field.components.tags
  · rw [result_readChild_field components, blocksOf, if_pos components]
    rfl
  · have none : Field.ofTag? child.name = none := by
      cases found : Field.ofTag? child.name with
      | none => rfl
      | some field =>
          have mem := Field.ofTag?_eq_some_iff.1 found
          exact absurd (others field mem ▸ mem) components
    rw [Draft.readChild, none, blocksOf, if_neg components]
    cases Codecs.builtin.isRegistered child.name with
    | true =>
        simp only [if_true, List.foldlM_cons, List.foldlM_nil, Traced.result_bind, Traced.result_pure]
        exact (bind_pure _).symm
    | false => rfl

/-! ## Fields -/

def lastChild? (field : Field) (children : List Xml.Element) : Option Xml.Element :=
  (children.filter (·.name ∈ field.tags)).getLast?

/-- The field has the value of its last child, or the default when there is none. -/
def FromLast (children : List Xml.Element) (t : Technology) (field : Field) : Prop :=
  match lastChild? field children with
  | some child => field.Holds child t
  | none => field.Same t {}

theorem lastChild?_concat :
    lastChild? field (children ++ [child]) = if child.name ∈ field.tags then some child else lastChild? field children := by
  rw [lastChild?, List.filter_append]
  by_cases mem : child.name ∈ field.tags
  · simp [mem]
  · simp [mem, lastChild?]

theorem FromLast.concat_mem (mem : child.name ∈ field.tags) (holds : field.Holds child t) :
    FromLast (children ++ [child]) t field := by
  rw [FromLast, lastChild?_concat, if_pos mem]
  exact holds

theorem FromLast.concat_notMem (h : FromLast children t field) (notMem : child.name ∉ field.tags)
    (same : field.Same u t) : FromLast (children ++ [child]) u field := by
  rw [FromLast] at h
  rw [FromLast, lastChild?_concat, if_neg notMem]
  cases last : lastChild? field children with
  | none => rw [last] at h; exact same.trans h
  | some child => rw [last] at h; exact h.of_same same

/-! ## Elements -/

/-- The children can be read as those of a technology. -/
structure IsReadable (children : List Xml.Element) : Prop where
  named : ∃ child ∈ children, child.name ∈ Field.name.tags
  accepted : ∀ child ∈ children, ∀ field : Field, child.name ∈ field.tags → field.Accepts child
  components : AreComponents (componentBlocks children)

/-- What the children say of the technology, and nothing else, is in it. -/
structure Describes (children : List Xml.Element) (t : Technology) : Prop where
  fields : ∀ field, FromLast children t field
  components : ∀ tag c, t.component? tag = some c ↔
    ∃ block ∈ componentBlocks children, block.name = tag ∧ (Codecs.builtin.decode block).result = .ok c
  /-- A block without a codec is kept when it is inside of an element for components. -/
  verbatim : ∀ block, t.component? block.name = some (.verbatim block) ↔
    Codecs.builtin.isRegistered block.name = false ∧
      ∃ child ∈ children, child.name ∈ Field.components.tags ∧ block ∈ child.children
  unfiled : t.IsUnfiled

/-- What is known of a draft after some children. -/
structure Reads (children : List Xml.Element) (draft : Draft) : Prop where
  accepted : ∀ child ∈ children, ∀ field : Field, child.name ∈ field.tags → field.Accepts child
  fields : ∀ field, FromLast children draft.technology field
  components : AreComponents (componentBlocks children)
  map : IsMapOf draft.technology.components (componentBlocks children)
  unfiled : draft.technology.IsUnfiled
  named : draft.isNamed = true ↔ ∃ child ∈ children, child.name ∈ Field.name.tags

theorem componentBlocks_concat (children : List Xml.Element) (child : Xml.Element) :
    componentBlocks (children ++ [child]) = componentBlocks children ++ blocksOf child := by
  simp [componentBlocks]

theorem exists_mem_concat {α : Type} {p : α → Prop} {as : List α} {a : α} :
    (∃ b ∈ as ++ [a], p b) ↔ (∃ b ∈ as, p b) ∨ p a := by
  simp only [List.mem_append, List.mem_singleton, or_and_right, exists_or, exists_eq_left]

theorem Reads.nil : Reads [] {} where
  accepted _ h := nomatch h
  fields field := Field.Same.refl field _
  components := .nil
  map := .nil
  unfiled := ⟨rfl, rfl, rfl⟩
  named := by simp

theorem Reads.concat_field (h : Reads children draft) (mem : child.name ∈ field.tags) (ne : field ≠ .components)
    (read : (draft.readField .builtin field child).result = .ok next) : Reads (children ++ [child]) next := by
  obtain ⟨accepts, holds, eq⟩ := Draft.readField_eq_ok ne read
  have technology : next.technology = field.copy next.technology draft.technology := congrArg Draft.technology eq
  have isNamed : next.isNamed = (field == .name || draft.isNamed) := congrArg Draft.isNamed eq
  have blocks : componentBlocks (children ++ [child]) = componentBlocks children := by
    rw [componentBlocks_concat, blocksOf_eq_nil mem ne, List.append_nil]
  exact
    { accepted := by
        rw [List.forall_mem_append, List.forall_mem_singleton]
        exact ⟨h.accepted, fun other hother => Field.eq_of_mem_tags mem hother ▸ accepts⟩
      fields := by
        intro other
        by_cases same : other = field
        · subst same
          exact .concat_mem mem holds
        · -- A tag belongs to one field, so the other field keeps its last child and its value.
          have notMem : child.name ∉ other.tags := fun hother => same (Field.eq_of_mem_tags hother mem)
          exact (h.fields other).concat_notMem notMem (technology ▸ Field.same_copy same _ _)
      components := blocks ▸ h.components
      map := by
        rw [blocks, Draft.components_readField ne read]
        exact h.map
      unfiled := technology ▸ h.unfiled.copy field _
      named := by
        have name : field = .name ↔ child.name ∈ Field.name.tags :=
          ⟨fun eq => eq ▸ mem, fun named => Field.eq_of_mem_tags mem named⟩
        rw [isNamed, Bool.or_eq_true, beq_iff_eq, h.named, exists_mem_concat, name, or_comm] }

theorem Reads.concat_blocks (h : Reads children draft)
    (others : ∀ field : Field, child.name ∈ field.tags → field = .components)
    (read : ((blocksOf child).foldlM (Draft.addBlock .builtin) draft).result = .ok next) :
    Reads (children ++ [child]) next := by
  obtain ⟨components, map, table, rfl⟩ := addBlocks_read h.components h.map read
  rw [← componentBlocks_concat] at components map
  exact
    { accepted := by
        rw [List.forall_mem_append, List.forall_mem_singleton]
        refine ⟨h.accepted, fun field mem => ?_⟩
        obtain rfl := others field mem
        trivial
      fields := by
        intro field
        by_cases mem : child.name ∈ field.tags
        · obtain rfl := others field mem
          exact .concat_mem mem trivial
        · exact (h.fields field).concat_notMem mem (by cases field <;> trivial)
      components
      map
      unfiled := ⟨h.unfiled.file, h.unfiled.changeable, h.unfiled.persisted⟩
      named := by
        have name : child.name ∉ Field.name.tags := fun mem => nomatch others .name mem
        rw [exists_mem_concat, or_iff_left name]
        exact h.named }

theorem Reads.concat (h : Reads children draft) (read : (draft.readChild .builtin child).result = .ok next) :
    Reads (children ++ [child]) next := by
  rcases Field.alone_or_components child.name with ⟨field, mem, ne⟩ | others
  · rw [result_readChild_field mem] at read
    exact h.concat_field mem ne read
  · rw [result_readChild_blocks others] at read
    exact h.concat_blocks others read

-- The last child decides, so both inductions add children at the end.
theorem reads_of_foldlM (read : (children.foldlM (Draft.readChild .builtin) {}).result = .ok draft) :
    Reads children draft := by
  induction children using List.reverseRecOn generalizing draft with
  | nil =>
      obtain rfl := Except.ok.inj read
      exact .nil
  | append_singleton children child ih =>
      obtain ⟨before, earlier, last⟩ := Traced.result_foldlM_concat.1 read
      exact (ih earlier).concat last

theorem Reads.exists_readChild (h : Reads children draft)
    (accepted : ∀ field : Field, child.name ∈ field.tags → field.Accepts child)
    (components : AreComponents (componentBlocks (children ++ [child]))) :
    ∃ next, (draft.readChild .builtin child).result = .ok next := by
  rcases Field.alone_or_components child.name with ⟨field, mem, ne⟩ | others
  · rw [result_readChild_field mem]
    exact Draft.exists_readField ne (accepted field mem)
  · rw [result_readChild_blocks others]
    rw [componentBlocks_concat] at components
    exact exists_addBlocks h.map components

theorem exists_foldlM (accepted : ∀ child ∈ children, ∀ field : Field, child.name ∈ field.tags → field.Accepts child)
    (components : AreComponents (componentBlocks children)) :
    ∃ draft, (children.foldlM (Draft.readChild .builtin) {}).result = .ok draft := by
  induction children using List.reverseRecOn with
  | nil => exact ⟨_, rfl⟩
  | append_singleton children child ih =>
      rw [List.forall_mem_append, List.forall_mem_singleton] at accepted
      obtain ⟨before, earlier⟩ := ih accepted.1 (componentBlocks_concat children child ▸ components).of_append
      obtain ⟨draft, last⟩ := (reads_of_foldlM earlier).exists_readChild accepted.2 components
      exact ⟨draft, Traced.result_foldlM_concat.2 ⟨before, earlier, last⟩⟩

/-! ## The technology -/

theorem mem_componentBlocks {block : Xml.Element} (unregistered : Codecs.builtin.isRegistered block.name = false) :
    block ∈ componentBlocks children ↔
      ∃ child ∈ children, child.name ∈ Field.components.tags ∧ block ∈ child.children := by
  rw [componentBlocks, List.mem_flatMap]
  refine exists_congr fun child => and_congr_right fun _ => ?_
  rw [blocksOf]
  by_cases inside : child.name ∈ Field.components.tags
  · rw [if_pos inside, and_iff_right inside]
  · rw [if_neg inside]
    refine ⟨fun mem => ?_, fun h => absurd h.1 inside⟩
    split at mem
    · next registered =>
        rw [← List.mem_singleton.1 mem, unregistered] at registered
        cases registered
    · cases mem

theorem IsMapOf.get?_eq_verbatim_iff (map : IsMapOf components (componentBlocks children))
    (all : AreComponents (componentBlocks children)) (block : Xml.Element) :
    components.get? block.name = some (.verbatim block) ↔
      Codecs.builtin.isRegistered block.name = false ∧
        ∃ child ∈ children, child.name ∈ Field.components.tags ∧ block ∈ child.children := by
  rw [map]
  constructor
  · rintro ⟨b, mem, -, decoded⟩
    obtain ⟨rfl, unregistered⟩ := ((Codecs.decode_builtin decoded).2 block).1 rfl
    exact ⟨unregistered, (mem_componentBlocks unregistered).1 mem⟩
  · rintro ⟨unregistered, inside⟩
    have mem := (mem_componentBlocks unregistered).2 inside
    obtain ⟨c, decoded⟩ := all.decoded block mem
    obtain rfl := ((Codecs.decode_builtin decoded).2 block).2 ⟨rfl, unregistered⟩
    exact ⟨block, mem, rfl, decoded⟩

theorem Reads.describes (h : Reads children draft) : Describes children draft.technology where
  fields := h.fields
  components := h.map
  verbatim := h.map.get?_eq_verbatim_iff h.components
  unfiled := h.unfiled

theorem FromLast.unique (h : FromLast children t field) (k : FromLast children u field) : field.Same t u := by
  rw [FromLast] at h k
  cases last : lastChild? field children with
  | none => rw [last] at h k; exact h.trans k.symm
  | some child => rw [last] at h k; exact h.unique k

theorem Describes.unique (h : Describes children t) (k : Describes children u) : t = u := by
  have components : t.components = u.components := by
    apply Table.ext_get?
    intro tag
    apply Option.ext
    intro c
    exact (h.components tag c).trans (k.components tag c).symm
  exact ext_fields (fun field => (h.fields field).unique (k.fields field)) components h.unfiled k.unfiled

theorem describes_of_ofElement {e : Xml.Element} (read : (ofElement .builtin e).result = .ok t) :
    IsReadable e.children ∧ Describes e.children t := by
  obtain ⟨draft, children, named, rfl⟩ := exists_draft_iff.1 read
  have reads := reads_of_foldlM children
  exact ⟨⟨reads.named.1 named, reads.accepted, reads.components⟩, reads.describes⟩

theorem IsReadable.exists_ofElement {e : Xml.Element} (h : IsReadable e.children) :
    ∃ t, (ofElement .builtin e).result = .ok t := by
  obtain ⟨draft, children⟩ := exists_foldlM h.accepted h.components
  have named := (reads_of_foldlM children).named.2 h.named
  exact ⟨draft.technology, exists_draft_iff.2 ⟨draft, children, named, rfl⟩⟩

/-- An element can be read exactly when its children allow it, and what is read is the one technology that they
describe. -/
theorem ofElement_eq_ok_iff (e : Xml.Element) :
    ((∃ t, (ofElement .builtin e).result = .ok t) ↔ IsReadable e.children) ∧
      ∀ t, (ofElement .builtin e).result = .ok t ↔ IsReadable e.children ∧ Describes e.children t := by
  refine ⟨⟨fun ⟨t, read⟩ => (describes_of_ofElement read).1, IsReadable.exists_ofElement⟩, fun t => ?_⟩
  constructor
  · exact describes_of_ofElement
  · rintro ⟨readable, describes⟩
    obtain ⟨u, read⟩ := readable.exists_ofElement
    rw [read, describes.unique (describes_of_ofElement read).2]

example :
    (ofElement .builtin (.ofChildren "technology"
      [.ofText "base-path" "/a", .ofText "name" "cmos", .ofText "explicit-base-path" "/b",
        .ofText "base-path" "/c"])).result.toOption.map Technology.explicitBasePath = some "/c" := rfl

end Technology

end LayoutTech
