import LayoutTech.Proofs.Grids.Rewriting
import LayoutTech.Proofs.Technology.Writing
import LayoutTech.Proofs.Xml.Rewriting

/-!
# Saving and loading

A technology is saved as an indented document. What was read from a document with clean names comes back when it is
saved and loaded again, but for the layout of the document, which becomes part of the text of elements with children
in the blocks without a codec.
-/

namespace LayoutTech

/-! ## Elements -/

namespace Xml.Element

variable {style : Style} {e : Element}

theorem survives_of_mem {c : Element} (h : e.Survives style) (hc : c ∈ e.children) : c.Survives style := by
  cases h with
  | mk _ below => exact below c hc

theorem survives_returned (h : e.Survives .compact) (style : Style) (level : Nat) :
    (e.returned style level).Survives .compact := by
  refine everywhere_returned (fun e level here => ⟨?_, ?_⟩) h level
  · rw [IsNamed, name_returned, attributes_returned]
    exact here.1
  · rw [returned_eq]
    exact OpenDocument.keeps_settled _

theorem Survives.returned_eq (h : e.Survives style) (level : Nat) : e.returned style level = e :=
  returned_of_keeps (h.imp fun _ => And.right) level

theorem returned_ofChildren (style : Style) (level : Nat) (name : String) (children : List Element) :
    (ofChildren name children).returned style level =
      ofChildren name (children.map (Element.returned style (level + 1))) := by
  have text := text_returned (e := ofChildren name children) (.inr (.inl rfl)) style level
  have below := children_returned style level (ofChildren name children)
  have tag := name_returned style level (ofChildren name children)
  have keys := attributes_returned style level (ofChildren name children)
  -- What comes back is known field by field.
  generalize (ofChildren name children).returned style level = e at text below tag keys
  cases e
  cases text
  cases below
  cases tag
  cases keys
  rfl

end Xml.Element

/-! ## Components -/

namespace Component

/-- The component as it comes back from an indented document. -/
def indented : Component → Component
  | .verbatim block => .verbatim (block.returned .pretty 2)
  | c => c

variable {style : Xml.Style} {c : Component}

theorem name_indented (c : Component) : c.indented.name = c.name := by
  cases c with
  | verbatim block => exact Xml.Element.name_returned _ _ _
  | _ => rfl

theorem Portable.indented (h : c.Portable .compact) : c.indented.Portable .compact := by
  cases c with
  | verbatim block =>
      obtain ⟨unregistered, survives⟩ := h
      exact ⟨by rwa [Xml.Element.name_returned], Xml.Element.survives_returned survives .pretty 2⟩
  | _ => exact h

/-- Blocks with a codec have no place for layout. -/
theorem Portable.block_indented (h : c.Portable .compact) : c.indented.block = c.block.returned .pretty 2 := by
  have unchanged (portable : c.Portable .pretty) : c.block.returned .pretty 2 = c.block :=
    portable.survives_block.returned_eq 2
  cases c with
  | connectivity connections symbols => exact (unchanged h).symm
  | view25 source => exact (unchanged trivial).symm
  | verbatim block => rfl
  | foreign => cases h

end Component

/-- What is read from a block that survives can be written and read. -/
theorem Codecs.portable_of_decode {style : Xml.Style} {block : Xml.Element} {c : Component}
    (h : (builtin.decode block).result = .ok c) (survives : block.Survives style) : c.Portable style := by
  rcases decode_cases h with ⟨-, source, rfl⟩ | ⟨name, connections, symbols, rfl⟩ | ⟨unregistered, rfl⟩
  · trivial
  · obtain ⟨connections, symbols, parts, eq⟩ := (decode_connectivity_iff name).1 h
    cases eq
    exact parts.isCanonical
  · exact ⟨unregistered, survives⟩

namespace Technology

variable {t u : Technology} {root block : Xml.Element} {document name : String} {n : Nat}

/-! ## What can be saved -/

/-- The technology can be saved and loaded, and an indented document adds nothing to it but layout. -/
structure Storable (t : Technology) : Prop where
  unit : isUnit t.dbu
  finite : ∀ v ∈ t.grids.values, v.isFinite
  readerOptions : HasTagNames t.readerOptions
  writerOptions : HasTagNames t.writerOptions
  keyed : IsKeyed t.components
  components : HasPortable .compact t.components

theorem survives_of_mem_componentBlocks {style : Xml.Style} (survives : root.Survives style)
    (mem : block ∈ componentBlocks root.children) : block.Survives style := by
  obtain ⟨child, hc, mem⟩ := List.mem_flatMap.1 mem
  have inside := Xml.Element.survives_of_mem survives hc
  unfold blocksOf at mem
  split at mem
  · exact Xml.Element.survives_of_mem inside mem
  · split at mem
    · exact List.mem_singleton.1 mem ▸ inside
    · cases mem

theorem hasPortable_of_ofElement {style : Xml.Style} (survives : root.Survives style)
    (read : (ofElement .builtin root).result = .ok t) : HasPortable style t.components := by
  intro entry listed
  obtain ⟨block, mem, -, decoded⟩ :=
    ((describes_of_ofElement read).2.components entry.1 entry.2).1 (Table.get?_eq_some_iff.2 listed)
  exact Codecs.portable_of_decode decoded (survives_of_mem_componentBlocks survives mem)

theorem isFinite_of_ofElement (read : (ofElement .builtin root).result = .ok t) : ∀ v ∈ t.grids.values, v.isFinite := by
  have last := (describes_of_ofElement read).2.fields .grids
  rw [FromLast] at last
  split at last
  · exact (Grids.Obtained.read last).sound.finite
  · have same : t.grids = ({} : Technology).grids := last
    rw [same]
    exact List.forall_mem_nil _

theorem storable_of_ofElement (survives : root.Survives .compact) (read : (ofElement .builtin root).result = .ok t)
    (names : HasTagNames t.readerOptions ∧ HasTagNames t.writerOptions) : t.Storable where
  unit := isUnit_of_ofElement read
  finite := isFinite_of_ofElement read
  readerOptions := names.1
  writerOptions := names.2
  keyed := isKeyed_of_ofElement read
  components := hasPortable_of_ofElement survives read

theorem survives_of_rootOf (element : rootOf rootTag document = .ok root)
    (clean : root.Everywhere Xml.Element.HasCleanNames) : root.Survives .compact := by
  refine Xml.Element.survives_of_isSettled clean ?_
  unfold rootOf at element
  split at element
  · cases element
  · next parsed =>
      split at element
      · cases element
        exact Xml.Element.everywhere_isSettled_of_parse parsed
      · cases element

/-! ## One round -/

/-- The technology with the blocks as they come back from an indented document. -/
def indented (t : Technology) : Technology := { t with components := t.components.mapValues Component.indented }

theorem Storable.element_indented (h : t.Storable) : t.indented.element = t.element.returned .pretty 0 := by
  have text (field : Field) (text : String) :
      (Xml.Element.ofText field.tag text).returned .pretty 1 = .ofText field.tag text :=
    (Xml.Element.survives_ofText (isClean_tag field) text).returned_eq 1
  have options (field : Field) {options : LayoutOptions} (names : HasTagNames options) :
      (optionsElement field.tag options).returned .pretty 1 = optionsElement field.tag options :=
    (survives_optionsElement (isClean_tag field) names).returned_eq 1
  have blocks : t.indented.components.entries.map (fun entry => entry.2.block) =
      (t.components.entries.map fun entry => entry.2.block).map (Xml.Element.returned .pretty 2) := by
    rw [indented, Table.entries_mapValues, List.map_map, List.map_map]
    exact List.map_congr_left fun entry listed => (h.components entry listed).block_indented
  rw [element, element, Xml.Element.returned_ofChildren, blocks]
  simp only [List.map_cons, List.map_nil, text, options .readerOptions h.readerOptions,
    options .writerOptions h.writerOptions, Xml.Element.returned_ofChildren]
  rfl

theorem Storable.stored_indented (h : t.Storable) : t.indented.stored.Storable where
  unit := h.unit
  finite := h.finite
  readerOptions := h.readerOptions
  writerOptions := h.writerOptions
  keyed := by
    intro entry listed
    obtain ⟨before, hb, rfl⟩ := List.mem_map.1 listed
    exact (Component.name_indented _).trans (h.keyed before hb)
  components := by
    intro entry listed
    obtain ⟨before, hb, rfl⟩ := List.mem_map.1 listed
    exact (h.components before hb).indented

theorem Storable.write_eq (h : t.Storable) (style : Xml.Style) :
    t.write .builtin style = .ok (t.element.toDocument style) := by
  rw [write, toElement_eq h.unit h.readerOptions h.writerOptions fun entry he => (h.components entry he).encode_eq]
  rfl

theorem Storable.parse_document (h : t.Storable) :
    (parse .builtin (t.element.toDocument .pretty)).result = .ok t.indented.stored := by
  have survives : t.element.Survives .compact :=
    survives_element h.readerOptions h.writerOptions fun entry he => (h.components entry he).survives_block
  have named : t.element.Everywhere Xml.Element.IsNamed := survives.imp fun _ => And.left
  have root : rootOf rootTag (t.element.toDocument .pretty) = .ok t.indented.element := by
    rw [rootOf, Xml.Element.parse_toDocument_returned named, ← h.element_indented]
    rfl
  rw [parse_of_rootOf root]
  exact ofElement_element h.unit h.finite h.stored_indented.keyed h.stored_indented.components.areReadBack

/-! ## Many rounds -/

/-- The technology after it was saved and loaded so many times. -/
def reloaded : Nat → Technology → Except LayoutTech.Fault Technology
  | 0, t => .ok t
  | n + 1, t => do
    let document ← t.write .builtin .pretty
    let next ← (parse .builtin document).result
    reloaded n next

theorem Storable.reloaded_succ (h : t.Storable) (n : Nat) : reloaded (n + 1) t = reloaded n t.indented.stored := by
  have read := h.parse_document
  rw [reloaded, h.write_eq]
  change (parse .builtin (t.element.toDocument .pretty)).result >>= reloaded n = _
  rw [read]
  rfl

theorem Storable.exists_reloaded (h : t.Storable) (n : Nat) :
    ∃ u, reloaded n t = .ok u ∧ ∀ name block, t.component? name = some (.verbatim block) →
      u.component? name = some (.verbatim ((Xml.Element.returned .pretty 2)^[n] block)) := by
  induction n generalizing t with
  | zero => exact ⟨t, rfl, fun _ _ kept => kept⟩
  | succ n ih =>
      obtain ⟨u, run, later⟩ := ih h.stored_indented
      refine ⟨u, by rw [h.reloaded_succ, run], fun name block kept => ?_⟩
      exact later name (block.returned .pretty 2) (Table.get?_mapValues kept)

theorem hasTagNames_of_reloaded (run : reloaded (n + 1) t = .ok u) :
    HasTagNames t.readerOptions ∧ HasTagNames t.writerOptions := by
  obtain ⟨document, written, -⟩ := Traced.bind_eq_ok.1 run
  have writable := exists_write_iff.1 ⟨document, written⟩
  exact ⟨writable.readerOptions, writable.writerOptions⟩

/-- What was read from a document with clean names can be saved and loaded as often as wanted when its options can be
written. The blocks without a codec stay under their names, and such a block is the same again exactly when no element
in it has both a text and children. -/
theorem reloaded_verbatim_iff (element : rootOf rootTag document = .ok root)
    (clean : root.Everywhere Xml.Element.HasCleanNames) (read : (parse .builtin document).result = .ok t) (n : Nat) :
    ((∃ u, reloaded n t = .ok u) ↔ n = 0 ∨ HasTagNames t.readerOptions ∧ HasTagNames t.writerOptions) ∧
      ∀ u name block, reloaded n t = .ok u → t.component? name = some (.verbatim block) →
        ∃ again, u.component? name = some (.verbatim again) ∧
          (again = block ↔ n = 0 ∨ block.Everywhere fun e => e.children = [] ∨ e.text = "") := by
  rw [parse_of_rootOf element] at read
  have survives := survives_of_rootOf element clean
  cases n with
  | zero =>
      refine ⟨iff_of_true ⟨t, rfl⟩ (.inl rfl), fun u name block run kept => ?_⟩
      cases run
      exact ⟨block, kept, iff_of_true rfl (.inl rfl)⟩
  | succ n =>
      have storable (names : HasTagNames t.readerOptions ∧ HasTagNames t.writerOptions) : t.Storable :=
        storable_of_ofElement survives read names
      refine ⟨⟨fun ⟨u, run⟩ => .inr (hasTagNames_of_reloaded run), fun names => ?_⟩, fun u name block run kept => ?_⟩
      · obtain ⟨u, run, -⟩ := (storable (names.resolve_left n.succ_ne_zero)).exists_reloaded (n + 1)
        exact ⟨u, run⟩
      · have loaded := storable (hasTagNames_of_reloaded run)
        obtain ⟨v, again, later⟩ := loaded.exists_reloaded (n + 1)
        obtain rfl := Except.ok.inj (again.symm.trans run)
        have settled : block.Everywhere Xml.Style.compact.Keeps :=
          (loaded.components _ (Table.get?_eq_some_iff.1 kept)).2.imp fun _ => And.right
        exact ⟨_, later name block kept, Xml.Element.iterate_returned_eq_iff settled 2 (n + 1)⟩

theorem reloaded_verbatim_iff_deck :
    let document := "<technology><components><lvs mode='a&lt;b'>\n <deck> x </deck>\n</lvs></components>" ++
      "<name>t</name></technology>"
    let block : Xml.Element := ⟨"lvs", [("mode", "a<b")], "", [⟨"deck", [], " x ", []⟩]⟩
    ∃ t u, (parse .builtin document).result = .ok t ∧ t.component? "lvs" = some (.verbatim block) ∧
      reloaded 3 t = .ok u ∧ u.component? "lvs" = some (.verbatim block) := by
  intro document block
  have element : rootOf rootTag document = .ok (.ofChildren rootTag
      [.ofChildren "components" [block], .ofText "name" "t"]) := by decide +kernel
  obtain ⟨t, read, all⟩ := exists_ok_of_any (x := (parse .builtin document).result)
    (p := fun t => t.component? "lvs" = some (.verbatim block) ∧ HasTagNames t.readerOptions ∧
      HasTagNames t.writerOptions) (by decide +kernel)
  obtain ⟨kept, names⟩ : t.component? "lvs" = some (.verbatim block) ∧ HasTagNames t.readerOptions ∧
      HasTagNames t.writerOptions := of_decide_eq_true all
  obtain ⟨goes, same⟩ := reloaded_verbatim_iff element (by decide) read 3
  obtain ⟨u, run⟩ := goes.2 (.inr names)
  obtain ⟨again, listed, equal⟩ := same u "lvs" block run kept
  obtain rfl := equal.2 (.inr (by decide))
  exact ⟨t, u, read, kept, run, listed⟩

/-- An element with a text and children has a line end more in its text after it was saved and loaded. -/
theorem reloaded_verbatim_iff_mixed :
    let document := "<technology><name>t</name><components><lvs>deck<a/></lvs></components></technology>"
    let block : Xml.Element := ⟨"lvs", [], "deck", [⟨"a", [], "", []⟩]⟩
    let again : Xml.Element := { block with text := "deck\n    " }
    (∃ root, rootOf rootTag document = .ok root ∧ root.Everywhere Xml.Element.HasCleanNames) ∧
      ∃ t u, (parse .builtin document).result = .ok t ∧ t.component? "lvs" = some (.verbatim block) ∧
        reloaded 1 t = .ok u ∧ u.component? "lvs" = some (.verbatim again) ∧ again ≠ block := by
  intro document block again
  have element : rootOf rootTag document = .ok (.ofChildren rootTag
      [.ofText "name" "t", .ofChildren "components" [block]]) := by decide +kernel
  obtain ⟨t, read, all⟩ := exists_ok_of_any (x := (parse .builtin document).result)
    (p := fun t => t.component? "lvs" = some (.verbatim block) ∧ HasTagNames t.readerOptions ∧
      HasTagNames t.writerOptions) (by decide +kernel)
  obtain ⟨kept, names⟩ : t.component? "lvs" = some (.verbatim block) ∧ HasTagNames t.readerOptions ∧
      HasTagNames t.writerOptions := of_decide_eq_true all
  have survives := survives_of_rootOf element (by decide)
  have storable := storable_of_ofElement survives ((parse_of_rootOf element .builtin).symm.trans read) names
  obtain ⟨u, run, later⟩ := storable.exists_reloaded 1
  exact ⟨⟨_, element, by decide⟩, t, u, read, kept, run, later "lvs" block kept, by decide⟩

end Technology

end LayoutTech
