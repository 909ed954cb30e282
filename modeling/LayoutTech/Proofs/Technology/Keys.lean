import LayoutTech.Proofs.Technology.Blocks

/-!
# Components under their names

Whoever puts a component into a technology puts it under the component's own name, and what is read from a document is
kept so. A change in place is no such thing: a block without a codec may come out of it with another name, and stays
where it was.
-/

namespace LayoutTech

namespace Technology

variable {components : Table Component} {codecs : Codecs} {t u : Technology} {e : Xml.Element} {name : String}
  {edit : Component.Edit}

/-- Every component is kept under its own name. -/
def IsKeyed (components : Table Component) : Prop := ∀ entry ∈ components.entries, entry.2.name = entry.1

instance (components : Table Component) : Decidable (IsKeyed components) :=
  inferInstanceAs (Decidable (∀ entry ∈ components.entries, _))

/-! ## Operations -/

theorem isKeyed_empty : IsKeyed .empty := List.forall_mem_nil _

theorem IsKeyed.insert (h : IsKeyed components) (c : Component) : IsKeyed (components.insert c.name c) := by
  intro entry mem
  rcases Table.mem_put mem with rfl | before
  · rfl
  · exact h entry before

theorem isKeyed_setComponent (h : IsKeyed t.components) (c : Component) : IsKeyed (t.setComponent c).components :=
  h.insert c

/-- A change in place leaves the components under their names exactly when the one that is changed has its name after
it. -/
theorem isKeyed_editComponent_iff (h : IsKeyed t.components) :
    IsKeyed (t.editComponent name edit).components ↔ ∀ c, t.component? name = some c → (c.edit edit).name = name := by
  have entries : (t.editComponent name edit).components.entries =
      t.components.entries.map fun e => (e.1, if e.1 = name then e.2.edit edit else e.2) := rfl
  rw [IsKeyed, entries, List.forall_mem_map]
  constructor
  · intro keyed c found
    have here := keyed (name, c) (Table.get?_eq_some_iff.1 found)
    rwa [if_pos rfl] at here
  · rintro kept ⟨key, c⟩ mem
    by_cases same : key = name
    · subst same
      rw [if_pos rfl]
      exact kept c (Table.get?_eq_some_iff.2 mem)
    · rw [if_neg same]
      exact h _ mem

/-! ## Documents -/

theorem IsKeyed.collect (h : IsKeyed components) (cs : List Component) :
    IsKeyed (Technology.collect components cs) := by
  induction cs generalizing components with
  | nil => exact h
  | cons c cs ih => exact ih (h.insert c)

theorem isKeyed_of_ofElement (read : (ofElement codecs e).result = .ok t) : IsKeyed t.components := by
  obtain ⟨cs, -, eq⟩ := collects_ofElement read
  exact eq ▸ isKeyed_empty.collect cs

theorem isKeyed_of_parse {document : String} (read : (parse codecs document).result = .ok t) :
    IsKeyed t.components := by
  obtain ⟨root, -, read⟩ := Traced.result_bind_eq_ok.1 read
  exact isKeyed_of_ofElement read

/-- The same technology has the same components under the same names. -/
theorem IsKeyed.of_same (h : IsKeyed u.components) (same : u.same t) : IsKeyed t.components := by
  simp only [Technology.same, Bool.and_eq_true, decide_eq_true_eq] at same
  exact same.2 ▸ h

end Technology

end LayoutTech
