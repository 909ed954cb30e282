import Mathlib.Data.List.Forall2
import LayoutTech.Proofs.Registry.Importing
import LayoutTech.Proofs.Technology.RoundTrip

/-!
# Moving a registry

What a registry exports is imported again in full once the registry is empty: the same records come back,
under the same names and in the same order, and exporting them gives the same document. A record comes back as another
one when it has a component under another name than the component's own.
-/

namespace LayoutTech.Registry

open Technology (IsKeyed listElement readings)

variable {r next : Registry} {report : Report} {document : String} {root : Xml.Element} {ts us : List Technology}

/-- The records that an export writes. -/
def persisted (r : Registry) : List Technology := r.snapshot.filter Technology.isPersisted

/-! ## Taking in a document -/

theorem namesOf_const (outcome other : Repository.Outcome) (ts : List Technology) :
    namesOf other (ts.map fun t => (t.name, outcome)) = if outcome = other then ts.map Technology.name else [] := by
  induction ts with
  | nil => split <;> rfl
  | cons t ts ih =>
      by_cases h : outcome = other
      · rw [if_pos h] at ih ⊢
        rw [List.map_cons, namesOf, List.filter_cons_of_pos (by simpa using h)]
        exact congrArg _ ih
      · rw [if_neg h] at ih ⊢
        rw [List.map_cons, namesOf, List.filter_cons_of_neg (by simpa using h)]
        exact ih

/-- An empty registry takes in all technologies of a root when all can be read and their names differ. -/
theorem importRoot_clear (r : Registry) (read : readings r.codecs root.children = ts.map .ok)
    (distinct : (ts.map Technology.name).Nodup) :
    ∃ next report, (r.clear.importRoot root).result = .ok (next, report) ∧ next.snapshot = ts ∧
      next.codecs = r.codecs ∧ report.isClean ∧ report.imported = ts.map Technology.name ∧ report.replaced = [] := by
  have new : ∀ t ∈ ts, t.name ∉ r.clear.repository.names := fun _ _ => List.not_mem_nil
  obtain ⟨outcomes, contents⟩ := Repository.insertAll_new r.clear.policy new distinct
  have imported := r.clear.result_importRoot root
  have codecs : r.clear.codecs = r.codecs := rfl
  simp only [codecs, read, Technology.readable_map_ok, unreadable_map_ok, outcomes, duplicates, namesOf_const, if_true,
    reduceCtorEq, if_false, List.map_nil, List.append_nil] at imported
  exact ⟨_, _, imported, contents, rfl, rfl, rfl, rfl⟩

/-- What an empty registry holds after an import has every component under its own name. -/
theorem isKeyed_of_importAll_clear (imported : (r.clear.importAll document).result = .ok (next, report)) :
    ∀ t ∈ next.snapshot, IsKeyed t.components := by
  intro t mem
  rcases (mem_snapshot_importAll imported).2 t mem with before | ⟨e, read⟩
  · exact absurd before List.not_mem_nil
  · exact Technology.isKeyed_of_ofElement read

theorem isKeyed_of_forall₂_same (same : List.Forall₂ (fun u t => u.same t) us ts)
    (keyed : ∀ u ∈ us, IsKeyed u.components) : ∀ t ∈ ts, IsKeyed t.components := by
  induction same with
  | nil => exact keyed
  | cons first _ ih =>
      rw [List.forall_mem_cons] at keyed ⊢
      exact ⟨keyed.1.of_same first, ih keyed.2⟩

/-! ## Export and import -/

theorem persisted_stored : (ts.map Technology.stored).filter Technology.isPersisted = ts.map Technology.stored := by
  rw [List.filter_eq_self]
  intro t ht
  obtain ⟨u, -, rfl⟩ := List.mem_map.1 ht
  rfl

theorem exportAll_eq (codecs : r.codecs = .builtin) (portable : ∀ t ∈ r.persisted, t.Portable .compact) :
    r.exportAll = .ok ((listElement r.persisted).toDocument .compact) := by
  rw [exportAll, codecs]
  exact Technology.writeAll_eq portable

theorem readings_listElement {style : Xml.Style} (portable : ∀ t ∈ ts, t.Portable style)
    (keyed : ∀ t ∈ ts, IsKeyed t.components) :
    readings .builtin (listElement ts).children = (ts.map Technology.stored).map .ok := by
  have blocks : (ts.map Technology.element).filter (·.name == Technology.rootTag) = ts.map Technology.element := by
    rw [List.filter_eq_self]
    intro e he
    obtain ⟨t, -, rfl⟩ := List.mem_map.1 he
    rfl
  rw [readings, listElement, Xml.Element.children_ofChildren, blocks, List.map_map, List.map_map]
  exact List.map_congr_left fun t ht => (portable t ht).ofElement_element (keyed t ht)

/-- A registry is exported, and once it is empty it takes in what was exported, has the persisted records again and
gives the same document in a second export, exactly when each of these records has every component under its own
name. -/
theorem importAll_exportAll_iff (codecs : r.codecs = .builtin) (distinct : (r.persisted.map Technology.name).Nodup)
    (portable : ∀ t ∈ r.persisted, t.Portable .compact) :
    ∃ document, r.exportAll = .ok document ∧
      ((∃ next report, (r.clear.importAll document).result = .ok (next, report) ∧
          report.isClean ∧ report.imported = r.persisted.map Technology.name ∧ report.replaced = [] ∧
          List.Forall₂ (fun after before => after.same before) next.snapshot r.persisted ∧
          next.exportAll = .ok document) ↔
        ∀ t ∈ r.persisted, IsKeyed t.components) := by
  refine ⟨_, exportAll_eq codecs portable, ?_, fun keyed => ?_⟩
  · rintro ⟨next, report, imported, -, -, -, same, -⟩
    exact isKeyed_of_forall₂_same same (isKeyed_of_importAll_clear imported)
  have names : (r.persisted.map Technology.stored).map Technology.name = r.persisted.map Technology.name := by
    rw [List.map_map]
    rfl
  have read := codecs ▸ readings_listElement portable keyed
  obtain ⟨next, report, taken, snapshot, kept, clean, imported, replaced⟩ :=
    r.importRoot_clear read (names.symm ▸ distinct)
  have after : next.persisted = r.persisted.map Technology.stored := by
    rw [persisted, snapshot, persisted_stored]
  have again : next.exportAll = .ok ((listElement r.persisted).toDocument .compact) := by
    rw [exportAll_eq (kept.trans codecs), after, Technology.listElement_stored portable]
    rw [after]
    intro t ht
    obtain ⟨u, hu, rfl⟩ := List.mem_map.1 ht
    exact (portable u hu).stored
  refine ⟨next, report, (importAll_of_root (Technology.rootOf_listElement portable)).trans taken, clean,
    imported.trans names, replaced, ?_, again⟩
  rw [snapshot, List.forall₂_map_left_iff, List.forall₂_same]
  exact fun t ht => (portable t ht).same_stored

theorem importAll_exportAll_iff_cmos :
    let block : Xml.Element := ⟨"vendor", [("mode", "<&>")], " \n x", [⟨"deck", [], "\t", []⟩]⟩
    let cmos : Technology := { name := "cmos", description := " a < b " }
    let draft : Technology := { name := "cmos", isPersisted := false }
    let bipolar : Technology := { name := "", components := .ofList [("vendor", .verbatim block)] }
    let repository : Repository := ((Repository.empty.append cmos).append draft).append bipolar
    let r : Registry := { repository, policy := .replace }
    ∃ document next report, r.exportAll = .ok document ∧
      (r.clear.importAll document).result = .ok (next, report) ∧
      report.isClean ∧ report.imported = r.persisted.map Technology.name ∧ report.replaced = [] ∧
      List.Forall₂ (fun after before => after.same before) next.snapshot r.persisted ∧
      next.exportAll = .ok document := by
  intro block cmos draft bipolar repository r
  obtain ⟨document, exported, back⟩ := importAll_exportAll_iff (r := r) rfl (by decide +kernel) (by decide +kernel)
  obtain ⟨next, report, imported⟩ := back.2 (by decide +kernel)
  exact ⟨document, next, report, exported, imported⟩

/-- A record with a block that was exchanged in place through its handle does not come back. -/
theorem importAll_exportAll_iff_misfiled :
    let deck (name : String) : Xml.Element := ⟨name, [], "", []⟩
    let file (t : Technology) : Technology := t.setComponent (.verbatim (deck "lvs"))
    let exchange (t : Technology) : Technology := t.editComponent "lvs" (.verbatim fun _ => deck "drc")
    let cmos : Technology := { name := "cmos" }
    let r : Registry := { repository := ((Repository.empty.append cmos).modify ⟨0⟩ file).modify ⟨0⟩ exchange }
    r.codecs = .builtin ∧ (r.persisted.map Technology.name).Nodup ∧ (∀ t ∈ r.persisted, t.Portable .compact) ∧
      ∃ document next report, r.exportAll = .ok document ∧
        (r.clear.importAll document).result = .ok (next, report) ∧
        next.snapshot.map (·.components.entries) = [[("drc", .verbatim (deck "drc"))]] ∧
        ¬List.Forall₂ (fun after before => after.same before) next.snapshot r.persisted := by
  intro deck file exchange cmos r
  have portable : ∀ t ∈ r.persisted, t.Portable .compact := by decide +kernel
  have moved : ¬∀ t ∈ r.persisted, IsKeyed t.components := by decide +kernel
  obtain ⟨⟨next, report⟩, imported, components⟩ := exists_ok_of_any
    (x := (r.clear.importRoot (listElement r.persisted)).result)
    (p := fun (next, _) => next.snapshot.map (·.components.entries) = [[("drc", .verbatim (deck "drc"))]])
    (by decide +kernel)
  have imported := (importAll_of_root (Technology.rootOf_listElement portable)).trans imported
  have lost : ¬List.Forall₂ (fun after before => after.same before) next.snapshot r.persisted := fun same =>
    moved (isKeyed_of_forall₂_same same (isKeyed_of_importAll_clear imported))
  exact ⟨rfl, by decide +kernel, portable, _, next, report, exportAll_eq rfl portable, imported,
    of_decide_eq_true components, lost⟩

end LayoutTech.Registry
