import LayoutTech.Proofs.Registry.Transfer
import LayoutTech.Proofs.Technology.Writing

/-!
# Exporting after an import

A registry is exported when each of its persisted records can be written. A batch brings no records but its own, and
those that were read from a document can be written unless an option has a name that the writer refuses.
-/

namespace LayoutTech

namespace Registry

open Technology (HasTagNames)

variable {r : Registry}

/-! ## Exports -/

theorem exists_exportAll_iff : (∃ document, r.exportAll = .ok document) ↔ ∀ t ∈ r.persisted, t.IsWritable r.codecs := by
  rw [exportAll, Technology.writeAll, Technology.exists_bind_iff fun _ => Technology.exists_pure_iff, and_true,
    Technology.exists_mapM_iff]
  simp only [Technology.exists_toElement_iff, persisted]

/-! ## Imports -/

/-- What was read from a document can be written, and a registry that could be exported can be exported after it
imported the document, exactly when the names of all options can be tags. -/
theorem exportAll_after_importAll (document : String) :
    (∀ t, (Technology.parse .builtin document).result = .ok t → ∀ style,
      ((∃ written, t.write .builtin style = .ok written) ↔
        HasTagNames t.readerOptions ∧ HasTagNames t.writerOptions)) ∧
      ∀ r : Registry, r.codecs = .builtin → (∃ before, r.exportAll = .ok before) →
        ∀ next report, (r.importAll document).result = .ok (next, report) →
          ((∃ after, next.exportAll = .ok after) ↔
            ∀ t ∈ next.persisted, HasTagNames t.readerOptions ∧ HasTagNames t.writerOptions) := by
  constructor
  · intro t read style
    obtain ⟨root, -, read⟩ := Traced.result_bind_eq_ok.1 read
    rw [Technology.exists_write_iff, Technology.isWritable_iff_of_ofElement read]
  · intro r codecs exported next report imported
    obtain ⟨kept, records⟩ := mem_snapshot_importAll imported
    rw [exists_exportAll_iff, codecs] at exported
    rw [exists_exportAll_iff, kept, codecs]
    apply forall₂_congr
    intro t mem
    obtain ⟨listed, persisted⟩ := List.mem_filter.1 mem
    rcases records t listed with before | ⟨e, read⟩
    · have writable := exported t (List.mem_filter.2 ⟨before, persisted⟩)
      exact iff_of_true writable ⟨writable.readerOptions, writable.writerOptions⟩
    · rw [codecs] at read
      exact Technology.isWritable_iff_of_ofElement read

theorem exportAll_after_importAll_cmos :
    let block := "<technology><name>cmos</name><reader-options><gds2><box>1</box></gds2></reader-options></technology>"
    (∃ t, (Technology.parse .builtin block).result = .ok t ∧ ∃ written, t.write .builtin .pretty = .ok written) ∧
      ∃ next report,
        (({} : Registry).importAll ("<technologies>" ++ block ++ "</technologies>")).result = .ok (next, report) ∧
          ∃ after, next.exportAll = .ok after := by
  intro block
  obtain ⟨t, read, names⟩ := exists_ok_of_any (x := (Technology.parse .builtin block).result)
    (p := fun t => decide (HasTagNames t.readerOptions ∧ HasTagNames t.writerOptions)) (by decide +kernel)
  obtain ⟨⟨next, report⟩, imported, all⟩ := exists_ok_of_any
    (x := (({} : Registry).importAll ("<technologies>" ++ block ++ "</technologies>")).result)
    (p := fun (next, _) => next.persisted.all fun t => HasTagNames t.readerOptions ∧ HasTagNames t.writerOptions)
    (by decide +kernel)
  refine ⟨⟨t, read, ?_⟩, next, report, imported, ?_⟩
  · exact ((exportAll_after_importAll block).1 t read .pretty).2 (of_decide_eq_true names)
  · refine ((exportAll_after_importAll _).2 {} rfl ⟨_, rfl⟩ next report imported).2 fun t ht => ?_
    exact of_decide_eq_true (List.all_eq_true.1 all t ht)

/-- A name that may stand in a document is refused by the writer, and with it the export of the whole registry. -/
theorem exportAll_after_importAll_umlaut :
    let block := "<technology><name>t</name><reader-options><gds2><größe>1</größe></gds2></reader-options></technology>"
    let fault : Fault := .malformed (.badOptionName "reader-options" "größe")
    (∃ t, (Technology.parse .builtin block).result = .ok t ∧
        t.write .builtin .compact = .error fault ∧ t.write .builtin .pretty = .error fault) ∧
      ∃ next report,
        (({} : Registry).importAll ("<technologies>" ++ block ++ "</technologies>")).result = .ok (next, report) ∧
          next.exportAll = .error fault := by
  intro block fault
  obtain ⟨t, read, refused⟩ := exists_ok_of_any (x := (Technology.parse .builtin block).result)
    (p := fun t => t.write .builtin .compact = .error fault ∧ t.write .builtin .pretty = .error fault)
    (by decide +kernel)
  obtain ⟨⟨next, report⟩, imported, failed⟩ := exists_ok_of_any
    (x := (({} : Registry).importAll ("<technologies>" ++ block ++ "</technologies>")).result)
    (p := fun (next, _) => next.exportAll = .error fault) (by decide +kernel)
  exact ⟨⟨t, read, of_decide_eq_true refused⟩, next, report, imported, of_decide_eq_true failed⟩

end Registry

end LayoutTech
