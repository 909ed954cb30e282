import LayoutTech.Proofs.Registry.Batches
import LayoutTech.Proofs.Registry.Runs

/-!
# Importing documents

An import reads the technology elements of the root one by one and stores those that can be read. Its report
accounts for each of them once, and those that cannot be read change nothing for the others.
-/

namespace LayoutTech

/-! ## Readings of the blocks -/

namespace Technology

/-- What the technology elements among the children read as. -/
def readings (codecs : Codecs) (children : List Xml.Element) : List (Except Fault Technology) :=
  (children.filter (·.name == rootTag)).map fun block => (ofElement codecs block).result

def readable (readings : List (Except Fault Technology)) : List Technology := readings.filterMap Except.toOption

/-- A technology element that can be read. -/
def isReadable (codecs : Codecs) (child : Xml.Element) : Bool :=
  child.name == rootTag && (ofElement codecs child).result.isOk

variable {codecs : Codecs} {child : Xml.Element}

theorem readings_cons_block (block : child.name = rootTag) (rest : List Xml.Element) :
    readings codecs (child :: rest) = (ofElement codecs child).result :: readings codecs rest := by
  rw [readings, List.filter_cons_of_pos (by simpa using block)]
  rfl

theorem readings_cons_other (other : child.name ≠ rootTag) (rest : List Xml.Element) :
    readings codecs (child :: rest) = readings codecs rest := by
  rw [readings, List.filter_cons_of_neg (by simpa using other)]
  rfl

theorem readable_map_ok (ts : List Technology) : readable (ts.map .ok) = ts := by
  rw [readable, List.filterMap_map]
  exact List.filterMap_some

theorem result_ofElements (codecs : Codecs) (children : List Xml.Element) :
    (ofElements codecs children).result = .ok (readings codecs children) := by
  induction children with
  | nil => rfl
  | cons child rest ih =>
      by_cases block : child.name = rootTag
      · rw [ofElements, if_pos block, Traced.result_bind_of_ok (Traced.result_attempt _), Traced.result_bind_of_ok ih,
          readings_cons_block block]
        rfl
      · rw [ofElements, if_neg block, Traced.result_bind_of_ok (Traced.result_warn _), ih, readings_cons_other block]

/-- Without what cannot be read, the same technologies are left. -/
theorem readings_filter (codecs : Codecs) (children : List Xml.Element) :
    readings codecs (children.filter (isReadable codecs)) = (readable (readings codecs children)).map .ok := by
  induction children with
  | nil => rfl
  | cons child rest ih =>
      by_cases block : child.name = rootTag
      · rw [readings_cons_block block]
        cases read : (ofElement codecs child).result with
        | ok t =>
            have kept : isReadable codecs child := by simp [isReadable, block, read, Except.isOk, Except.toBool]
            rw [List.filter_cons_of_pos kept, readings_cons_block block, read, ih]
            rfl
        | error fault =>
            have dropped : ¬isReadable codecs child := by simp [isReadable, read, Except.isOk, Except.toBool]
            rw [List.filter_cons_of_neg dropped, ih]
            rfl
      · have dropped : ¬isReadable codecs child := by simp [isReadable, block]
        rw [List.filter_cons_of_neg dropped, ih, readings_cons_other block]

theorem length_readings (codecs : Codecs) (children : List Xml.Element) :
    (readings codecs children).length = children.countP (·.name == rootTag) := by
  rw [readings, List.length_map, List.countP_eq_length_filter]

end Technology

/-! ## The report -/

namespace Registry

open Technology (readings readable readable_map_ok)

/-- The faults among the readings, each with its place; `first` is the place of the first reading. -/
def unreadable (first : Nat) (readings : List (Except Fault Technology)) : List Rejection :=
  (readings.zipIdx first).filterMap fun
    | (.ok _, _) => none
    | (.error fault, place) => some ⟨s!"technology #{place}", fault⟩

/-- Imports an element as the root of a document. -/
def importRoot (r : Registry) (root : Xml.Element) : Traced Fault (Registry × Report) := do
  let blocks ← Technology.ofElements r.codecs root.children
  let batch ← batchOfBlocks 1 blocks
  r.takeIn batch

variable {r next : Registry} {report : Report} {document : String} {root : Xml.Element} {t : Technology}

theorem result_batchOfBlocks (first : Nat) (blocks : List (Except Fault Technology)) :
    ∃ batch, (batchOfBlocks first blocks).result = .ok batch ∧ Batch.technologies batch = readable blocks ∧
      Batch.rejections batch = unreadable first blocks := by
  induction blocks generalizing first with
  | nil => exact ⟨[], rfl, rfl, rfl⟩
  | cons block blocks ih =>
      obtain ⟨batch, read, technologies, rejections⟩ := ih (first + 1)
      cases block with
      | ok t =>
          refine ⟨.ok t :: batch, ?_, congrArg (t :: ·) technologies, rejections⟩
          rw [batchOfBlocks, Traced.result_bind_of_ok (a := .ok t) rfl, Traced.result_bind_of_ok read]
          rfl
      | error fault =>
          refine ⟨.error ⟨s!"technology #{first}", fault⟩ :: batch, ?_, technologies, congrArg (_ :: ·) rejections⟩
          rw [batchOfBlocks, Traced.result_bind_of_ok (a := .error ⟨s!"technology #{first}", fault⟩) rfl,
            Traced.result_bind_of_ok read]
          rfl

theorem length_readable_add_unreadable (first : Nat) (blocks : List (Except Fault Technology)) :
    (readable blocks).length + (unreadable first blocks).length = blocks.length := by
  induction blocks generalizing first with
  | nil => rfl
  | cons block blocks ih =>
      have rest := ih (first + 1)
      cases block with
      | ok t =>
          have readable : (readable (.ok t :: blocks)).length = (readable blocks).length + 1 := rfl
          have unreadable : unreadable first (.ok t :: blocks) = unreadable (first + 1) blocks := rfl
          rw [readable, unreadable, List.length_cons]
          omega
      | error fault =>
          have readable : readable (.error fault :: blocks) = readable blocks := rfl
          have unreadable : (unreadable first (.error fault :: blocks)).length =
              (unreadable (first + 1) blocks).length + 1 := rfl
          rw [readable, unreadable, List.length_cons]
          omega

theorem unreadable_map_ok (first : Nat) (ts : List Technology) : unreadable first (ts.map .ok) = [] := by
  rw [unreadable, List.zipIdx_map, List.filterMap_map]
  exact List.filterMap_eq_nil_iff.2 fun _ _ => rfl

/-- A report has an entry for each reading, when there are outcomes for those that can be read. -/
theorem length_report {blocks : List (Except Fault Technology)} {outcomes : List (String × Repository.Outcome)}
    (fst : outcomes.map Prod.fst = (readable blocks).map Technology.name) :
    (namesOf .inserted outcomes).length + (namesOf .replaced outcomes).length +
      (unreadable 1 blocks ++ duplicates outcomes).length = blocks.length := by
  have read := congrArg List.length fst
  rw [List.length_map, List.length_map] at read
  rw [length_reported, read, length_readable_add_unreadable]

/-- What storing the technologies that can be read, and reporting on the others, comes to. -/
theorem result_importRoot (r : Registry) (root : Xml.Element) :
    let blocks := readings r.codecs root.children
    let stored := r.repository.insertAll r.policy (readable blocks)
    (r.importRoot root).result =
      .ok ({ r with repository := stored.2 },
        ⟨namesOf .inserted stored.1, namesOf .replaced stored.1, unreadable 1 blocks ++ duplicates stored.1⟩) := by
  intro blocks stored
  obtain ⟨batch, read, technologies, rejections⟩ := result_batchOfBlocks 1 blocks
  rw [importRoot, Traced.result_bind_of_ok (Technology.result_ofElements _ _), Traced.result_bind_of_ok read,
    result_takeIn, technologies, reportOf, rejections]

theorem importAll_of_fault {fault : DocumentFault} (h : Technology.rootOf Technology.listTag document = .error fault) :
    (r.importAll document).result = .error (.malformed fault) := by
  simp only [importAll, Technology.parseAll, h, Traced.result_bind, Traced.result_ofExcept]
  rfl

theorem importAll_of_root (h : Technology.rootOf Technology.listTag document = .ok root) :
    (r.importAll document).result = (r.importRoot root).result := by
  simp only [importAll, importRoot, Technology.parseAll, h, Traced.result_bind, Traced.result_ofExcept]
  rfl

theorem exists_ofElement_of_readable {children : List Xml.Element}
    (mem : t ∈ Technology.readable (Technology.readings r.codecs children)) :
    ∃ e ∈ children, (Technology.ofElement r.codecs e).result = .ok t := by
  obtain ⟨reading, hr, ok⟩ := List.mem_filterMap.1 mem
  obtain ⟨e, he, rfl⟩ := List.mem_map.1 hr
  refine ⟨e, List.mem_of_mem_filter he, ?_⟩
  cases read : (Technology.ofElement r.codecs e).result with
  | error fault => rw [read] at ok; cases ok
  | ok u => rw [read] at ok; exact congrArg Except.ok (Option.some.inj ok)

/-- An import leaves the codecs as they are, and the records after it were there before or were read from an
element. -/
theorem mem_snapshot_importAll (imported : (r.importAll document).result = .ok (next, report)) :
    next.codecs = r.codecs ∧
      ∀ t ∈ next.snapshot, t ∈ r.snapshot ∨ ∃ e, (Technology.ofElement r.codecs e).result = .ok t := by
  cases found : Technology.rootOf Technology.listTag document with
  | error fault =>
      rw [importAll_of_fault found] at imported
      cases imported
  | ok root =>
      rw [importAll_of_root found, result_importRoot] at imported
      obtain ⟨rfl, -⟩ := Prod.mk.inj (Except.ok.inj imported)
      refine ⟨rfl, fun t mem => ?_⟩
      rcases Repository.mem_contents_insertAfter mem with before | read
      · exact .inl before
      · obtain ⟨e, -, read⟩ := exists_ofElement_of_readable read
        exact .inr ⟨e, read⟩

/-! ## Every block once -/

/-- The report on a root that was imported into the registry `r`, which is `next` after that. -/
structure Accounts (r next : Registry) (root : Xml.Element) (report : Report) : Prop where
  total : report.imported.length + report.replaced.length + report.rejected.length =
    root.children.countP (·.name == Technology.rootTag)
  names : next.names = r.names ++ report.imported
  imported_distinct : report.imported.Nodup
  imported_new : ∀ name ∈ report.imported, name ∉ r.names
  replaced_distinct : report.replaced.Nodup
  replaced_known : ∀ name ∈ report.replaced, name ∈ r.names
  replaced_policy : r.policy = .reject → report.replaced = []
  /-- Each technology that can be read has an outcome, and one that is refused has a name that was there before
  or that an earlier one brought. -/
  outcomes : ∃ outcomes : List (String × Repository.Outcome),
    outcomes.map Prod.fst = (readable (readings r.codecs root.children)).map Technology.name ∧
      report.imported = namesOf .inserted outcomes ∧ report.replaced = namesOf .replaced outcomes ∧
      report.rejected = unreadable 1 (readings r.codecs root.children) ++
        (namesOf .duplicate outcomes).map (fun name => ⟨name, .duplicateName name⟩) ∧
      ∀ earlier name later, outcomes = earlier ++ (name, .duplicate) :: later →
        name ∈ r.names ∨ (name, .inserted) ∈ earlier

theorem importRoot_accounts (r : Registry) (root : Xml.Element) :
    ∃ next report, (r.importRoot root).result = .ok (next, report) ∧ r.Accounts next root report := by
  refine ⟨_, _, r.result_importRoot root, ?_⟩
  have fst := Repository.map_fst_insertAfter [] r.repository r.policy (readable (readings r.codecs root.children))
  exact
    { total := (length_report fst).trans (Technology.length_readings _ _)
      names := Repository.names_insertAfter [] r.repository r.policy _
      imported_distinct := Repository.nodup_namesOf (by decide)
      imported_new := fun name h => (Repository.inserted_new (mem_namesOf.1 h)).2
      replaced_distinct := Repository.nodup_namesOf (by decide)
      replaced_known := fun name h => (Repository.replaced_known (mem_namesOf.1 h)).2.1
      replaced_policy := by
        intro reject
        apply List.eq_nil_iff_forall_not_mem.2
        intro name h
        have replace := (Repository.replaced_known (mem_namesOf.1 h)).2.2
        rw [reject] at replace
        cases replace
      outcomes := ⟨_, fst, rfl, rfl, rfl, fun earlier name later eq =>
        (Repository.duplicate_known eq).resolve_left List.not_mem_nil⟩ }

/-- An import fails when the document has no root for technologies, and then leaves the registry as it was; with
such a root, the report accounts for every technology in it once. -/
theorem importAll_accounts (r : Registry) (document : String) :
    (∃ fault, Technology.rootOf Technology.listTag document = .error fault ∧
        (r.importAll document).result = .error (.malformed fault) ∧
        r.step (.importAll r.policy document) = (.failed (.malformed fault), r)) ∨
      ∃ root next report, Technology.rootOf Technology.listTag document = .ok root ∧
        (r.importAll document).result = .ok (next, report) ∧
        r.step (.importAll r.policy document) = (.done, next) ∧ r.Accounts next root report := by
  cases found : Technology.rootOf Technology.listTag document with
  | error fault =>
      have failed : (r.importAll document).result = .error (.malformed fault) := importAll_of_fault found
      refine .inl ⟨fault, rfl, failed, ?_⟩
      rw [step, failed]
      rfl
  | ok root =>
      obtain ⟨next, report, imported, accounts⟩ := r.importRoot_accounts root
      have imported := (importAll_of_root found).trans imported
      refine .inr ⟨root, next, report, rfl, imported, ?_, accounts⟩
      rw [step, imported]
      rfl

/-! ## Blocks that cannot be read -/

/-- The root without what cannot be read as a technology. -/
def readablePart (codecs : Codecs) (root : Xml.Element) : Xml.Element :=
  { root with children := root.children.filter (Technology.isReadable codecs) }

/-- A root and the part of it that can be read leave the registry the same, and have the same names imported and
replaced; what cannot be read is rejected under its place among the technologies, before anything else. The same
holds of the documents with these roots. -/
theorem importRoot_isolates (r : Registry) (root : Xml.Element) :
    ∃ next report rest, (r.importRoot root).result = .ok (next, report) ∧
      (r.importRoot (readablePart r.codecs root)).result = .ok (next, rest) ∧
      report.imported = rest.imported ∧ report.replaced = rest.replaced ∧
      report.rejected = unreadable 1 (readings r.codecs root.children) ++ rest.rejected ∧
      (∀ document, Technology.rootOf Technology.listTag document = .ok root →
        (r.importAll document).result = .ok (next, report)) ∧
      ∀ document, Technology.rootOf Technology.listTag document = .ok (readablePart r.codecs root) →
        (r.importAll document).result = .ok (next, rest) := by
  have whole := r.result_importRoot root
  have part := r.result_importRoot (readablePart r.codecs root)
  have left : readings r.codecs (readablePart r.codecs root).children = _ := Technology.readings_filter _ _
  simp only [left, readable_map_ok, unreadable_map_ok, List.nil_append] at part
  exact ⟨_, _, _, whole, part, rfl, rfl, rfl, fun _ h => (importAll_of_root h).trans whole,
    fun _ h => (importAll_of_root h).trans part⟩

theorem importRoot_isolates_cmos :
    let cmos : Xml.Element := .ofChildren "technology" [.ofText "name" "cmos"]
    let root : Xml.Element := .ofChildren "technologies" [.ofText "note" "", cmos, .ofChildren "technology" [], cmos]
    let document :=
      "<technologies><note/><technology><name>cmos</name></technology><technology/>" ++
        "<technology><name>cmos</name></technology></technologies>"
    let part :=
      "<technologies><technology><name>cmos</name></technology>" ++
        "<technology><name>cmos</name></technology></technologies>"
    let r : Registry := { policy := .replace }
    Technology.rootOf Technology.listTag document = .ok root ∧
      Technology.rootOf Technology.listTag part = .ok (readablePart .builtin root) ∧
      ∃ next report rest, (r.importAll document).result = .ok (next, report) ∧
        (r.importAll part).result = .ok (next, rest) ∧
        report.imported = rest.imported ∧ report.replaced = rest.replaced ∧
        report.rejected = ⟨"technology #2", .malformed .nameMissing⟩ :: rest.rejected := by
  intro cmos root document part r
  have whole : Technology.rootOf Technology.listTag document = .ok root := by decide +kernel
  have reduced : Technology.rootOf Technology.listTag part = .ok (readablePart .builtin root) := by decide +kernel
  obtain ⟨next, report, rest, -, -, imported, replaced, rejected, ofWhole, ofPart⟩ := importRoot_isolates r root
  exact ⟨whole, reduced, next, report, rest, ofWhole document whole, ofPart part reduced, imported, replaced, rejected⟩

end Registry

end LayoutTech
