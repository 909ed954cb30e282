import LayoutTech.Proofs.Registry.Importing
import LayoutTech.Proofs.Technology.Faults

/-!
# Why a technology is rejected

A technology of a document is rejected because it is malformed, and then its place in the document is told, or because
its name is taken, and then the name is told. There are no other reasons, and a document as a whole is refused only when
it is malformed.
-/

namespace LayoutTech

open Fault (IsMalformed isMalformed_malformed)

namespace Technology

variable {codecs : Codecs} {document : String} {blocks : List (Except Fault Technology)}

theorem failsOnly_of_mem_readings (tell : codecs.TellOfComponents) {children : List Xml.Element}
    {block : Except Fault Technology} (mem : block ∈ readings codecs children) : FailsOnly IsMalformed block := by
  obtain ⟨child, -, rfl⟩ := List.mem_map.1 mem
  exact failsOnly_ofElement tell child

theorem failsOnly_parseAll (codecs : Codecs) (document : String) :
    FailsOnly IsMalformed (parseAll codecs document).result := by
  refine .bind (failsOnly_malformed _) fun root => ?_
  rw [result_ofElements]
  exact .ok _

theorem parseAll_eq_ok_iff :
    (parseAll codecs document).result = .ok blocks ↔
      ∃ root, rootOf listTag document = .ok root ∧ blocks = readings codecs root.children := by
  rw [parseAll, Traced.result_bind_eq_ok]
  refine exists_congr fun root => ?_
  rw [Traced.ofExcept_mapError_eq_ok, result_ofElements, Except.ok.injEq, @eq_comm _ blocks]

end Technology

namespace Registry

open Technology (readings)

variable {r : Registry} {document : String} {blocks : List (Except Fault Technology)} {rejection : Rejection}

theorem mem_unreadable {first : Nat} :
    rejection ∈ unreadable first blocks ↔
      ∃ place fault, blocks[place]? = some (.error fault) ∧ rejection = ⟨s!"technology #{first + place}", fault⟩ := by
  rw [unreadable, List.mem_filterMap]
  constructor
  · rintro ⟨⟨outcome, place⟩, mem, told⟩
    obtain ⟨from_first, found⟩ := List.mk_mem_zipIdx_iff_le_and_getElem?_sub.1 mem
    cases outcome with
    | ok t => cases told
    | error fault =>
        refine ⟨place - first, fault, found, ?_⟩
        rw [Nat.add_sub_cancel' from_first]
        exact (Option.some.inj told).symm
  · rintro ⟨place, fault, found, rfl⟩
    refine ⟨(.error fault, first + place), ?_, rfl⟩
    exact List.mk_mem_zipIdx_iff_le_and_getElem?_sub.2 ⟨Nat.le_add_right _ _, by rwa [Nat.add_sub_cancel_left]⟩

theorem mem_duplicates {outcomes : List (String × Repository.Outcome)} (mem : rejection ∈ duplicates outcomes) :
    ∃ name, rejection = ⟨name, .duplicateName name⟩ := by
  obtain ⟨name, -, rfl⟩ := List.mem_map.1 mem
  exact ⟨name, rfl⟩

theorem failsOnly_importAll (r : Registry) (document : String) :
    FailsOnly IsMalformed (r.importAll document).result := by
  cases found : Technology.rootOf Technology.listTag document with
  | error fault =>
      rw [importAll_of_fault found]
      exact .error (isMalformed_malformed fault)
  | ok root =>
      rw [importAll_of_root found, result_importRoot]
      exact .ok _

theorem mem_rejected {next : Registry} {report : Report} (imported : (r.importAll document).result = .ok (next, report))
    (mem : rejection ∈ report.rejected) :
    (∃ blocks place fault, (Technology.parseAll r.codecs document).result = .ok blocks ∧
        blocks[place]? = some (.error fault) ∧ rejection = ⟨s!"technology #{1 + place}", fault⟩) ∨
      ∃ name, rejection = ⟨name, .duplicateName name⟩ := by
  cases found : Technology.rootOf Technology.listTag document with
  | error fault =>
      rw [importAll_of_fault found] at imported
      cases imported
  | ok root =>
      rw [importAll_of_root found, result_importRoot] at imported
      obtain rfl := (Prod.mk.inj (Except.ok.inj imported)).2
      rcases List.mem_append.1 mem with unread | taken
      · obtain ⟨place, fault, here, rfl⟩ := mem_unreadable.1 unread
        exact .inl ⟨_, place, fault, Technology.parseAll_eq_ok_iff.2 ⟨root, found, rfl⟩, here, rfl⟩
      · exact .inr (mem_duplicates taken)

/-- With the codecs for the kinds of components known here, a document that cannot be read, as a technology or as a list
of technologies, is malformed, and so is each technology in a list that cannot be read. An import rejects these, each
under its place in the list, and technologies whose name is taken, under the name. -/
theorem rejected_malformed_or_duplicate (document : String) :
    FailsOnly IsMalformed (Technology.parse .builtin document).result ∧
      FailsOnly IsMalformed (Technology.parseAll .builtin document).result ∧
      (∀ blocks, (Technology.parseAll .builtin document).result = .ok blocks →
        ∀ block ∈ blocks, FailsOnly IsMalformed block) ∧
      ∀ r : Registry, r.codecs = .builtin →
        FailsOnly IsMalformed (r.importAll document).result ∧
          ∀ next report, (r.importAll document).result = .ok (next, report) → ∀ rejection ∈ report.rejected,
            (∃ blocks place cause, (Technology.parseAll .builtin document).result = .ok blocks ∧
                blocks[place]? = some (.error (.malformed cause)) ∧
                rejection = ⟨s!"technology #{1 + place}", .malformed cause⟩) ∨
              ∃ name, rejection = ⟨name, .duplicateName name⟩ := by
  have tell := Codecs.tellOfComponents_builtin
  have each : ∀ blocks, (Technology.parseAll .builtin document).result = .ok blocks →
      ∀ block ∈ blocks, FailsOnly IsMalformed block := by
    intro blocks parsed block mem
    obtain ⟨root, -, rfl⟩ := Technology.parseAll_eq_ok_iff.1 parsed
    exact Technology.failsOnly_of_mem_readings tell mem
  refine ⟨Technology.failsOnly_parse tell document, Technology.failsOnly_parseAll _ _, each, fun r builtin => ?_⟩
  refine ⟨failsOnly_importAll r document, fun next report imported rejection mem => ?_⟩
  rcases mem_rejected imported mem with ⟨blocks, place, fault, parsed, here, rfl⟩ | taken
  · rw [builtin] at parsed
    obtain ⟨cause, rfl⟩ := each blocks parsed _ (List.mem_of_getElem? here) fault rfl
    exact .inl ⟨blocks, place, cause, parsed, here, rfl⟩
  · exact .inr taken

theorem rejected_malformed_or_duplicate_cmos :
    let cmos : Xml.Element := .ofChildren "technology" [.ofText "name" "cmos"]
    let wires : Xml.Element := .ofChildren "connectivity" [.ofText "connection" "m1"]
    let sky : Xml.Element := .ofChildren "technology" [.ofText "name" "sky", .ofChildren "components" [wires]]
    let root : Xml.Element := .ofChildren "technologies" [cmos, sky, cmos]
    let document :=
      "<technologies><technology><name>cmos</name></technology><technology><name>sky</name><components>" ++
        "<connectivity><connection>m1</connection></connectivity></components></technology>" ++
        "<technology><name>cmos</name></technology></technologies>"
    let r : Registry := {}
    Technology.rootOf Technology.listTag document = .ok root ∧
      (∃ fault, (Technology.parse .builtin document).result = .error fault ∧ fault.IsMalformed) ∧
      ∃ next report, (r.importAll document).result = .ok (next, report) ∧
        report.rejected.map Rejection.source = ["technology #2", "cmos"] ∧
        ∀ rejection ∈ report.rejected,
          (∃ blocks place cause, (Technology.parseAll .builtin document).result = .ok blocks ∧
              blocks[place]? = some (.error (.malformed cause)) ∧
              rejection = ⟨s!"technology #{1 + place}", .malformed cause⟩) ∨
            ∃ name, rejection = ⟨name, .duplicateName name⟩ := by
  intro cmos wires sky root document r
  have element : Xml.Element.parse document = .ok root := by decide +kernel
  have parsed : Technology.rootOf Technology.listTag document = .ok root := by
    rw [Technology.rootOf, element]
    rfl
  obtain ⟨refused, -, -, reported⟩ := rejected_malformed_or_duplicate document
  have failed : (Technology.parse .builtin document).result =
      .error (.malformed (.wrongRoot "technology" "technologies")) := by
    rw [Technology.parse, Technology.rootOf, element]
    rfl
  have imported := (importAll_of_root parsed).trans (r.result_importRoot root)
  exact ⟨parsed, ⟨_, failed, refused _ failed⟩, _, _, imported, by decide +kernel, (reported r rfl).2 _ _ imported⟩

end Registry

end LayoutTech
