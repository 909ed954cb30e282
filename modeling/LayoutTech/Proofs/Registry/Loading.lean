import Mathlib.Data.List.Lex
import LayoutTech.Proofs.Registry.Inserting
import LayoutTech.Proofs.Registry.Replacing

/-!
# Loading directories

Several directories are loaded as one batch: the files of those that can be scanned, in order, with a rejection for
each of the others. A registry that refuses taken names cannot tell this from loading them one after another, and in
one that replaces records the first file of a name decides.
-/

namespace LayoutTech

/-! ## The order of paths -/

namespace FileTree

/-- A strict order in which all elements can be compared. -/
structure IsOrder {α : Type} (lt : α → α → Bool) : Prop where
  asymm : ∀ a b, lt a b → ¬lt b a
  total : ∀ a b, ¬lt a b → ¬lt b a → a = b
  connected : ∀ a b c, lt a c → lt a b ∨ lt b c

/-- Lists are ordered by the first element in which they differ. -/
theorem IsOrder.lex {α : Type} [BEq α] [LawfulBEq α] {lt : α → α → Bool} (h : IsOrder lt) :
    IsOrder fun as bs : List α => List.lex as bs lt := by
  have : Std.Asymm fun a b => lt a b = true := ⟨h.asymm⟩
  have : Std.Trichotomous fun a b => lt a b = true := ⟨h.total⟩
  have : IsOrderConnected α fun a b => lt a b = true := ⟨h.connected⟩
  constructor <;> simp only [List.lex_eq_true_iff_lex]
  · exact Std.Asymm.asymm
  · exact Std.Trichotomous.trichotomous
  · exact IsOrderConnected.conn

theorem isOrder_nameLt : IsOrder nameLt := by
  apply IsOrder.lex
  constructor <;> simp only [decide_eq_true_eq]
  · exact fun a b => UInt32.lt_asymm
  · exact fun a b lt gt => Char.ext (UInt32.le_antisymm (UInt32.not_lt.1 gt) (UInt32.not_lt.1 lt))
  · intro a b c lt
    by_cases le : a.val < b.val
    · exact .inl le
    · exact .inr (UInt32.lt_of_le_of_lt (UInt32.not_lt.1 le) lt)

theorem pairwise_technologyFiles {tree : FileTree} {directory : List Char} {files : List (List Char)}
    (scanned : (tree.technologyFiles directory).result = .ok files) : files.Pairwise fun p q => pathLe p q := by
  have order := isOrder_nameLt.lex
  unfold technologyFiles at scanned
  split at scanned
  · cases scanned
  · obtain ⟨found, -, eq⟩ := Traced.result_bind_eq_ok.1 scanned
    obtain rfl := Except.ok.inj eq
    apply List.pairwise_mergeSort <;> simp only [pathLe, Bool.or_eq_true, Bool.not_eq_true', Bool.eq_false_iff]
    · exact fun a b c ab bc ca => (order.connected _ _ _ ca).elim bc ab
    · exact fun a b => or_iff_not_imp_left.2 fun gt lt => order.asymm _ _ lt (of_not_not gt)
  · cases scanned

end FileTree

/-! ## Loading -/

namespace Traced

variable {ε α β : Type}

/-- Steps that all succeed give a list of what they give. -/
theorem result_mapM {f : α → Traced ε β} {g : α → β} (step : ∀ a, (f a).result = .ok (g a)) (as : List α) :
    (as.mapM f).result = .ok (as.map g) := by
  have loop (done : List β) : (List.mapM.loop f as done).result = .ok (done.reverse ++ as.map g) := by
    induction as generalizing done with
    | nil => exact congrArg Except.ok (List.append_nil _).symm
    | cons a as ih =>
        rw [List.mapM.loop, result_bind_of_ok (step a), ih, List.reverse_cons, List.append_assoc]
        rfl
  exact loop []

end Traced

namespace Registry

/-- What came of a directory: the fault of scanning it, or its files in order, each as a technology or as the rejection
of the file. -/
structure Scan where
  directory : String
  files : Except Fault Batch

namespace Scan

def isScanned (s : Scan) : Bool := s.files.isOk

/-- The directory as part of a batch. -/
def batch (s : Scan) : Batch :=
  match s.files with
  | .ok files => files
  | .error fault => [.error ⟨s.directory, fault⟩]

/-- The files that were found, none if the directory was not scanned. -/
def found (s : Scan) : Batch :=
  match s.files with
  | .ok files => files
  | .error _ => []

end Scan

/-- What a file is loaded as. -/
def loaded (codecs : Codecs) (tree : FileTree) (file : List Char) : Except Rejection Technology :=
  (Technology.loadFile codecs tree file).result.mapError fun fault => ⟨String.ofList file, fault⟩

/-- What comes of a directory of the tree. -/
def scan (codecs : Codecs) (tree : FileTree) (directory : List Char) : Scan where
  directory := String.ofList directory
  files := (tree.technologyFiles directory).result.map fun files => files.map (loaded codecs tree)

/-- One directory that was scanned, or was not. -/
def loadScan (r : Registry) (s : Scan) : Except Fault (Registry × Report) := do
  let files ← s.files
  (r.takeIn files).result

/-- All directories as one batch. -/
def loadScans (r : Registry) (scans : List Scan) : Registry × Report :=
  let batch : Batch := scans.flatMap Scan.batch
  let stored := r.repository.insertAll r.policy batch.technologies
  ({ r with repository := stored.2 }, reportOf batch stored.1)

/-- One thing after another is loaded, as long as there is no fault. -/
def inTurn {σ : Type} (load : Registry → σ → Except Fault (Registry × Report)) (r : Registry) :
    List σ → Except Fault (Registry × List Report)
  | [] => .ok (r, [])
  | s :: rest => do
    let first ← load r s
    let others ← inTurn load first.1 rest
    pure (others.1, first.2 :: others.2)

variable {r next : Registry} {tree : FileTree} {directory : List Char} {batch : Batch} {report : Report}

theorem result_orReject (source : String) (outcome : Except Fault Technology) :
    (orReject source outcome).result = .ok (outcome.mapError fun fault => ⟨source, fault⟩) := by
  cases outcome <;> rfl

theorem result_readDirectory (codecs : Codecs) (tree : FileTree) (directory : List Char) :
    (readDirectory codecs tree directory).result = (scan codecs tree directory).files := by
  rw [readDirectory, Traced.result_bind, scan]
  cases (tree.technologyFiles directory).result with
  | error fault => rfl
  | ok files =>
      refine Traced.result_mapM (g := loaded codecs tree) (fun file => ?_) files
      rw [Traced.result_bind_of_ok (Traced.result_attempt _), result_orReject]
      rfl

theorem result_loadDirectory (r : Registry) (tree : FileTree) (directory : List Char) :
    (r.loadDirectory tree directory).result = r.loadScan (scan r.codecs tree directory) := by
  rw [loadDirectory, Traced.result_bind, result_readDirectory]
  rfl

theorem result_readOrReject (codecs : Codecs) (tree : FileTree) (directory : List Char) :
    (readOrReject codecs tree directory).result = .ok (scan codecs tree directory).batch := by
  rw [readOrReject, Traced.result_bind_of_ok (Traced.result_attempt _), result_readDirectory, Scan.batch]
  cases (scan codecs tree directory).files <;> rfl

theorem result_loadPaths_scan (r : Registry) (tree : FileTree) (directories : List (List Char)) :
    (r.loadPaths tree directories).result = .ok (r.loadScans (directories.map (scan r.codecs tree))) := by
  have batches := Traced.result_mapM (result_readOrReject r.codecs tree) directories
  rw [loadPaths, Traced.result_bind_of_ok batches, result_takeIn, loadScans, List.flatMap_map, List.flatMap_def]

/-! ## One batch -/

theorem technologies_append (batch others : Batch) :
    Batch.technologies (batch ++ others) = batch.technologies ++ others.technologies :=
  List.filterMap_append

theorem rejections_append (batch others : Batch) :
    Batch.rejections (batch ++ others) = batch.rejections ++ others.rejections :=
  List.filterMap_append

theorem length_batch (batch : Batch) : batch.technologies.length + batch.rejections.length = batch.length := by
  induction batch with
  | nil => rfl
  | cons entry batch ih =>
      rw [Batch.technologies, Batch.rejections] at ih ⊢
      cases entry <;> simp only [List.filterMap_cons, List.length_cons] <;> omega

theorem length_scanned (scans : List Scan) :
    (scans.flatMap Scan.batch).length = scans.countP (!·.isScanned) + (scans.flatMap Scan.found).length := by
  induction scans with
  | nil => rfl
  | cons s scans ih =>
      have one : s.batch.length = (if !s.isScanned then 1 else 0) + s.found.length := by
        obtain ⟨directory, _ | files⟩ := s
        · rfl
        · exact (Nat.zero_add _).symm
      rw [List.flatMap_cons, List.flatMap_cons, List.length_append, List.length_append, ih, List.countP_cons, one]
      omega

theorem length_reportOf (r : Registry) (policy : CollisionPolicy) (batch : Batch) :
    let report := reportOf batch (r.repository.insertAll policy batch.technologies).1
    report.imported.length + report.replaced.length + report.rejected.length = batch.length := by
  have reported := length_reported batch.rejections (r.repository.insertAll policy batch.technologies).1
  rw [Repository.length_insertAll, length_batch] at reported
  exact reported

/-- The report is the other one with one rejection more. -/
structure AddsRejection (others : Report) (rejection : Rejection) (report : Report) : Prop where
  imported : report.imported = others.imported
  replaced : report.replaced = others.replaced
  rejected : ∃ before after, others.rejected = before ++ after ∧ report.rejected = before ++ rejection :: after

/-- What a batch of directories does, whatever came of each of them. -/
structure LoadsTogether (r : Registry) (scans : List Scan) (next : Registry) (report : Report) : Prop where
  /-- The report counts each file, and each directory that could not be scanned. -/
  total : report.imported.length + report.replaced.length + report.rejected.length =
    scans.countP (!·.isScanned) + (scans.flatMap Scan.found).length
  /-- A directory that could not be scanned adds its rejection to what the others do, and nothing else. -/
  isolated : ∀ earlier bad later fault, scans = earlier ++ bad :: later → bad.files = .error fault →
    next = (r.loadScans (earlier ++ later)).1 ∧
      AddsRejection (r.loadScans (earlier ++ later)).2 ⟨bad.directory, fault⟩ report
  /-- Where taken names are refused, the directories might as well be loaded in turn. -/
  refusing : r.policy = .reject → ∃ reports,
    inTurn loadScan r (scans.filter Scan.isScanned) = .ok (next, reports) ∧
      report.imported = reports.flatMap Report.imported
  /-- Where records are replaced, the first file of a name decides. -/
  replacing : r.policy = .replace → ∀ name t,
    (Batch.technologies (scans.flatMap Scan.batch)).find? (·.name == name) = some t →
      ∃ h, next.lookup name = some h ∧ next.repository.record h = t

theorem flatMap_batch_bad {bad : Scan} {fault : Fault} (unscanned : bad.files = .error fault)
    (earlier later : List Scan) :
    (earlier ++ bad :: later).flatMap Scan.batch =
      earlier.flatMap Scan.batch ++ .error ⟨bad.directory, fault⟩ :: later.flatMap Scan.batch := by
  rw [List.flatMap_append, List.flatMap_cons, Scan.batch, unscanned]
  rfl

theorem isolated_loadScans (r : Registry) {bad : Scan} {fault : Fault} (unscanned : bad.files = .error fault)
    (earlier later : List Scan) :
    (r.loadScans (earlier ++ bad :: later)).1 = (r.loadScans (earlier ++ later)).1 ∧
      AddsRejection (r.loadScans (earlier ++ later)).2 ⟨bad.directory, fault⟩
        (r.loadScans (earlier ++ bad :: later)).2 := by
  have same : Batch.technologies ((earlier ++ bad :: later).flatMap Scan.batch) =
      Batch.technologies ((earlier ++ later).flatMap Scan.batch) := by
    rw [flatMap_batch_bad unscanned, List.flatMap_append, technologies_append, technologies_append]
    rfl
  rw [loadScans, loadScans, same]
  generalize Batch.technologies ((earlier ++ later).flatMap Scan.batch) = stored
  refine ⟨rfl, rfl, rfl, Batch.rejections (earlier.flatMap Scan.batch),
    Batch.rejections (later.flatMap Scan.batch) ++ duplicates (r.repository.insertAll r.policy stored).1, ?_, ?_⟩
  · rw [reportOf, List.flatMap_append, rejections_append, List.append_assoc]
  · rw [reportOf, flatMap_batch_bad unscanned, rejections_append, List.append_assoc]
    rfl

theorem loadScan_ok {s : Scan} {files : Batch} (scanned : s.files = .ok files) (r : Registry) :
    r.loadScan s = .ok (r.loadScans [s]) := by
  rw [loadScan, scanned, loadScans, List.flatMap_singleton, Scan.batch, scanned]
  rfl

/-- A registry that refuses taken names loads the first directory, and then the others. -/
theorem loadScans_cons (refuses : r.policy = .reject) (s : Scan) (scans : List Scan) :
    (r.loadScans (s :: scans)).1 = ((r.loadScans [s]).1.loadScans scans).1 ∧
      (r.loadScans (s :: scans)).2.imported =
        (r.loadScans [s]).2.imported ++ ((r.loadScans [s]).1.loadScans scans).2.imported := by
  simp only [loadScans, reportOf, refuses, List.flatMap_cons, List.flatMap_nil, List.append_nil, technologies_append,
    Repository.insertAll_append, namesOf, List.filter_append, List.map_append, and_self]

theorem inTurn_cons {σ : Type} {load : Registry → σ → Except Fault (Registry × Report)} {s : σ} {rest : List σ}
    {last : Registry} {reports : List Report} (first : load r s = .ok (next, report))
    (others : inTurn load next rest = .ok (last, reports)) :
    inTurn load r (s :: rest) = .ok (last, report :: reports) := by
  rw [inTurn, first]
  simp only [bind, Except.bind, others]
  rfl

theorem inTurn_loadScan (refuses : r.policy = .reject) (scans : List Scan) :
    ∃ reports, inTurn loadScan r (scans.filter Scan.isScanned) = .ok ((r.loadScans scans).1, reports) ∧
      (r.loadScans scans).2.imported = reports.flatMap Report.imported := by
  induction scans generalizing r with
  | nil => exact ⟨[], rfl, rfl⟩
  | cons s scans ih =>
      cases outcome : s.files with
      | error fault =>
          have unscanned : ¬s.isScanned := by rw [Scan.isScanned, outcome]; exact Bool.false_ne_true
          obtain ⟨same, adds⟩ := r.isolated_loadScans outcome [] scans
          obtain ⟨reports, turns, imported⟩ := ih refuses
          refine ⟨reports, ?_, adds.imported.trans imported⟩
          rw [List.filter_cons_of_neg unscanned, turns]
          exact congrArg (fun last => Except.ok (last, reports)) same.symm
      | ok files =>
          have scanned : s.isScanned := by rw [Scan.isScanned, outcome]; rfl
          obtain ⟨reports, turns, imported⟩ := ih (r := (r.loadScans [s]).1) refuses
          obtain ⟨last, names⟩ := loadScans_cons refuses s scans
          refine ⟨(r.loadScans [s]).2 :: reports, ?_, ?_⟩
          · rw [List.filter_cons_of_pos scanned, last]
            exact inTurn_cons (loadScan_ok outcome r) turns
          · rw [names, imported, List.flatMap_cons]

theorem loadsTogether (r : Registry) (scans : List Scan) :
    r.LoadsTogether scans (r.loadScans scans).1 (r.loadScans scans).2 where
  total := by rw [← length_scanned]; exact length_reportOf r r.policy _
  isolated := by
    rintro earlier bad later fault rfl unscanned
    exact r.isolated_loadScans unscanned earlier later
  refusing refuses := inTurn_loadScan refuses scans
  replacing replaces name t first := by
    rw [loadScans, replaces]
    exact r.repository.find?_insertAll_replace first

theorem codecs_loadScan {s : Scan} (eq : r.loadScan s = .ok (next, report)) : next.codecs = r.codecs := by
  cases outcome : s.files with
  | error fault => rw [loadScan, outcome] at eq; cases eq
  | ok files => rw [loadScan_ok outcome] at eq; cases eq; rfl

theorem inTurn_loadDirectory (r : Registry) (tree : FileTree) (directories : List (List Char)) :
    inTurn (fun r directory => (r.loadDirectory tree directory).result) r directories =
      inTurn loadScan r (directories.map (scan r.codecs tree)) := by
  induction directories generalizing r with
  | nil => rfl
  | cons directory directories ih =>
      rw [List.map_cons, inTurn, inTurn, result_loadDirectory]
      cases first : r.loadScan (scan r.codecs tree directory) with
      | error fault => rfl
      | ok loaded =>
          have rest := ih loaded.1
          rw [codecs_loadScan first] at rest
          simp only [bind, Except.bind, rest]

theorem isScanned_scan (codecs : Codecs) (tree : FileTree) (directory : List Char) :
    (scan codecs tree directory).isScanned = (tree.technologyFiles directory).result.isOk := by
  rw [Scan.isScanned, scan]
  cases (tree.technologyFiles directory).result <;> rfl

/-- Directories are loaded as one batch of their files, which are in the order of their paths, and loading them does
not fail. What is said of the batch holds whatever the scanning of the directories and the reading of the files give. -/
theorem loadPaths_one_batch (r : Registry) :
    (∀ tree directories,
      (r.loadPaths tree directories).result = .ok (r.loadScans (directories.map (scan r.codecs tree))) ∧
        inTurn (fun r directory => (r.loadDirectory tree directory).result) r
            (directories.filter fun directory => (tree.technologyFiles directory).result.isOk) =
          inTurn loadScan r ((directories.map (scan r.codecs tree)).filter Scan.isScanned)) ∧
      (∀ tree directory files, (FileTree.technologyFiles tree directory).result = .ok files →
        files.Pairwise fun p q => FileTree.pathLe p q) ∧
      ∀ scans, r.LoadsTogether scans (r.loadScans scans).1 (r.loadScans scans).2 := by
  refine ⟨fun tree directories => ⟨result_loadPaths_scan r tree directories, ?_⟩,
    fun tree directory files => FileTree.pairwise_technologyFiles, loadsTogether r⟩
  have scannable : (fun directory => (tree.technologyFiles directory).result.isOk) =
      Scan.isScanned ∘ scan r.codecs tree :=
    funext fun directory => (isScanned_scan r.codecs tree directory).symm
  rw [inTurn_loadDirectory, List.filter_map, scannable]

theorem loadPaths_one_batch_cmos :
    let found : Scan := ⟨"pdk", .ok [.ok { name := "cmos", description := "first" }, .ok { name := "cmos" }]⟩
    let missing : Scan := ⟨"gone", .error (.file "gone" .notADirectoryToScan)⟩
    let refused := loadScans {} [missing, found]
    let replaced := loadScans { policy := .replace } [missing, found]
    (∃ reports, inTurn loadScan {} [found] = .ok (refused.1, reports) ∧
      refused.2.imported = reports.flatMap Report.imported) ∧
      refused.1 = (loadScans {} [found]).1 ∧
      AddsRejection (loadScans {} [found]).2 ⟨"gone", .file "gone" .notADirectoryToScan⟩ refused.2 ∧
      ∃ h, replaced.1.lookup "cmos" = some h ∧
        replaced.1.repository.record h = { name := "cmos", description := "first" } := by
  intro found missing refused replaced
  have refusing := (loadPaths_one_batch {}).2.2 [missing, found]
  have replacing := (loadPaths_one_batch { policy := .replace }).2.2 [missing, found]
  exact ⟨refusing.refusing rfl, (refusing.isolated [] missing [found] _ rfl rfl).1,
    (refusing.isolated [] missing [found] _ rfl rfl).2, replacing.replacing rfl "cmos" _ rfl⟩

end Registry

end LayoutTech
