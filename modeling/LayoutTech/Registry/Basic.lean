import LayoutTech.FileTree.Scan
import LayoutTech.Registry.Repository
import LayoutTech.Technology.File

/-!
# Registries

A repository with the codecs and the collision policy that bulk imports use. A bulk import takes in
what it can and reports on everything: each technology that it met is imported, replaced or rejected.
-/

namespace LayoutTech

/-- A technology that was not taken in: its name, its file or its place, and the reason. -/
structure Rejection where
  source : String
  fault : Fault

structure Report where
  imported : List String
  replaced : List String
  rejected : List Rejection

namespace Rejection

/-- Every rejection is warned of. -/
def warning (r : Rejection) : Warning :=
  ⟨"Technology rejected", [("source", r.source), ("error", r.fault.message)]⟩

end Rejection

namespace Report

def isClean (r : Report) : Bool := r.rejected.isEmpty

def accepted (r : Report) : Nat := r.imported.length + r.replaced.length

end Report

/-- The technologies of a bulk import in order, those that could not be read as rejections. -/
abbrev Batch := List (Except Rejection Technology)

namespace Batch

def technologies (batch : Batch) : List Technology :=
  batch.filterMap fun | .ok t => some t | .error _ => none

def rejections (batch : Batch) : List Rejection :=
  batch.filterMap fun | .ok _ => none | .error r => some r

end Batch

structure Registry where
  repository : Repository := .empty
  codecs : Codecs := .builtin
  policy : CollisionPolicy := .reject

namespace Registry

instance : Inhabited Registry := ⟨{}⟩

def names (r : Registry) : List String := r.repository.names

def snapshot (r : Registry) : List Technology := r.repository.contents

def lookup (r : Registry) (name : String) : Option Handle := r.repository.find? name

def has (r : Registry) (name : String) : Bool := r.repository.contains name

def size (r : Registry) : Nat := r.repository.size

def isEmpty (r : Registry) : Bool := r.repository.isEmpty

/-- Stores a copy of a record. -/
def register (r : Registry) (t : Technology) : Except Fault (Handle × Registry) :=
  match r.repository.insert t with
  | .ok (handle, repository) => .ok (handle, { r with repository })
  | .error fault => .error fault.toTechnology

def create (r : Registry) (name : String) : Except Fault (Handle × Registry) := r.register { name }

/-- The registry without the name, and whether it was there. -/
def remove (r : Registry) (name : String) : Bool × Registry :=
  (r.has name, { r with repository := r.repository.erase name })

def clear (r : Registry) : Registry := { r with repository := r.repository.clear }

/-- The document of all technologies that are to be kept. -/
def exportAll (r : Registry) : Except Fault String :=
  Technology.writeAll r.codecs .compact (r.snapshot.filter Technology.isPersisted)

def namesOf (outcome : Repository.Outcome) (outcomes : List (String × Repository.Outcome)) : List String :=
  (outcomes.filter (·.2 == outcome)).map Prod.fst

/-- The technologies of a batch that were not taken in. -/
def duplicates (outcomes : List (String × Repository.Outcome)) : List Rejection :=
  (namesOf .duplicate outcomes).map fun name => ⟨name, .duplicateName name⟩

/-- The report on a batch, what could not be read coming first. -/
def reportOf (batch : Batch) (outcomes : List (String × Repository.Outcome)) : Report where
  imported := namesOf .inserted outcomes
  replaced := namesOf .replaced outcomes
  rejected := batch.rejections ++ duplicates outcomes

/-- The registry after a batch and the report, with a warning for each name that was taken. -/
def takeIn (r : Registry) (batch : Batch) : Traced Fault (Registry × Report) :=
  let (outcomes, repository) := r.repository.insertAll r.policy batch.technologies
  ⟨.ok ({ r with repository }, reportOf batch outcomes), (duplicates outcomes).map Rejection.warning⟩

theorem result_takeIn (r : Registry) (batch : Batch) :
    (r.takeIn batch).result =
      .ok ({ r with repository := (r.repository.insertAll r.policy batch.technologies).2 },
        reportOf batch (r.repository.insertAll r.policy batch.technologies).1) :=
  rfl

/-- The outcome of reading, a fault being a rejection with the source and a warning. -/
def orReject (source : String) (outcome : Except Fault Technology) :
    Traced Fault (Except Rejection Technology) :=
  match outcome with
  | .ok t => pure (.ok t)
  | .error fault => do
    .warn (Rejection.warning ⟨source, fault⟩)
    pure (.error ⟨source, fault⟩)

/-- The blocks of a document as a batch; a bad one is known by its number, counted from `first`. -/
def batchOfBlocks (first : Nat) : List (Except Fault Technology) → Traced Fault Batch
  | [] => pure []
  | block :: blocks => do
    let entry ← orReject s!"technology #{first}" block
    let batch ← batchOfBlocks (first + 1) blocks
    pure (entry :: batch)

def importAll (r : Registry) (document : String) : Traced Fault (Registry × Report) := do
  let blocks ← Technology.parseAll r.codecs document
  let batch ← batchOfBlocks 1 blocks
  r.takeIn batch

def readDirectory (codecs : Codecs) (tree : FileTree) (directory : List Char) : Traced Fault Batch := do
  let files ← tree.technologyFiles directory
  files.mapM fun file => do
    let outcome ← (Technology.loadFile codecs tree file).attempt
    orReject (String.ofList file) outcome

def loadDirectory (r : Registry) (tree : FileTree) (directory : List Char) :
    Traced Fault (Registry × Report) := do
  let batch ← readDirectory r.codecs tree directory
  r.takeIn batch

/-- The technology files of a directory as a batch; one that cannot be scanned is a rejection. -/
def readOrReject (codecs : Codecs) (tree : FileTree) (directory : List Char) : Traced Fault Batch := do
  match ← (readDirectory codecs tree directory).attempt with
  | .ok batch => pure batch
  | .error fault => do
    let rejection : Rejection := ⟨String.ofList directory, fault⟩
    .warn rejection.warning
    pure [.error rejection]

def loadPaths (r : Registry) (tree : FileTree) (directories : List (List Char)) :
    Traced Fault (Registry × Report) := do
  let batches ← directories.mapM (readOrReject r.codecs tree)
  r.takeIn batches.flatten

end Registry

end LayoutTech
