import LayoutTech.Proofs.Registry.Refinement
import LayoutTech.Registry.Basic

/-!
# Runs of a registry

What can be done to a registry, step after step: its own operations, and writes through handles that were
handed out. As long as no write changes a name, the registry agrees with an ordered map on which the same is
done.
-/

namespace LayoutTech

/-! ## Steps -/

/-- A bulk import comes with the policy that the registry has at the time. -/
inductive Operation where
  | create (name : String)
  | register (t : Technology)
  | remove (name : String)
  | clear
  | importAll (policy : CollisionPolicy) (document : String)
  | loadDirectory (policy : CollisionPolicy) (tree : FileTree) (directory : List Char)
  | loadPaths (policy : CollisionPolicy) (tree : FileTree) (directories : List (List Char))
  | write (handle : Handle) (change : Technology → Technology)

/-- What the operation writes through a handle. -/
def Operation.through (handle : Handle) : Operation → Technology → Technology
  | .write other change => if handle = other then change else id
  | _ => id

inductive Answer where
  | handle (handle : Handle)
  | removed (present : Bool)
  | failed (fault : Fault)
  | done

def run {σ : Type} (step : σ → Operation → Answer × σ) (s : σ) : List Operation → List Answer × σ
  | [] => ([], s)
  | op :: ops => ((step s op).1 :: (run step (step s op).2 ops).1, (run step (step s op).2 ops).2)

namespace Registry

/-- What is stored is answered by its handle; a fault leaves the registry as it was. -/
def stored (r : Registry) : Except Fault (Handle × Registry) → Answer × Registry
  | .ok (handle, next) => (.handle handle, next)
  | .error fault => (.failed fault, r)

/-- A bulk import that cannot be read at all leaves the registry as it was. -/
def taken (r : Registry) : Except Fault (Registry × Report) → Answer × Registry
  | .ok (next, _) => (.done, next)
  | .error fault => (.failed fault, r)

def step (r : Registry) : Operation → Answer × Registry
  | .create name => r.stored (r.create name)
  | .register t => r.stored (r.register t)
  | .remove name => (.removed (r.remove name).1, (r.remove name).2)
  | .clear => (.done, r.clear)
  | .importAll policy document => r.taken ({ r with policy }.importAll document).result
  | .loadDirectory policy tree directory => r.taken ({ r with policy }.loadDirectory tree directory).result
  | .loadPaths policy tree directories => r.taken ({ r with policy }.loadPaths tree directories).result
  | .write handle change => (.done, { r with repository := r.repository.modify handle change })

/-- A write leaves the name of the record that it is applied to as it is. -/
def KeepsName (r : Registry) : Operation → Prop
  | .write handle change => (change (r.repository.record handle)).name = r.repository.nameOf handle
  | _ => True

/-- No write of the run changes the name of a record. -/
def KeepsNames (r : Registry) : List Operation → Prop
  | [] => True
  | op :: ops => r.KeepsName op ∧ (r.step op).2.KeepsNames ops

theorem KeepsNames.of_append {r : Registry} {done later : List Operation} (h : r.KeepsNames (done ++ later)) :
    r.KeepsNames done := by
  induction done generalizing r with
  | nil => trivial
  | cons op done ih => exact ⟨h.1, ih h.2⟩

/-! ## Batches -/

def readDocument (codecs : Codecs) (document : String) : Traced Fault Batch := do
  let blocks ← Technology.parseAll codecs document
  batchOfBlocks 1 blocks

def readPaths (codecs : Codecs) (tree : FileTree) (directories : List (List Char)) : Traced Fault Batch := do
  let batches ← directories.mapM (readOrReject codecs tree)
  pure batches.flatten

def takeRead (r : Registry) (batch : Traced Fault Batch) : Traced Fault (Registry × Report) := batch >>= r.takeIn

theorem result_importAll (r : Registry) (document : String) :
    (r.importAll document).result = (r.takeRead (readDocument r.codecs document)).result := by
  simp only [importAll, takeRead, readDocument, Traced.result_bind, bind_assoc]

theorem result_loadPaths (r : Registry) (tree : FileTree) (directories : List (List Char)) :
    (r.loadPaths tree directories).result = (r.takeRead (readPaths r.codecs tree directories)).result := by
  simp only [loadPaths, takeRead, readPaths, Traced.result_bind, Traced.result_pure, bind_assoc]
  rfl

end Registry

namespace OrderedMap

/-- A technology whose name is a key is refused. -/
def insert (m : OrderedMap) (t : Technology) : Answer × OrderedMap :=
  if m.keys.contains t.name then (.failed (.duplicateName t.name), m) else (.handle ⟨m.issued⟩, m.append t)

/-- The map after a batch that was read, if it could be. -/
def takeRead (m : OrderedMap) (policy : CollisionPolicy) : Except Fault Batch → Answer × OrderedMap
  | .ok batch => (.done, m.takeIn policy batch.technologies)
  | .error fault => (.failed fault, m)

def step (codecs : Codecs) (m : OrderedMap) : Operation → Answer × OrderedMap
  | .create name => m.insert { name }
  | .register t => m.insert t
  | .remove name => (.removed (m.keys.contains name), m.erase name)
  | .clear => (.done, m.clear)
  | .importAll policy document => m.takeRead policy (Registry.readDocument codecs document).result
  | .loadDirectory policy tree directory => m.takeRead policy (Registry.readDirectory codecs tree directory).result
  | .loadPaths policy tree directories => m.takeRead policy (Registry.readPaths codecs tree directories).result
  | .write handle change => (.done, m.modify handle change)

end OrderedMap

/-! ## The simulation -/

namespace Registry

/-- The registry has the codecs, and its repository represents the map. -/
structure Follows (r : Registry) (codecs : Codecs) (m : OrderedMap) : Prop where
  codecs : r.codecs = codecs
  represents : r.repository.Represents m

variable {r : Registry} {codecs : Codecs} {m : OrderedMap}

theorem Follows.stored_register (h : r.Follows codecs m) (t : Technology) :
    (r.stored (r.register t)).1 = (m.insert t).1 ∧ (r.stored (r.register t)).2.Follows codecs (m.insert t).2 := by
  have contains := h.represents.contains_eq t.name
  rw [register, Repository.insert, OrderedMap.insert, contains]
  cases found : m.keys.contains t.name with
  | true => exact ⟨rfl, h⟩
  | false =>
      have new : t.name ∉ m.keys := by simpa using found
      exact ⟨congrArg Answer.handle h.represents.fresh_eq, h.codecs, h.represents.append new⟩

theorem Follows.taken_takeRead (h : r.Follows codecs m) (policy : CollisionPolicy) (batch : Traced Fault Batch) :
    (r.taken ({ r with policy }.takeRead batch).result).1 = (m.takeRead policy batch.result).1 ∧
      (r.taken ({ r with policy }.takeRead batch).result).2.Follows codecs (m.takeRead policy batch.result).2 := by
  rw [takeRead, Traced.result_bind]
  cases batch.result with
  | error fault => exact ⟨rfl, h⟩
  | ok batch => exact ⟨rfl, h.codecs, h.represents.insertAll policy batch.technologies⟩

/-- One step of the registry is one step of the map, with the same answer. -/
theorem Follows.step (h : r.Follows codecs m) {op : Operation} (kept : r.KeepsName op) :
    (r.step op).1 = (m.step codecs op).1 ∧ (r.step op).2.Follows codecs (m.step codecs op).2 := by
  obtain rfl := h.codecs
  cases op with
  | create name => exact h.stored_register { name }
  | register t => exact h.stored_register t
  | remove name =>
      exact ⟨congrArg Answer.removed (h.represents.contains_eq name), h.codecs, h.represents.erase name⟩
  | clear => exact ⟨rfl, h.codecs, h.represents.clear⟩
  | importAll policy document =>
      rw [Registry.step, result_importAll]
      exact h.taken_takeRead policy _
  | loadDirectory policy tree directory =>
      rw [Registry.step, loadDirectory]
      exact h.taken_takeRead policy _
  | loadPaths policy tree directories =>
      rw [Registry.step, result_loadPaths]
      exact h.taken_takeRead policy _
  | write handle change => exact ⟨rfl, h.codecs, h.represents.modify handle kept⟩

theorem Follows.run (h : r.Follows codecs m) {ops : List Operation} (kept : r.KeepsNames ops) :
    (run Registry.step r ops).1 = (run (OrderedMap.step codecs) m ops).1 ∧
      (run Registry.step r ops).2.Follows codecs (run (OrderedMap.step codecs) m ops).2 := by
  induction ops generalizing r m with
  | nil => exact ⟨rfl, h⟩
  | cons op ops ih =>
      obtain ⟨answer, next⟩ := h.step kept.1
      obtain ⟨answers, last⟩ := ih next kept.2
      exact ⟨congrArg₂ List.cons answer answers, last⟩

/-! ## Agreement -/

/-- What can be asked of the registry is answered by the map, whose keys differ. -/
structure Agrees (r : Registry) (m : OrderedMap) : Prop where
  distinct : m.keys.Nodup
  named : ∀ e ∈ m.entries, e.record.name = e.key
  names : r.names = m.keys
  snapshot : r.snapshot = m.entries.map OrderedMap.Entry.record
  lookup : ∀ e ∈ m.entries, r.lookup e.key = some e.handle ∧ r.repository.record e.handle = e.record
  unknown : ∀ name, name ∉ m.keys → r.lookup name = none
  has : ∀ name, r.has name = true ↔ name ∈ m.keys
  size : r.size = m.keys.length

theorem Follows.agrees (h : r.Follows codecs m) : r.Agrees m where
  distinct := h.represents.distinct
  named := h.represents.named
  names := h.represents.names_eq
  snapshot := h.represents.contents_eq
  lookup e he := ⟨h.represents.find?_eq_some he, h.represents.record e he⟩
  unknown _ new := h.represents.find?_eq_none new
  has _ := h.represents.contains_iff
  size := by
    rw [size, Repository.size, h.represents.listed, OrderedMap.keys, List.length_map, List.length_map]

/-- From the empty registry on, after every step of a run in which no write changes a name, the answers are
those of the same run of an ordered map, and the registry agrees with the map. -/
theorem run_agrees (codecs : Codecs) (policy : CollisionPolicy) {ops : List Operation}
    (kept : KeepsNames { codecs, policy } ops) :
    ∀ done, done <+: ops →
      (run step { codecs, policy } done).1 = (run (OrderedMap.step codecs) .empty done).1 ∧
        (run step { codecs, policy } done).2.Agrees (run (OrderedMap.step codecs) .empty done).2 := by
  rintro done ⟨later, rfl⟩
  have start : Follows { codecs, policy } codecs .empty := ⟨rfl, .empty⟩
  obtain ⟨answers, last⟩ := start.run kept.of_append
  exact ⟨answers, last.agrees⟩

theorem run_agrees_cmos :
    let describe (text : String) (t : Technology) : Technology := { t with description := text }
    let ops : List Operation :=
      [.create "cmos", .create "cmos", .register { name := "bipolar" }, .write ⟨0⟩ (describe "old"),
        .importAll .replace "<technologies><technology><name>cmos</name></technology></technologies>",
        .write ⟨0⟩ (describe "gone"), .write ⟨2⟩ (describe "new"), .remove "bipolar", .clear]
    ∀ done, done <+: ops →
      (run step { codecs := .builtin, policy := .reject } done).1 = (run (OrderedMap.step .builtin) .empty done).1 ∧
        (run step { codecs := .builtin, policy := .reject } done).2.Agrees
          (run (OrderedMap.step .builtin) .empty done).2 := by
  intro describe ops
  have kept : KeepsNames { codecs := .builtin, policy := .reject } ops :=
    ⟨trivial, trivial, trivial, rfl, trivial, rfl, rfl, trivial, trivial, trivial⟩
  exact run_agrees .builtin .reject kept

end Registry

end LayoutTech
