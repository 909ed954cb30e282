import LayoutTech.Fault
import LayoutTech.Registry.Policy
import LayoutTech.Technology.Basic

/-!
# Repositories

Records of technologies behind handles. A handle stays with its record for ever; which handles are
listed changes. A name is the current name of a listed record, so that a name can be taken or freed by
writing to a record.
-/

namespace LayoutTech

/-- The number of a record, counted in the order of storing. -/
structure Handle where
  index : Nat
deriving DecidableEq, Repr

structure Repository where
  records : List Technology
  listed : List Handle
  stored : ∀ h ∈ listed, h.index < records.length := by simp
  distinct : listed.Nodup := by simp

namespace Repository

inductive Fault where
  | duplicateName (name : String)
  | notFound (name : String)
deriving DecidableEq, Repr

def Fault.message : Fault → String
  | .duplicateName name => s!"Duplicate technology name: {name}"
  | .notFound name => s!"Entity not found: {name}"

def Fault.toTechnology : Fault → LayoutTech.Fault
  | .duplicateName name => .duplicateName name
  | .notFound name => .notFound name

/-- What became of one technology of a batch. -/
inductive Outcome where
  | inserted
  | replaced
  | duplicate
deriving DecidableEq, Repr

def empty : Repository := { records := [], listed := [] }

instance : Inhabited Repository := ⟨empty⟩

def record (r : Repository) (h : Handle) : Technology := (r.records[h.index]?).getD {}

def nameOf (r : Repository) (h : Handle) : String := (r.record h).name

def names (r : Repository) : List String := r.listed.map r.nameOf

def contents (r : Repository) : List Technology := r.listed.map r.record

def size (r : Repository) : Nat := r.listed.length

def isEmpty (r : Repository) : Bool := r.listed.isEmpty

def find? (r : Repository) (name : String) : Option Handle := r.listed.find? (r.nameOf · == name)

def contains (r : Repository) (name : String) : Bool := (r.find? name).isSome

def fresh (r : Repository) : Handle := ⟨r.records.length⟩

theorem fresh_notMem (r : Repository) : r.fresh ∉ r.listed := fun h =>
  Nat.lt_irrefl _ (r.stored _ h)

def append (r : Repository) (t : Technology) : Repository where
  records := r.records ++ [t]
  listed := r.listed ++ [r.fresh]
  stored h hh := by
    rw [List.length_append]
    rcases List.mem_append.1 hh with hh | hh
    · exact Nat.lt_of_lt_of_le (r.stored h hh) (Nat.le_add_right _ _)
    · rw [List.mem_singleton.1 hh]
      exact Nat.lt_succ_self _
  distinct := List.nodup_append.2
    ⟨r.distinct, by simp, fun a ha b hb eq => r.fresh_notMem (by rw [← List.mem_singleton.1 hb, ← eq]; exact ha)⟩

/-- The listed handles with one handle in place of another. -/
def swap (old new : Handle) (handles : List Handle) : List Handle :=
  handles.map fun h => if h = old then new else h

theorem nodup_swap {old new : Handle} {handles : List Handle} (h : handles.Nodup) (hn : new ∉ handles) :
    (swap old new handles).Nodup := by
  induction handles with
  | nil => simp [swap]
  | cons a as ih =>
    rw [List.nodup_cons] at h
    simp only [List.mem_cons, not_or] at hn
    have mem {x : Handle} (hx : x ∈ swap old new as) : x = new ∨ x ∈ as := by
      obtain ⟨y, hy, rfl⟩ := List.mem_map.1 hx
      by_cases e : y = old <;> simp [e, hy]
    refine List.nodup_cons.2 ⟨fun hx => ?_, ih h.2 hn.2⟩
    by_cases e : a = old
    · simp only [e, if_true] at hx
      obtain ⟨y, hy, eq⟩ := List.mem_map.1 hx
      by_cases ey : y = old
      · exact h.1 (by rw [e, ← ey]; exact hy)
      · rw [if_neg ey] at eq
        exact hn.2 (eq ▸ hy)
    · simp only [e, if_false] at hx
      rcases mem hx with hx | hx
      · exact hn.1 hx.symm
      · exact h.1 hx

/-- Stores the record and lists it in place of a listed handle, whose record stays behind it. -/
def replace (r : Repository) (old : Handle) (t : Technology) : Repository where
  records := r.records ++ [t]
  listed := swap old r.fresh r.listed
  stored h hh := by
    rw [List.length_append]
    obtain ⟨y, hy, rfl⟩ := List.mem_map.1 hh
    by_cases e : y = old
    · rw [if_pos e]
      exact Nat.lt_succ_self _
    · rw [if_neg e]
      exact Nat.lt_of_lt_of_le (r.stored y hy) (Nat.le_add_right _ _)
  distinct := nodup_swap r.distinct r.fresh_notMem

/-- The repository with other handles listed, all of which were. -/
def restrict (r : Repository) (handles : List Handle) (h : handles.Sublist r.listed) : Repository where
  records := r.records
  listed := handles
  stored x hx := r.stored x (h.subset hx)
  distinct := r.distinct.sublist h

/-- Takes the first listed handle of the name away. -/
def erase (r : Repository) (name : String) : Repository :=
  match r.find? name with
  | some h => r.restrict (r.listed.erase h) List.erase_sublist
  | none => r

def clear (r : Repository) : Repository := r.restrict [] (List.nil_sublist _)

/-- Writes to the record behind a handle, listed or not. -/
def modify (r : Repository) (h : Handle) (change : Technology → Technology) : Repository where
  records := r.records.modify h.index change
  listed := r.listed
  stored x hx := by rw [List.length_modify]; exact r.stored x hx
  distinct := r.distinct

def insert (r : Repository) (t : Technology) : Except Fault (Handle × Repository) :=
  if r.contains t.name then .error (.duplicateName t.name) else .ok (r.fresh, r.append t)

/-- What becomes of a record of a batch, if the batch had none of its name before. -/
def place (r : Repository) (policy : CollisionPolicy) (t : Technology) : Outcome × Repository :=
  match r.find? t.name, policy with
  | none, _ => (.inserted, r.append t)
  | some h, .replace => (.replaced, r.replace h t)
  | some _, .reject => (.duplicate, r)

/-- Stores the records of a batch in order; `seen` are the names that the batch had before. -/
def insertAfter (seen : List String) (r : Repository) (policy : CollisionPolicy) :
    List Technology → List (String × Outcome) × Repository
  | [] => ([], r)
  | t :: ts =>
    let (outcome, next) := if seen.contains t.name then (.duplicate, r) else r.place policy t
    let (outcomes, last) := insertAfter (t.name :: seen) next policy ts
    ((t.name, outcome) :: outcomes, last)

/-- Stores the records of a batch in order. Of the records of one name the first counts; a name that is
taken is treated as the policy says. -/
def insertAll (r : Repository) (policy : CollisionPolicy) (ts : List Technology) :
    List (String × Outcome) × Repository :=
  insertAfter [] r policy ts

end Repository

end LayoutTech
