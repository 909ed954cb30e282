import Mathlib.Data.List.Nodup
import LayoutTech.Proofs.Registry.Repository

/-!
# Repositories as ordered maps

An ordered map keeps its entries under keys of their own, in the order of insertion, and knows the handle
of each. A repository whose names are the keys represents it, and each operation on the repository is one
on the map.
-/

namespace LayoutTech

namespace OrderedMap

structure Entry where
  key : String
  handle : Handle
  record : Technology

end OrderedMap

/-- Entries in the order of insertion, and the number of handles that were ever handed out. -/
structure OrderedMap where
  entries : List OrderedMap.Entry
  issued : Nat

namespace OrderedMap

/-! ## Operations -/

def empty : OrderedMap := ⟨[], 0⟩

def keys (m : OrderedMap) : List String := m.entries.map Entry.key

/-- The entry that the next handle is for. -/
def next (m : OrderedMap) (t : Technology) : Entry := ⟨t.name, ⟨m.issued⟩, t⟩

@[simp] theorem key_next (m : OrderedMap) (t : Technology) : (m.next t).key = t.name := rfl

def append (m : OrderedMap) (t : Technology) : OrderedMap := ⟨m.entries ++ [m.next t], m.issued + 1⟩

/-- The map with a new entry at the place of the key's. -/
def replace (m : OrderedMap) (t : Technology) : OrderedMap :=
  ⟨m.entries.map fun e => if e.key = t.name then m.next t else e, m.issued + 1⟩

def erase (m : OrderedMap) (key : String) : OrderedMap := { m with entries := m.entries.filter (·.key != key) }

def clear (m : OrderedMap) : OrderedMap := { m with entries := [] }

/-- A write through a handle; nothing happens when no entry has the handle any more. -/
def modify (m : OrderedMap) (h : Handle) (change : Technology → Technology) : OrderedMap :=
  { m with entries := m.entries.map fun e => if e.handle = h then { e with record := change e.record } else e }

/-! ## Batches -/

/-- The first technology of each name. -/
def firsts : List Technology → List Technology
  | [] => []
  | t :: ts => t :: (firsts ts).filter (·.name != t.name)

/-- Entries for technologies, with the handles from a number on. -/
def numbered (issued : Nat) : List Technology → List Entry
  | [] => []
  | t :: ts => ⟨t.name, ⟨issued⟩, t⟩ :: numbered (issued + 1) ts

/-- The new entry of the same key, if there is one. -/
def renewed (new : List Entry) (e : Entry) : Entry := (new.find? (·.key == e.key)).getD e

/-- No entry has the key yet. -/
def isNew (m : OrderedMap) (e : Entry) : Bool := !m.keys.contains e.key

/-- The map with technologies of different names: one whose name is a key takes the place of the key's entry,
and the others follow in order. -/
def store (m : OrderedMap) (ts : List Technology) : OrderedMap where
  entries :=
    m.entries.map (renewed (numbered m.issued ts)) ++ (numbered m.issued ts).filter m.isNew
  issued := m.issued + ts.length

/-- The policy lets the technology in. -/
def accepts (m : OrderedMap) (policy : CollisionPolicy) (t : Technology) : Bool :=
  policy == .replace || !m.keys.contains t.name

/-- The map after a batch, of which the first technology of each name counts. -/
def takeIn (m : OrderedMap) (policy : CollisionPolicy) (batch : List Technology) : OrderedMap :=
  m.store ((firsts batch).filter (m.accepts policy))

variable {m : OrderedMap} {t : Technology} {ts : List Technology}

/-- The first technology of each name that was not seen before. -/
def unseen (seen : List String) (ts : List Technology) : List Technology :=
  (firsts ts).filter (!seen.contains ·.name)

theorem unseen_nil (ts : List Technology) : unseen [] ts = firsts ts := List.filter_eq_self.2 fun _ _ => rfl

theorem filter_firsts (seen : List String) (t : Technology) (ts : List Technology) :
    ((firsts ts).filter (·.name != t.name)).filter (!seen.contains ·.name) = unseen (t.name :: seen) ts := by
  rw [List.filter_filter, unseen]
  apply List.filter_congr
  intro u _
  rw [List.contains_cons, Bool.not_or, Bool.and_comm]
  rfl

theorem unseen_cons_seen {seen : List String} (h : seen.contains t.name) :
    unseen seen (t :: ts) = unseen (t.name :: seen) ts := by
  have refused : ¬(!seen.contains t.name) = true := by simpa using h
  rw [unseen, firsts, List.filter_cons, if_neg refused, filter_firsts]

theorem unseen_cons_new {seen : List String} (h : ¬seen.contains t.name) :
    unseen seen (t :: ts) = t :: unseen (t.name :: seen) ts := by
  have accepted : (!seen.contains t.name) = true := by simpa using h
  rw [unseen, firsts, List.filter_cons, if_pos accepted, filter_firsts]

theorem name_ne_of_mem_unseen {seen : List String} {name : String} {u : Technology} (h : u ∈ unseen (name :: seen) ts) :
    u.name ≠ name := by
  rintro rfl
  simp [unseen] at h

theorem key_mem_numbered {issued : Nat} {e : Entry} (h : e ∈ numbered issued ts) : ∃ t ∈ ts, t.name = e.key := by
  induction ts generalizing issued with
  | nil => cases h
  | cons t ts ih =>
      rcases List.mem_cons.1 h with rfl | h
      · exact ⟨t, List.mem_cons_self, rfl⟩
      · obtain ⟨u, hu, eq⟩ := ih h
        exact ⟨u, List.mem_cons_of_mem _ hu, eq⟩

theorem renewed_numbered {issued : Nat} {e : Entry} (h : ∀ t ∈ ts, t.name ≠ e.key) :
    renewed (numbered issued ts) e = e := by
  have none : (numbered issued ts).find? (·.key == e.key) = none := by
    rw [List.find?_eq_none]
    intro f hf eq
    obtain ⟨t, ht, name⟩ := key_mem_numbered hf
    exact h t ht (name.trans (beq_iff_eq.1 eq))
  rw [renewed, none, Option.getD_none]

theorem renewed_cons (first : Entry) (rest : List Entry) (e : Entry) :
    renewed (first :: rest) e = if e.key = first.key then first else renewed rest e := by
  rw [renewed, List.find?_cons]
  by_cases h : e.key = first.key
  · rw [if_pos h, beq_iff_eq.2 h.symm, Option.getD_some]
  · rw [if_neg h, beq_eq_false_iff_ne.2 (Ne.symm h), renewed]

theorem numbered_cons (m : OrderedMap) (t : Technology) (ts : List Technology) :
    numbered m.issued (t :: ts) = m.next t :: numbered (m.issued + 1) ts :=
  rfl

theorem store_nil (m : OrderedMap) : m.store [] = m := by
  have same : m.entries.map (renewed []) = m.entries := List.map_id m.entries
  rw [store, numbered, same, List.filter_nil, List.append_nil, List.length_nil, Nat.add_zero]

theorem keys_append (m : OrderedMap) (t : Technology) : (m.append t).keys = m.keys ++ [t.name] := by
  rw [keys, append, List.map_append]
  rfl

theorem keys_replace (m : OrderedMap) (t : Technology) : (m.replace t).keys = m.keys := by
  rw [keys, replace, List.map_map]
  apply List.map_congr_left
  intro e _
  by_cases h : e.key = t.name
  · rw [Function.comp_apply, if_pos h]
    exact h.symm
  · rw [Function.comp_apply, if_neg h]

theorem issued_store_cons (m : OrderedMap) (t : Technology) (ts : List Technology) :
    m.issued + (t :: ts).length = m.issued + 1 + ts.length := by
  rw [List.length_cons, Nat.add_comm ts.length 1, Nat.add_assoc]

theorem keys_modify (m : OrderedMap) (h : Handle) (change : Technology → Technology) :
    (m.modify h change).keys = m.keys := by
  rw [keys, modify, List.map_map]
  apply List.map_congr_left
  intro e _
  by_cases same : e.handle = h
  · rw [Function.comp_apply, if_pos same]
  · rw [Function.comp_apply, if_neg same]

theorem erase_of_notMem {key : String} (h : key ∉ m.keys) : m.erase key = m := by
  have all : m.entries.filter (·.key != key) = m.entries := by
    rw [List.filter_eq_self]
    intro e he
    exact bne_iff_ne.2 fun eq => h (eq ▸ List.mem_map_of_mem he)
  rw [erase, all]

theorem contains_keys_append {key : String} (h : key ≠ t.name) :
    (m.append t).keys.contains key = m.keys.contains key := by
  rw [keys_append, List.contains_append, List.contains_cons, beq_eq_false_iff_ne.2 h, List.contains_nil, Bool.or_false,
    Bool.or_false]

theorem accepts_of_new (h : t.name ∉ m.keys) (policy : CollisionPolicy) : m.accepts policy t := by
  simp [accepts, h]

theorem accepts_replace (m : OrderedMap) (t : Technology) : m.accepts .replace t := rfl

theorem not_accepts_reject (h : t.name ∈ m.keys) : ¬m.accepts .reject t := by
  simp [accepts, h]

theorem accepts_append {u : Technology} (h : u.name ≠ t.name) (policy : CollisionPolicy) :
    (m.append t).accepts policy u = m.accepts policy u := by
  rw [accepts, accepts, contains_keys_append h]

/-- A technology of a new name is appended, and the rest is stored after it. -/
theorem store_cons_new (new : t.name ∉ m.keys) (distinct : ∀ u ∈ ts, u.name ≠ t.name) :
    m.store (t :: ts) = (m.append t).store ts := by
  have old : m.entries.map (renewed (m.next t :: numbered (m.issued + 1) ts)) =
      m.entries.map (renewed (numbered (m.issued + 1) ts)) := by
    apply List.map_congr_left
    intro e he
    have ne : e.key ≠ t.name := fun eq => new (eq ▸ List.mem_map_of_mem he)
    rw [renewed_cons, key_next, if_neg ne]
  -- The rest has no technology of the name, so that it leaves the new entry where it is.
  have kept : renewed (numbered (m.issued + 1) ts) (m.next t) = m.next t := renewed_numbered distinct
  have accepted : m.isNew (m.next t) := by simpa [isNew] using new
  have later : (numbered (m.issued + 1) ts).filter m.isNew = (numbered (m.issued + 1) ts).filter (m.append t).isNew := by
    apply List.filter_congr
    intro e he
    obtain ⟨u, hu, eq⟩ := key_mem_numbered he
    have ne : e.key ≠ t.name := eq ▸ distinct u hu
    rw [isNew, isNew, contains_keys_append ne]
  refine congrArg₂ mk ?_ (issued_store_cons m t ts)
  rw [numbered_cons, old, List.filter_cons_of_pos accepted, later, append, List.map_append, List.map_singleton, kept,
    List.append_assoc]
  rfl

/-- A technology of a key takes the place of its entry, and the rest is stored after it. -/
theorem store_cons_key (found : t.name ∈ m.keys) (distinct : ∀ u ∈ ts, u.name ≠ t.name) :
    m.store (t :: ts) = (m.replace t).store ts := by
  have entries : m.entries.map (renewed (m.next t :: numbered (m.issued + 1) ts)) =
      (m.replace t).entries.map (renewed (numbered (m.issued + 1) ts)) := by
    rw [replace, List.map_map]
    apply List.map_congr_left
    intro e _
    rw [renewed_cons, key_next, Function.comp_apply]
    by_cases h : e.key = t.name
    · have kept : renewed (numbered (m.issued + 1) ts) (m.next t) = m.next t := renewed_numbered distinct
      rw [if_pos h, if_pos h, kept]
    · rw [if_neg h, if_neg h]
  have refused : ¬m.isNew (m.next t) := by simpa [isNew] using found
  have same : (m.replace t).isNew = m.isNew := by
    funext e
    rw [isNew, isNew, keys_replace]
  refine congrArg₂ mk ?_ (issued_store_cons m t ts)
  rw [numbered_cons, entries, List.filter_cons_of_neg refused, ← same]
  rfl

end OrderedMap

end LayoutTech
