import Mathlib.Data.List.Dedup
import LayoutTech.Table

/-!
# Finding in tables

A table is determined by what its keys find. Writing the entries of a table in order builds the table
again.
-/

namespace LayoutTech.Table

variable {α : Type} {s t : Table α}

@[ext]
theorem ext_entries (h : s.entries = t.entries) : s = t := by
  cases s
  cases t
  cases h
  rfl

/-! ## What a key finds -/

theorem mem_of_find? {key : String} {value : α} {es : List (String × α)} (h : find? key es = some value) :
    (key, value) ∈ es := by
  induction es with
  | nil => cases h
  | cons e rest ih =>
      obtain ⟨k, v⟩ := e
      simp only [find?] at h
      split at h
      · next eq =>
          cases eq
          cases h
          exact List.mem_cons_self
      · exact List.mem_cons_of_mem _ (ih h)

theorem find?_of_mem {key : String} {value : α} {es : List (String × α)}
    (sorted : es.Pairwise fun a b => a.1 < b.1) (h : (key, value) ∈ es) : find? key es = some value := by
  induction es with
  | nil => cases h
  | cons e rest ih =>
      obtain ⟨k, v⟩ := e
      rw [List.pairwise_cons] at sorted
      rcases List.mem_cons.1 h with eq | later
      · cases eq
        exact if_pos rfl
      · have ne : k ≠ key := fun eq => String.lt_irrefl key (eq ▸ sorted.1 _ later)
        rw [find?, if_neg ne]
        exact ih sorted.2 later

theorem get?_eq_some_iff {key : String} {value : α} : t.get? key = some value ↔ (key, value) ∈ t.entries :=
  ⟨mem_of_find?, find?_of_mem t.sorted⟩

theorem get?_eq_none_iff {key : String} : t.get? key = none ↔ ∀ e ∈ t.entries, e.1 ≠ key := by
  constructor
  · rintro h ⟨k, v⟩ he rfl
    rw [get?_eq_some_iff.2 he] at h
    cases h
  · intro h
    cases found : t.get? key with
    | none => rfl
    | some value => exact absurd rfl (h _ (get?_eq_some_iff.1 found))

theorem contains_eq_false {key : String} (h : ∀ e ∈ t.entries, e.1 ≠ key) : t.contains key = false := by
  rw [contains, get?_eq_none_iff.2 h]
  rfl

theorem contains_insert_iff {key other : String} {value : α} :
    (t.insert key value).contains other = true ↔ key = other ∨ t.contains other = true := by
  rw [contains, get?_insert]
  by_cases same : key = other
  · simp [same]
  · simp [same, contains]

theorem mem_keys_iff {key : String} : key ∈ t.keys ↔ t.contains key = true := by
  rw [contains, Option.isSome_iff_exists, keys, List.mem_map]
  constructor
  · rintro ⟨⟨_, value⟩, mem, rfl⟩
    exact ⟨value, get?_eq_some_iff.2 mem⟩
  · rintro ⟨value, found⟩
    exact ⟨_, get?_eq_some_iff.1 found, rfl⟩

theorem nodup_keys (t : Table α) : t.keys.Nodup := by
  apply List.pairwise_map.2 (t.sorted.imp _)
  intro a b lt eq
  exact String.lt_irrefl _ (eq ▸ lt)

theorem nodup_entries (t : Table α) : t.entries.Nodup := t.nodup_keys.of_map _

theorem ext_get? (h : ∀ key, s.get? key = t.get? key) : s = t := by
  have members : s.entries.Perm t.entries := by
    rw [List.perm_ext_iff_of_nodup s.nodup_entries t.nodup_entries]
    rintro ⟨key, value⟩
    rw [← get?_eq_some_iff, ← get?_eq_some_iff, h]
  exact ext_entries (members.eq_of_pairwise (fun a b _ _ lt gt => absurd gt (String.lt_asymm lt)) s.sorted t.sorted)

theorem insert_insert (t : Table α) (key : String) (value other : α) :
    (t.insert key value).insert key other = t.insert key other := by
  apply ext_get?
  intro k
  simp only [get?_insert]
  split <;> rfl

/-! ## Building a table -/

theorem put_last {key : String} {value : α} {es : List (String × α)} (below : ∀ e ∈ es, e.1 < key) :
    put key value es = es ++ [(key, value)] := by
  induction es with
  | nil => rfl
  | cons e rest ih =>
      obtain ⟨k, v⟩ := e
      rw [List.forall_mem_cons] at below
      have ne : k ≠ key := fun eq => String.lt_irrefl key (eq ▸ below.1)
      rw [put, if_neg (String.lt_asymm below.1), if_neg ne, ih below.2]
      rfl

theorem entries_insert_last {key : String} {value : α} (below : ∀ e ∈ t.entries, e.1 < key) :
    (t.insert key value).entries = t.entries ++ [(key, value)] :=
  put_last below

theorem entries_foldl_insert {es : List (String × α)} (sorted : (t.entries ++ es).Pairwise fun a b => a.1 < b.1) :
    (es.foldl (fun t (k, v) => t.insert k v) t).entries = t.entries ++ es := by
  induction es generalizing t with
  | nil => exact (List.append_nil _).symm
  | cons e rest ih =>
      have below := (List.pairwise_append.1 sorted).2.2
      have next : (t.insert e.1 e.2).entries = t.entries ++ [e] :=
        entries_insert_last fun a ha => below a ha e List.mem_cons_self
      rw [List.foldl_cons, ih (by rwa [next, List.append_assoc]), next, List.append_assoc]
      rfl

theorem contains_foldl_insert {key : String} {es : List (String × α)} :
    (es.foldl (fun t (k, v) => t.insert k v) t).contains key = true ↔
      t.contains key = true ∨ key ∈ es.map Prod.fst := by
  induction es generalizing t with
  | nil => simp
  | cons e rest ih =>
      rw [List.foldl_cons, ih, contains_insert_iff, List.map_cons, List.mem_cons, eq_comm, or_assoc, or_left_comm]

theorem perm_keys_ofList (es : List (String × α)) : (ofList es).keys.Perm (es.map Prod.fst).dedup := by
  rw [List.perm_ext_iff_of_nodup (nodup_keys _) (List.nodup_dedup _)]
  intro key
  rw [mem_keys_iff, ofList, contains_foldl_insert, List.mem_dedup]
  exact or_iff_right Bool.false_ne_true

/-- No pair takes the place of another exactly when the keys are all different. -/
theorem length_ofList_eq_iff {es : List (String × α)} :
    (ofList es).entries.length = es.length ↔ (es.map Prod.fst).Nodup := by
  have length : (ofList es).entries.length = (es.map Prod.fst).dedup.length := by
    rw [← (perm_keys_ofList es).length_eq, keys, List.length_map]
  rw [length, ← List.length_map Prod.fst, (List.dedup_sublist _).length_eq, List.dedup_eq_self]

theorem ofList_entries (t : Table α) : ofList t.entries = t :=
  ext_entries (entries_foldl_insert t.sorted)

/-! ## Changing all values -/

def mapValues {β : Type} (f : α → β) (t : Table α) : Table β :=
  ⟨t.entries.map fun e => (e.1, f e.2), List.pairwise_map.2 t.sorted⟩

@[simp] theorem entries_mapValues {β : Type} (f : α → β) (t : Table α) :
    (t.mapValues f).entries = t.entries.map fun e => (e.1, f e.2) :=
  rfl

theorem get?_mapValues {β : Type} {f : α → β} {key : String} {value : α} (h : t.get? key = some value) :
    (t.mapValues f).get? key = some (f value) :=
  get?_eq_some_iff.2 (List.mem_map_of_mem (f := fun e => (e.1, f e.2)) (get?_eq_some_iff.1 h))

end LayoutTech.Table
