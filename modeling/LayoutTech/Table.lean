/-!
# Tables

A table from texts to values, kept in the order of its keys, which is the order of their code points.
A table is determined by what its keys find.
-/

namespace LayoutTech

/-- Keys and values in strictly increasing order of the keys. -/
structure Table (α : Type) where
  entries : List (String × α)
  sorted : entries.Pairwise fun a b => a.1 < b.1 := by simp

namespace Table

variable {α : Type}

instance [DecidableEq α] : DecidableEq (Table α) := fun s t =>
  decidable_of_iff (s.entries = t.entries) ⟨fun h => by cases s; cases t; cases h; rfl, fun h => h ▸ rfl⟩

instance [BEq α] : BEq (Table α) := ⟨fun s t => s.entries == t.entries⟩

def empty : Table α := ⟨[], .nil⟩

instance : Inhabited (Table α) := ⟨empty⟩

def isEmpty (t : Table α) : Bool := t.entries.isEmpty

def keys (t : Table α) : List String := t.entries.map Prod.fst

def values (t : Table α) : List α := t.entries.map Prod.snd

def find? (key : String) : List (String × α) → Option α
  | [] => none
  | (k, v) :: rest => if k = key then some v else find? key rest

def get? (t : Table α) (key : String) : Option α := find? key t.entries

def contains (t : Table α) (key : String) : Bool := (t.get? key).isSome

def put (key : String) (value : α) : List (String × α) → List (String × α)
  | [] => [(key, value)]
  | (k, v) :: rest =>
    if key < k then (key, value) :: (k, v) :: rest
    else if k = key then (key, value) :: rest
    else (k, v) :: put key value rest

theorem mem_put {key : String} {value : α} {es : List (String × α)} {e : String × α}
    (h : e ∈ put key value es) : e = (key, value) ∨ e ∈ es := by
  induction es with
  | nil => simpa [put] using h
  | cons x rest ih =>
    obtain ⟨k, v⟩ := x
    simp only [put] at h
    split at h
    · simpa using h
    · split at h
      · simp only [List.mem_cons] at h ⊢
        exact h.imp id Or.inr
      · simp only [List.mem_cons] at h ⊢
        rcases h with h | h
        · exact .inr (.inl h)
        · exact (ih h).imp id Or.inr

theorem sorted_put {key : String} {value : α} {es : List (String × α)}
    (h : es.Pairwise fun a b => a.1 < b.1) : (put key value es).Pairwise fun a b => a.1 < b.1 := by
  induction es with
  | nil => simp [put]
  | cons x rest ih =>
    obtain ⟨k, v⟩ := x
    rw [List.pairwise_cons] at h
    simp only [put]
    split
    · next lt =>
      refine List.pairwise_cons.2 ⟨fun b hb => ?_, List.pairwise_cons.2 h⟩
      rcases List.mem_cons.1 hb with rfl | hb
      · exact lt
      · exact String.lt_trans lt (h.1 b hb)
    · next ge =>
      split
      · next eq =>
        subst eq
        exact List.pairwise_cons.2 h
      · next ne =>
        refine List.pairwise_cons.2 ⟨fun b hb => ?_, ih h.2⟩
        rcases mem_put hb with rfl | hb
        · exact Decidable.byContradiction fun n => ne (String.le_antisymm (String.not_lt.1 ge) (String.not_lt.1 n))
        · exact h.1 b hb

def insert (t : Table α) (key : String) (value : α) : Table α :=
  ⟨put key value t.entries, sorted_put t.sorted⟩

theorem isEmpty_put (key : String) (value : α) (es : List (String × α)) : (put key value es).isEmpty = false := by
  cases es with
  | nil => rfl
  | cons e rest =>
    simp only [put]
    split
    · rfl
    · split <;> rfl

theorem isEmpty_insert (t : Table α) (key : String) (value : α) : (t.insert key value).isEmpty = false :=
  isEmpty_put key value t.entries

def erase (t : Table α) (key : String) : Table α :=
  ⟨t.entries.filter (·.1 != key), t.sorted.filter _⟩

/-- The table with the value of a key changed where it stands. -/
def modify (t : Table α) (key : String) (change : α → α) : Table α :=
  ⟨t.entries.map fun e => (e.1, if e.1 = key then change e.2 else e.2), List.pairwise_map.2 t.sorted⟩

/-- The table of the pairs, the last value of a key winning. -/
def ofList (pairs : List (String × α)) : Table α := pairs.foldl (fun t (k, v) => t.insert k v) empty

@[simp] theorem get?_empty (key : String) : (empty : Table α).get? key = none := rfl

theorem find?_put (key other : String) (value : α) (es : List (String × α)) :
    find? other (put key value es) = if key = other then some value else find? other es := by
  induction es with
  | nil => simp [put, find?]
  | cons x rest ih =>
    obtain ⟨k, v⟩ := x
    simp only [put]
    split
    · simp only [find?]
    · split
      · next eq =>
        subst eq
        simp only [find?]
        split <;> rfl
      · next ne =>
        simp only [find?, ih]
        split
        · next eq => rw [if_neg (fun h => ne (eq.trans h.symm))]
        · rfl

theorem find?_filter_ne (key other : String) (es : List (String × α)) :
    find? other (es.filter (·.1 != key)) = if key = other then none else find? other es := by
  induction es with
  | nil => simp [find?]
  | cons x rest ih => grind [find?]

theorem get?_insert (t : Table α) (key other : String) (value : α) :
    (t.insert key value).get? other = if key = other then some value else t.get? other :=
  find?_put key other value t.entries

theorem get?_erase (t : Table α) (key other : String) :
    (t.erase key).get? other = if key = other then none else t.get? other :=
  find?_filter_ne key other t.entries

end Table

end LayoutTech
