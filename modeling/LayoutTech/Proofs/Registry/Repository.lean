import LayoutTech.Registry.Repository

/-!
# Records and handles

Storing a record leaves the records behind earlier handles as they are, and writing through a handle
changes no other record. A batch of names that are all new is appended in order.
-/

namespace LayoutTech.Repository

variable {r : Repository} {h k : Handle} {t : Technology}

/-! ## Records -/

theorem record_append (stored : h.index < r.records.length) (t : Technology) : (r.append t).record h = r.record h := by
  simp only [record, append, List.getElem?_append_left stored]

theorem record_append_fresh (r : Repository) (t : Technology) : (r.append t).record r.fresh = t := by
  simp only [record, append, fresh, List.getElem?_concat_length, Option.getD_some]

theorem record_replace (stored : h.index < r.records.length) (old : Handle) (t : Technology) :
    (r.replace old t).record h = r.record h := by
  simp only [record, replace, List.getElem?_append_left stored]

theorem record_replace_fresh (r : Repository) (old : Handle) (t : Technology) :
    (r.replace old t).record r.fresh = t := by
  simp only [record, replace, fresh, List.getElem?_concat_length, Option.getD_some]

theorem record_modify (stored : k.index < r.records.length) (h : Handle) (change : Technology → Technology) :
    (r.modify h change).record k = if k = h then change (r.record k) else r.record k := by
  have same : h.index = k.index ↔ k = h := by
    cases h
    cases k
    rw [Handle.mk.injEq, eq_comm]
  simp only [record, modify, List.getElem?_modify, List.getElem?_eq_getElem stored, Option.map_eq_map, Option.map_some,
    Option.getD_some, same]

/-! ## Listed records -/

theorem names_eq (r : Repository) : r.names = r.contents.map Technology.name := by
  rw [names, contents, List.map_map]
  rfl

theorem contents_append (r : Repository) (t : Technology) : (r.append t).contents = r.contents ++ [t] := by
  have earlier : r.listed.map (r.append t).record = r.listed.map r.record :=
    List.map_congr_left fun h hh => record_append (r.stored h hh) t
  have listed : (r.append t).listed = r.listed ++ [r.fresh] := rfl
  rw [contents, listed, List.map_append, earlier, List.map_singleton, record_append_fresh]
  rfl

theorem names_append (r : Repository) (t : Technology) : (r.append t).names = r.names ++ [t.name] := by
  rw [names_eq, contents_append, List.map_append, ← names_eq]
  rfl

theorem find?_eq_none_iff {name : String} : r.find? name = none ↔ name ∉ r.names := by
  simp only [find?, names, List.find?_eq_none, List.mem_map, beq_iff_eq, not_exists, not_and]

theorem contains_iff_mem {name : String} : r.contains name = true ↔ name ∈ r.names := by
  rw [contains, ← Decidable.not_iff_not, Bool.not_eq_true, Option.isSome_eq_false_iff, Option.isNone_iff_eq_none,
    find?_eq_none_iff]

/-! ## Steps of a batch -/

theorem place_new (found : r.find? t.name = none) (policy : CollisionPolicy) :
    r.place policy t = (.inserted, r.append t) := by
  unfold place
  rw [found]

theorem place_replace (found : r.find? t.name = some h) : r.place .replace t = (.replaced, r.replace h t) := by
  unfold place
  rw [found]

theorem place_reject (found : r.find? t.name = some h) : r.place .reject t = (.duplicate, r) := by
  unfold place
  rw [found]

variable {seen : List String} {policy : CollisionPolicy} {ts : List Technology}

theorem insertAfter_seen (h : seen.contains t.name) :
    insertAfter seen r policy (t :: ts) =
      ((t.name, .duplicate) :: (insertAfter (t.name :: seen) r policy ts).1,
        (insertAfter (t.name :: seen) r policy ts).2) := by
  rw [insertAfter, if_pos h]

theorem insertAfter_unseen (h : ¬seen.contains t.name) :
    insertAfter seen r policy (t :: ts) =
      ((t.name, (r.place policy t).1) :: (insertAfter (t.name :: seen) (r.place policy t).2 policy ts).1,
        (insertAfter (t.name :: seen) (r.place policy t).2 policy ts).2) := by
  rw [insertAfter, if_neg h]

/-! ## Batches of new names -/

theorem insertAfter_new (new : ∀ t ∈ ts, t.name ∉ seen ∧ t.name ∉ r.names)
    (distinct : (ts.map Technology.name).Nodup) :
    (insertAfter seen r policy ts).1 = ts.map (fun t => (t.name, .inserted)) ∧
      (insertAfter seen r policy ts).2.contents = r.contents ++ ts := by
  induction ts generalizing seen r with
  | nil => exact ⟨rfl, (List.append_nil _).symm⟩
  | cons t ts ih =>
      rw [List.forall_mem_cons] at new
      rw [List.map_cons, List.nodup_cons] at distinct
      have rest : ∀ u ∈ ts, u.name ∉ t.name :: seen ∧ u.name ∉ (r.append t).names := by
        intro u hu
        have ne : u.name ≠ t.name := fun eq => distinct.1 (eq ▸ List.mem_map_of_mem hu)
        rw [names_append, List.mem_cons, List.mem_append, List.mem_singleton]
        exact ⟨fun h => h.elim ne (new.2 u hu).1, fun h => h.elim (new.2 u hu).2 ne⟩
      have unseen : ¬seen.contains t.name := by simpa using new.1.1
      obtain ⟨outcomes, contents⟩ := ih rest distinct.2
      rw [insertAfter_unseen unseen, place_new (find?_eq_none_iff.2 new.1.2)]
      exact ⟨congrArg _ outcomes, by rw [contents, contents_append, List.append_assoc]; rfl⟩

theorem insertAll_new (policy : CollisionPolicy) (new : ∀ t ∈ ts, t.name ∉ r.names)
    (distinct : (ts.map Technology.name).Nodup) :
    (r.insertAll policy ts).1 = ts.map (fun t => (t.name, .inserted)) ∧
      (r.insertAll policy ts).2.contents = r.contents ++ ts :=
  insertAfter_new (fun t ht => ⟨List.not_mem_nil, new t ht⟩) distinct

end LayoutTech.Repository
