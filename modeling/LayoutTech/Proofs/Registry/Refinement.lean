import LayoutTech.Proofs.Registry.OrderedMap

/-!
# Repositories represent ordered maps

Each operation on a repository is the operation of the same name on the map that it represents. That the
keys differ is what makes a search among the current names find the entry of a key.
-/

namespace LayoutTech.Repository

/-- The listed handles are those of the entries, in order; behind each is its entry's record, and the records
have the keys as names. -/
structure Represents (r : Repository) (m : OrderedMap) : Prop where
  listed : r.listed = m.entries.map OrderedMap.Entry.handle
  issued : r.records.length = m.issued
  record : ∀ e ∈ m.entries, r.record e.handle = e.record
  named : ∀ e ∈ m.entries, e.record.name = e.key
  distinct : m.keys.Nodup

variable {r : Repository} {m : OrderedMap} {t : Technology}

namespace Represents

theorem empty : Represents .empty .empty where
  listed := rfl
  issued := rfl
  record _ he := nomatch he
  named _ he := nomatch he
  distinct := .nil

/-! ## What is found -/

theorem stored (h : r.Represents m) {e : OrderedMap.Entry} (he : e ∈ m.entries) : e.handle.index < r.records.length :=
  r.stored _ (h.listed ▸ List.mem_map_of_mem he)

theorem fresh_eq (h : r.Represents m) : r.fresh = ⟨m.issued⟩ := congrArg Handle.mk h.issued

theorem nameOf_eq (h : r.Represents m) {e : OrderedMap.Entry} (he : e ∈ m.entries) : r.nameOf e.handle = e.key := by
  rw [nameOf, h.record e he, h.named e he]

theorem names_eq (h : r.Represents m) : r.names = m.keys := by
  rw [names, h.listed, List.map_map]
  exact List.map_congr_left fun e he => h.nameOf_eq he

theorem contents_eq (h : r.Represents m) : r.contents = m.entries.map OrderedMap.Entry.record := by
  rw [contents, h.listed, List.map_map]
  exact List.map_congr_left fun e he => h.record e he

/-- Of two entries, handles and keys tell the same. -/
theorem handle_eq_iff (h : r.Represents m) {e f : OrderedMap.Entry} (he : e ∈ m.entries) (hf : f ∈ m.entries) :
    e.handle = f.handle ↔ e.key = f.key := by
  have handles : (m.entries.map OrderedMap.Entry.handle).Nodup := h.listed ▸ r.distinct
  constructor
  · intro eq
    rw [List.inj_on_of_nodup_map handles he hf eq]
  · intro eq
    rw [List.inj_on_of_nodup_map h.distinct he hf eq]

theorem find?_eq_none (h : r.Represents m) {name : String} (new : name ∉ m.keys) : r.find? name = none := by
  rw [find?_eq_none_iff, h.names_eq]
  exact new

theorem find?_eq_some (h : r.Represents m) {e : OrderedMap.Entry} (he : e ∈ m.entries) :
    r.find? e.key = some e.handle := by
  cases found : r.find? e.key with
  | none =>
      rw [find?_eq_none_iff, h.names_eq] at found
      exact absurd (List.mem_map_of_mem he) found
  | some handle =>
      have listed := List.mem_of_find?_eq_some found
      rw [h.listed] at listed
      obtain ⟨f, hf, rfl⟩ := List.mem_map.1 listed
      have holds := List.find?_some found
      have name : r.nameOf f.handle = e.key := eq_of_beq holds
      rw [h.nameOf_eq hf] at name
      rw [(h.handle_eq_iff hf he).2 name]

theorem contains_iff (h : r.Represents m) {name : String} : r.contains name = true ↔ name ∈ m.keys := by
  rw [contains_iff_mem, h.names_eq]

theorem contains_eq (h : r.Represents m) (name : String) : r.contains name = m.keys.contains name := by
  rw [Bool.eq_iff_iff, h.contains_iff, List.contains_iff_mem]

/-! ## Operations -/

theorem append (h : r.Represents m) (new : t.name ∉ m.keys) : (r.append t).Represents (m.append t) where
  listed := by
    have listed : (r.append t).listed = r.listed ++ [r.fresh] := rfl
    rw [listed, h.listed, h.fresh_eq, OrderedMap.append, List.map_append]
    rfl
  issued := by
    have records : (r.append t).records = r.records ++ [t] := rfl
    rw [records, List.length_append, h.issued]
    rfl
  record := by
    rw [OrderedMap.append, List.forall_mem_append]
    refine ⟨fun e he => (record_append (h.stored he) t).trans (h.record e he), ?_⟩
    intro e he
    obtain rfl := List.mem_singleton.1 he
    have handle : (m.next t).handle = r.fresh := h.fresh_eq.symm
    rw [handle, record_append_fresh]
    rfl
  named := by
    rw [OrderedMap.append, List.forall_mem_append]
    refine ⟨h.named, ?_⟩
    intro e he
    obtain rfl := List.mem_singleton.1 he
    rfl
  distinct := by
    rw [OrderedMap.keys_append]
    exact List.nodup_append.2 ⟨h.distinct, List.nodup_singleton _, fun a ha b hb eq =>
      new (by rwa [← List.mem_singleton.1 hb, ← eq])⟩

theorem replace (h : r.Represents m) {old : OrderedMap.Entry} (ho : old ∈ m.entries) (key : old.key = t.name) :
    (r.replace old.handle t).Represents (m.replace t) where
  listed := by
    have listed : (r.replace old.handle t).listed = swap old.handle r.fresh r.listed := rfl
    rw [listed, h.listed, h.fresh_eq, OrderedMap.replace, swap, List.map_map, List.map_map]
    apply List.map_congr_left
    intro e he
    by_cases same : e.key = t.name
    · rw [Function.comp_apply, Function.comp_apply, if_pos ((h.handle_eq_iff he ho).2 (same.trans key.symm)), if_pos same]
      rfl
    · rw [Function.comp_apply, Function.comp_apply, if_neg fun eq => same (((h.handle_eq_iff he ho).1 eq).trans key),
        if_neg same]
  issued := by
    have records : (r.replace old.handle t).records = r.records ++ [t] := rfl
    rw [records, List.length_append, h.issued]
    rfl
  record := by
    rw [OrderedMap.replace, List.forall_mem_map]
    intro e he
    by_cases same : e.key = t.name
    · have handle : (m.next t).handle = r.fresh := h.fresh_eq.symm
      rw [if_pos same, handle, record_replace_fresh]
      rfl
    · rw [if_neg same, record_replace (h.stored he), h.record e he]
  named := by
    rw [OrderedMap.replace, List.forall_mem_map]
    intro e he
    by_cases same : e.key = t.name
    · rw [if_pos same]
      rfl
    · rw [if_neg same, h.named e he]
  distinct := by
    rw [OrderedMap.keys_replace]
    exact h.distinct

theorem erase (h : r.Represents m) (name : String) : (r.erase name).Represents (m.erase name) := by
  by_cases found : name ∈ m.keys
  · obtain ⟨old, ho, rfl⟩ := List.mem_map.1 found
    have listed : r.listed.erase old.handle =
        (m.entries.filter (·.key != old.key)).map OrderedMap.Entry.handle := by
      rw [r.distinct.erase_eq_filter, h.listed, List.filter_map]
      congr 1
      apply List.filter_congr
      intro e he
      rw [Function.comp_apply, bne, bne, Bool.eq_iff_iff, Bool.not_eq_true', Bool.not_eq_true', beq_eq_false_iff_ne,
        beq_eq_false_iff_ne, ne_eq, ne_eq, h.handle_eq_iff he ho]
    unfold Repository.erase
    rw [h.find?_eq_some ho]
    exact
      { listed
        issued := h.issued
        record := fun e he => h.record e (List.mem_of_mem_filter he)
        named := fun e he => h.named e (List.mem_of_mem_filter he)
        distinct := h.distinct.sublist (List.filter_sublist.map _) }
  · unfold Repository.erase
    rw [h.find?_eq_none found, OrderedMap.erase_of_notMem found]
    exact h

theorem clear (h : r.Represents m) : r.clear.Represents m.clear where
  listed := rfl
  issued := h.issued
  record _ he := nomatch he
  named _ he := nomatch he
  distinct := .nil

theorem modify (h : r.Represents m) (handle : Handle) {change : Technology → Technology}
    (kept : (change (r.record handle)).name = r.nameOf handle) :
    (r.modify handle change).Represents (m.modify handle change) where
  listed := by
    have listed : (r.modify handle change).listed = r.listed := rfl
    rw [listed, h.listed, OrderedMap.modify, List.map_map]
    apply List.map_congr_left
    intro e _
    by_cases same : e.handle = handle
    · rw [Function.comp_apply, if_pos same]
    · rw [Function.comp_apply, if_neg same]
  issued := by
    have records : (r.modify handle change).records.length = r.records.length := List.length_modify _ _ _
    rw [records, h.issued]
    rfl
  record := by
    rw [OrderedMap.modify, List.forall_mem_map]
    intro e he
    by_cases same : e.handle = handle
    · rw [if_pos same, record_modify (h.stored he), if_pos same, h.record e he]
    · rw [if_neg same, record_modify (h.stored he), if_neg same, h.record e he]
  named := by
    rw [OrderedMap.modify, List.forall_mem_map]
    intro e he
    by_cases same : e.handle = handle
    · rw [← same, h.record e he, h.nameOf_eq he] at kept
      rw [if_pos same]
      exact kept
    · rw [if_neg same, h.named e he]
  distinct := by
    rw [OrderedMap.keys_modify]
    exact h.distinct

/-! ## Batches -/

/-- Of a batch only the first technology of a name that was not seen before counts. -/
theorem insertAfter (h : r.Represents m) (policy : CollisionPolicy) (seen : List String) (ts : List Technology) :
    (insertAfter seen r policy ts).2.Represents (m.store ((OrderedMap.unseen seen ts).filter (m.accepts policy))) := by
  -- What is stored changes what the policy accepts later on, but only for its own name, which is seen by then.
  induction ts generalizing seen r m with
  | nil => exact m.store_nil.symm ▸ h
  | cons t ts ih =>
      by_cases known : seen.contains t.name
      · rw [insertAfter_seen known, OrderedMap.unseen_cons_seen known]
        exact ih h (t.name :: seen)
      have others : ∀ u ∈ OrderedMap.unseen (t.name :: seen) ts, u.name ≠ t.name := fun u hu =>
        OrderedMap.name_ne_of_mem_unseen hu
      have stored : ∀ u ∈ (OrderedMap.unseen (t.name :: seen) ts).filter (m.accepts policy), u.name ≠ t.name :=
        fun u hu => others u (List.mem_of_mem_filter hu)
      rw [insertAfter_unseen known, OrderedMap.unseen_cons_new known]
      by_cases found : t.name ∈ m.keys
      · obtain ⟨old, ho, key⟩ := List.mem_map.1 found
        have handle := h.find?_eq_some ho
        rw [key] at handle
        cases policy with
        | reject =>
            rw [place_reject handle, List.filter_cons_of_neg (OrderedMap.not_accepts_reject found)]
            exact ih h (t.name :: seen)
        | replace =>
            rw [place_replace handle, List.filter_cons_of_pos (m.accepts_replace t),
              OrderedMap.store_cons_key found stored]
            exact ih (h.replace ho key) (t.name :: seen)
      · have same : (OrderedMap.unseen (t.name :: seen) ts).filter (m.accepts policy) =
            (OrderedMap.unseen (t.name :: seen) ts).filter ((m.append t).accepts policy) :=
          List.filter_congr fun u hu => (OrderedMap.accepts_append (others u hu) policy).symm
        rw [place_new (h.find?_eq_none found), List.filter_cons_of_pos (OrderedMap.accepts_of_new found policy),
          OrderedMap.store_cons_new found stored, same]
        exact ih (h.append found) (t.name :: seen)

theorem insertAll (h : r.Represents m) (policy : CollisionPolicy) (batch : List Technology) :
    (r.insertAll policy batch).2.Represents (m.takeIn policy batch) := by
  have taken := h.insertAfter policy [] batch
  rw [OrderedMap.unseen_nil] at taken
  exact taken

end Represents

end LayoutTech.Repository
