import LayoutTech.Proofs.Registry.Batches
import LayoutTech.Proofs.Registry.OrderedMap

/-!
# Batches that replace

The repository after a batch that replaces taken names, entry by entry, whatever names the entries had before.
The search for a new name never finds what the batch itself has stored, so that the first record of each name
decides alone.
-/

namespace LayoutTech

/-! ## Entries for the first records -/

namespace OrderedMap

variable {t : Technology} {ts : List Technology} {e : Entry} {issued : Nat}

theorem mem_firsts_iff : t ∈ firsts ts ↔ ts.find? (·.name == t.name) = some t := by
  induction ts with
  | nil => simp [firsts]
  | cons u us ih =>
      rw [firsts, List.mem_cons, List.mem_filter, ih, List.find?_cons]
      by_cases same : u.name = t.name
      · simp [same, eq_comm]
      · have other : t ≠ u := fun eq => same (congrArg Technology.name eq.symm)
        rw [beq_eq_false_iff_ne.2 same, or_iff_right other]
        exact and_iff_left (bne_iff_ne.2 (Ne.symm same))

theorem nodup_names_firsts (ts : List Technology) : ((firsts ts).map Technology.name).Nodup := by
  induction ts with
  | nil => exact .nil
  | cons t ts ih =>
      rw [firsts, List.map_cons, List.nodup_cons]
      refine ⟨?_, ih.sublist (List.filter_sublist.map _)⟩
      rintro mem
      obtain ⟨u, hu, eq⟩ := List.mem_map.1 mem
      exact bne_iff_ne.1 (List.mem_filter.1 hu).2 eq

/-- The entries have the handles from the number on, in order, each with its record. -/
theorem numbered_spec (h : e ∈ numbered issued ts) :
    issued ≤ e.handle.index ∧ ts[e.handle.index - issued]? = some e.record ∧ e.key = e.record.name := by
  induction ts generalizing issued with
  | nil => cases h
  | cons t ts ih =>
      rcases List.mem_cons.1 h with rfl | later
      · exact ⟨Nat.le_refl _, by rw [Nat.sub_self]; rfl, rfl⟩
      · obtain ⟨le, record, key⟩ := ih later
        have place : e.handle.index - issued = e.handle.index - (issued + 1) + 1 := by omega
        exact ⟨by omega, by rw [place]; exact record, key⟩

theorem exists_numbered (issued : Nat) (h : t ∈ ts) : ∃ e ∈ numbered issued ts, e.record = t ∧ e.key = t.name := by
  induction ts generalizing issued with
  | nil => cases h
  | cons u us ih =>
      rcases List.mem_cons.1 h with rfl | later
      · exact ⟨_, List.mem_cons_self, rfl, rfl⟩
      · obtain ⟨e, mem, same⟩ := ih (issued + 1) later
        exact ⟨e, List.mem_cons_of_mem _ mem, same⟩

theorem map_record_numbered (issued : Nat) (ts : List Technology) (p : String → Bool) :
    ((numbered issued ts).filter (p ·.key)).map Entry.record = ts.filter (p ·.name) := by
  induction ts generalizing issued with
  | nil => rfl
  | cons t ts ih =>
      rw [numbered, List.filter_cons, List.filter_cons]
      split
      · exact congrArg (t :: ·) (ih _)
      · exact ih _

end OrderedMap

namespace Repository

open OrderedMap (Entry firsts unseen numbered)

variable {r : Repository} {t : Technology} {ts us : List Technology} {name : String} {names : List String}
  {new : List Entry} {e : Entry} {h k : Handle} {i : Nat}

/-! ## One record -/

/-- The listed entry that a search finds is the first one of the name. -/
theorem listed_idxOf (r : Repository) (name : String) : r.listed[r.names.idxOf name]? = r.find? name := by
  rw [names, List.idxOf, List.findIdx_map, find?, List.find?_eq_getElem?_findIdx]
  rfl

theorem names_getElem? (entry : r.listed[i]? = some h) : r.names[i]? = some (r.nameOf h) := by
  rw [names, List.getElem?_map, entry]
  rfl

theorem eq_nameOf_of_idxOf (entry : r.listed[i]? = some h) (first : r.names.idxOf name = i) : name = r.nameOf h := by
  have place := names_getElem? entry
  obtain ⟨lt, -⟩ := List.getElem?_eq_some_iff.1 place
  have mem : name ∈ r.names := List.idxOf_lt_length_iff.1 (first ▸ lt)
  rw [← first, List.getElem?_idxOf mem] at place
  exact Option.some.inj place

theorem swap_eq_set {old new : Handle} {handles : List Handle} (distinct : handles.Nodup)
    (place : handles[i]? = some old) : swap old new handles = handles.set i new := by
  obtain ⟨lt, rfl⟩ := List.getElem?_eq_some_iff.1 place
  apply List.ext_getElem (by rw [swap, List.length_map, List.length_set])
  intro j hj hj'
  rw [List.length_set] at hj'
  simp only [swap, List.getElem_map, List.getElem_set, distinct.getElem_inj_iff, eq_comm]

/-- The repository with a record that takes the place of the first entry of its name, or comes last. -/
def put (r : Repository) (t : Technology) : Repository := (r.place .replace t).2

theorem put_new (new : t.name ∉ r.names) : r.put t = r.append t := by
  rw [put, place_new (find?_eq_none_iff.2 new)]

theorem exists_put_known (known : t.name ∈ r.names) : ∃ h, r.find? t.name = some h ∧ r.put t = r.replace h t := by
  cases found : r.find? t.name with
  | none => exact absurd known (find?_eq_none_iff.1 found)
  | some h => exact ⟨h, rfl, by rw [put, place_replace found]⟩

theorem records_put (r : Repository) (t : Technology) : (r.put t).records = r.records ++ [t] := by
  by_cases known : t.name ∈ r.names
  · obtain ⟨h, -, eq⟩ := exists_put_known known
    rw [eq]
    rfl
  · rw [put_new known]
    rfl

theorem put_known (known : t.name ∈ r.names) :
    (r.put t).names = r.names ∧ (r.put t).listed = r.listed.set (r.names.idxOf t.name) r.fresh := by
  obtain ⟨h, found, eq⟩ := exists_put_known known
  have place : r.listed[r.names.idxOf t.name]? = some h := (r.listed_idxOf t.name).trans found
  rw [eq]
  exact ⟨names_replace found, swap_eq_set r.distinct place⟩

/-! ## Records of different names -/

def putAll (r : Repository) (ts : List Technology) : Repository := ts.foldl put r

theorem records_putAll (r : Repository) (ts : List Technology) : (r.putAll ts).records = r.records ++ ts := by
  induction ts generalizing r with
  | nil => exact (List.append_nil _).symm
  | cons t ts ih =>
      rw [putAll, List.foldl_cons, ← putAll, ih, records_put, List.append_assoc]
      rfl

/-- The handle at a place among entries of the names, after new entries: that of the one whose name has its first
place there, if there is one. -/
def renewedAt (names : List String) (new : List Entry) (i : Nat) (h : Handle) : Handle :=
  (new.find? (names.idxOf ·.key == i)).elim h Entry.handle

theorem renewedAt_of_none (none : ∀ e ∈ new, names.idxOf e.key ≠ i) : renewedAt names new i h = h := by
  have find : new.find? (names.idxOf ·.key == i) = .none :=
    List.find?_eq_none.2 fun e he eq => none e he (eq_of_beq eq)
  rw [renewedAt, find]
  rfl

theorem renewedAt_cons_here (here : names.idxOf e.key = i) : renewedAt names (e :: new) i h = e.handle := by
  rw [renewedAt, List.find?_cons, beq_iff_eq.2 here]
  rfl

theorem renewedAt_cons_elsewhere (elsewhere : names.idxOf e.key ≠ i) :
    renewedAt names (e :: new) i h = renewedAt names new i h := by
  rw [renewedAt, List.find?_cons, beq_eq_false_iff_ne.2 elsewhere, renewedAt]

theorem renewedAt_cases (names : List String) (new : List Entry) (i : Nat) (h : Handle) :
    (∃ e ∈ new, names.idxOf e.key = i ∧ renewedAt names new i h = e.handle) ∨
      (∀ e ∈ new, names.idxOf e.key ≠ i) ∧ renewedAt names new i h = h := by
  rw [renewedAt]
  cases found : new.find? (names.idxOf ·.key == i) with
  | none => exact .inr ⟨fun e he eq => List.find?_eq_none.1 found e he (beq_iff_eq.2 eq), rfl⟩
  | some e =>
      have place := List.find?_some found
      exact .inl ⟨e, List.mem_of_find?_eq_some found, eq_of_beq place, rfl⟩

theorem mapIdx_renewedAt_nil (names : List String) (handles : List Handle) :
    handles.mapIdx (renewedAt names []) = handles := by
  apply List.ext_getElem (List.length_mapIdx ..)
  intro i _ _
  rw [List.getElem_mapIdx]
  exact renewedAt_of_none (List.forall_mem_nil _)

/-- A new entry of a name that is there is put at the first place of the name. -/
theorem mapIdx_renewedAt_known (known : e.key ∈ names) (others : ∀ f ∈ new, f.key ≠ e.key) (handles : List Handle) :
    (handles.set (names.idxOf e.key) e.handle).mapIdx (renewedAt names new) =
      handles.mapIdx (renewedAt names (e :: new)) := by
  apply List.ext_getElem (by simp)
  intro i _ _
  rw [List.getElem_mapIdx, List.getElem_mapIdx, List.getElem_set]
  by_cases place : names.idxOf e.key = i
  · -- No later entry has the name, so that this one stays where it was put.
    have none : ∀ f ∈ new, names.idxOf f.key ≠ i := fun f hf eq =>
      others f hf ((List.idxOf_inj known).1 (place.trans eq.symm)).symm
    rw [if_pos place, renewedAt_of_none none, renewedAt_cons_here place]
  · rw [if_neg place, renewedAt_cons_elsewhere place]

/-- A name at the end changes no first place before it. -/
theorem renewedAt_concat (lt : i < names.length) (name : String) (new : List Entry) (h : Handle) :
    renewedAt (names ++ [name]) new i h = renewedAt names new i h := by
  have places (key : String) : (names ++ [name]).idxOf key = i ↔ names.idxOf key = i := by
    by_cases mem : key ∈ names
    · rw [List.idxOf_append_of_mem mem]
    · rw [List.idxOf_append_of_notMem mem, List.idxOf_eq_length mem]
      omega
  simp only [renewedAt, Bool.beq_eq_decide_eq, places]

theorem idxOf_concat_ne {key : String} (ne : key ≠ name) : (names ++ [name]).idxOf key ≠ names.length := by
  by_cases mem : key ∈ names
  · rw [List.idxOf_append_of_mem mem]
    exact Nat.ne_of_lt (List.idxOf_lt_length_iff.2 mem)
  · have absent : key ∉ [name] := fun h => ne (List.mem_singleton.1 h)
    rw [List.idxOf_append_of_notMem mem, List.idxOf_eq_length absent]
    exact Nat.ne_of_gt (Nat.lt_succ_self _)

/-- A new entry of a name that is not there follows the others. -/
theorem mapIdx_renewedAt_new (unknown : e.key ∉ names) (others : ∀ f ∈ new, f.key ≠ e.key) {handles : List Handle}
    (length : names.length = handles.length) :
    (handles ++ [e.handle]).mapIdx (renewedAt (names ++ [e.key]) new) =
      handles.mapIdx (renewedAt names (e :: new)) ++ [e.handle] := by
  have last : renewedAt (names ++ [e.key]) new (0 + handles.length) e.handle = e.handle := by
    apply renewedAt_of_none
    intro f hf
    rw [Nat.zero_add, ← length]
    exact idxOf_concat_ne (others f hf)
  have before : handles.mapIdx (renewedAt (names ++ [e.key]) new) = handles.mapIdx (renewedAt names (e :: new)) := by
    rw [List.mapIdx_eq_mapIdx_iff]
    intro i lt
    rw [← length] at lt
    have elsewhere : names.idxOf e.key ≠ i := by
      rw [List.idxOf_eq_length unknown]
      exact Nat.ne_of_gt lt
    rw [renewedAt_concat lt, renewedAt_cons_elsewhere elsewhere]
  rw [List.mapIdx_append, List.mapIdx_cons, last, before]
  rfl

theorem key_ne_of_mem_numbered {issued : Nat} (others : ∀ u ∈ us, u.name ≠ name) (he : e ∈ numbered issued us) :
    e.key ≠ name := by
  obtain ⟨u, hu, eq⟩ := OrderedMap.key_mem_numbered he
  exact eq ▸ others u hu

theorem numbered_put (r : Repository) (t : Technology) (ts : List Technology) :
    numbered r.records.length (t :: ts) = ⟨t.name, r.fresh, t⟩ :: numbered (r.put t).records.length ts := by
  rw [records_put, List.length_append]
  rfl

/-- Records of different names take the places of the first entries of their names, and the others follow. -/
theorem listed_putAll (r : Repository) (distinct : (ts.map Technology.name).Nodup) :
    (r.putAll ts).listed =
      r.listed.mapIdx (renewedAt r.names (numbered r.records.length ts)) ++
        ((numbered r.records.length ts).filter (·.key ∉ r.names)).map Entry.handle := by
  induction ts generalizing r with
  | nil => exact (List.append_nil _).symm ▸ (mapIdx_renewedAt_nil r.names r.listed).symm
  | cons t ts ih =>
      rw [List.map_cons, List.nodup_cons] at distinct
      have others : ∀ e ∈ numbered (r.put t).records.length ts, e.key ≠ t.name := fun e he =>
        key_ne_of_mem_numbered (fun u hu eq => distinct.1 (eq ▸ List.mem_map_of_mem hu)) he
      rw [putAll, List.foldl_cons, ← putAll, ih (r.put t) distinct.2, numbered_put]
      generalize numbered (r.put t).records.length ts = later at others
      by_cases known : t.name ∈ r.names
      · obtain ⟨names, listed⟩ := put_known known
        have step := mapIdx_renewedAt_known (e := ⟨t.name, r.fresh, t⟩) known others r.listed
        rw [names, listed, step, List.filter_cons_of_neg (by simpa using known)]
      · have step := mapIdx_renewedAt_new (e := ⟨t.name, r.fresh, t⟩) known others (List.length_map _)
        have kept : later.filter (·.key ∉ r.names ++ [t.name]) = later.filter (·.key ∉ r.names) := by
          apply List.filter_congr
          intro e he
          simp [others e he]
        rw [put_new known, names_append]
        have listed : (r.append t).listed = r.listed ++ [r.fresh] := rfl
        rw [listed, step, kept, List.filter_cons_of_pos (by simpa using known), List.map_cons, List.append_assoc]
        rfl

/-! ## Batches -/

theorem insertAfter_replace (seen : List String) (r : Repository) (ts : List Technology) :
    (insertAfter seen r .replace ts).2 = r.putAll (unseen seen ts) := by
  induction ts generalizing seen r with
  | nil => rfl
  | cons t ts ih =>
      by_cases known : seen.contains t.name
      · rw [insertAfter_seen known, OrderedMap.unseen_cons_seen known, ih]
      · rw [insertAfter_unseen known, OrderedMap.unseen_cons_new known, ih]
        rfl

/-- What a batch that replaces says of a record, where `names` were listed before the batch and `earlier` are those
that the batch had before the record. -/
def replacement (names earlier : List String) (name : String) : Outcome :=
  if name ∈ earlier then .duplicate else if name ∈ names then .replaced else .inserted

theorem Settles.eq_replacement {seen : List String} {outcome : Outcome} {next : Repository}
    (step : r.Settles seen .replace t outcome next) : outcome = replacement r.names seen t.name := by
  cases step with
  | inserted unseen new => rw [replacement, if_neg unseen, if_neg new]
  | replaced unseen found => rw [replacement, if_neg unseen, if_pos (mem_names_of_find? found)]
  | repeated known => rw [replacement, if_pos known]
  | refused _ reject => cases reject

/-- A record that was stored counts as an earlier one of the batch, and not as one that was listed before. -/
theorem Settles.replacement_eq {seen : List String} {outcome : Outcome} {next : Repository}
    (step : r.Settles seen .replace t outcome next) (earlier : List String) (name : String) :
    replacement next.names (t.name :: seen ++ earlier) name = replacement r.names (seen ++ t.name :: earlier) name := by
  have same : name ∈ t.name :: seen ++ earlier ↔ name ∈ seen ++ t.name :: earlier := by
    simp only [List.cons_append, List.mem_cons, List.mem_append]
    exact or_left_comm
  simp only [replacement, same]
  split
  · rfl
  · next absent =>
      have other : name ≠ t.name := fun eq => absent (by simp [eq])
      simp only [step.mem_names, other, false_and, or_false]

theorem outcomes_insertAfter_replace (seen : List String) (r : Repository) (ts : List Technology) :
    (insertAfter seen r .replace ts).1 =
      ts.mapIdx fun i t => (t.name, replacement r.names (seen ++ (ts.take i).map Technology.name) t.name) := by
  induction ts generalizing seen r with
  | nil => rfl
  | cons t ts ih =>
      obtain ⟨outcome, next, step, eq⟩ := insertAfter_cons seen r .replace t ts
      simp only [eq, ih, List.mapIdx_cons, List.take_zero, List.map_nil, List.append_nil, step.eq_replacement,
        step.replacement_eq, List.take_succ_cons, List.map_cons]

/-- A handle that was handed out. -/
def IsIssued (r : Repository) (h : Handle) : Prop := h.index < r.records.length

/-- What becomes of a repository, whatever its names, under a batch that replaces. -/
structure Renewed (r : Repository) (ts : List Technology) (next : Repository) : Prop where
  /-- The first entry of a name of the batch gets a new handle, with the first record of the name. -/
  swapped : ∀ (i : Nat) (h : Handle) (t : Technology), r.listed[i]? = some h → r.names.idxOf (r.nameOf h) = i →
    ts.find? (·.name == r.nameOf h) = some t → ∃ k, next.listed[i]? = some k ∧ ¬r.IsIssued k ∧ next.record k = t
  /-- All other entries stay, under the handles that they have. -/
  kept : ∀ (i : Nat) (h : Handle), r.listed[i]? = some h →
    r.names.idxOf (r.nameOf h) ≠ i ∨ r.nameOf h ∉ ts.map Technology.name → next.listed[i]? = some h
  /-- After them come new handles with the first record of each other name, in the order of the batch. -/
  added : (∀ k ∈ next.listed.drop r.listed.length, ¬r.IsIssued k) ∧
    (next.listed.drop r.listed.length).map next.record = (firsts ts).filter (·.name ∉ r.names)
  /-- What is behind a handle that was handed out before does not change. -/
  unchanged : ∀ h, r.IsIssued h → next.record h = r.record h

/-- An entry for a first record of the batch, once the first records are stored. -/
theorem spec_of_numbered {next : Repository} (records : next.records = r.records ++ firsts ts)
    (he : e ∈ numbered r.records.length (firsts ts)) :
    ¬r.IsIssued e.handle ∧ next.record e.handle = e.record ∧ ts.find? (·.name == e.key) = some e.record := by
  obtain ⟨le, place, key⟩ := OrderedMap.numbered_spec he
  refine ⟨Nat.not_lt.2 le, ?_, key ▸ OrderedMap.mem_firsts_iff.1 (List.mem_of_getElem? place)⟩
  rw [record, records, List.getElem?_append_right le, place]
  rfl

theorem renewed_putAll (r : Repository) (ts : List Technology) : r.Renewed ts (r.putAll (firsts ts)) := by
  have records := records_putAll r (firsts ts)
  have listed := r.listed_putAll (OrderedMap.nodup_names_firsts ts)
  generalize r.putAll (firsts ts) = next at records listed
  generalize entries : numbered r.records.length (firsts ts) = es at listed
  have spec : ∀ e ∈ es, ¬r.IsIssued e.handle ∧ next.record e.handle = e.record ∧
      ts.find? (·.name == e.key) = some e.record := fun e he => spec_of_numbered records (entries ▸ he)
  have length : (r.listed.mapIdx (renewedAt r.names es)).length = r.listed.length := List.length_mapIdx
  have entry {i : Nat} {h : Handle} (place : r.listed[i]? = some h) :
      next.listed[i]? = some (renewedAt r.names es i h) := by
    obtain ⟨lt, -⟩ := List.getElem?_eq_some_iff.1 place
    rw [listed, List.getElem?_append_left (length ▸ lt), List.getElem?_mapIdx, place]
    rfl
  have rest : next.listed.drop r.listed.length = (es.filter (·.key ∉ r.names)).map Entry.handle := by
    rw [listed, ← length, List.drop_left]
  exact
    { swapped := by
        intro i h t place first found
        have matched := List.find?_some found
        have name : t.name = r.nameOf h := eq_of_beq matched
        rcases renewedAt_cases r.names es i h with ⟨e, he, here, renewed⟩ | ⟨none, -⟩
        · obtain ⟨new, behind, found'⟩ := spec e he
          rw [eq_nameOf_of_idxOf place here] at found'
          exact ⟨e.handle, renewed ▸ entry place, new, behind.trans (Option.some.inj (found'.symm.trans found))⟩
        · obtain ⟨e, he, -, key⟩ := OrderedMap.exists_numbered r.records.length
            (OrderedMap.mem_firsts_iff.2 (name ▸ found))
          exact absurd (key.trans name ▸ first) (none e (entries ▸ he))
      kept := by
        intro i h place other
        rcases renewedAt_cases r.names es i h with ⟨e, he, here, -⟩ | ⟨-, same⟩
        · have key := eq_nameOf_of_idxOf place here
          obtain ⟨-, -, found⟩ := spec e he
          have matched := List.find?_some found
          have name : e.record.name = e.key := eq_of_beq matched
          rcases other with later | absent
          · exact absurd (key ▸ here) later
          · exact absurd (List.mem_map.2 ⟨_, List.mem_of_find?_eq_some found, name.trans key⟩) absent
        · rw [entry place, same]
      added := by
        rw [rest, List.forall_mem_map, List.map_map]
        have all := OrderedMap.map_record_numbered r.records.length (firsts ts) fun name => decide (name ∉ r.names)
        rw [entries] at all
        exact ⟨fun e he => (spec e (List.mem_of_mem_filter he)).1,
          (List.map_congr_left fun e he => (spec e (List.mem_of_mem_filter he)).2.1).trans all⟩
      unchanged := by
        intro h issued
        rw [record, record, records, List.getElem?_append_left issued] }

/-- What is found after a batch that replaces is the first record of the name. -/
theorem Renewed.find?_first {next : Repository} {added : List String} (renewed : r.Renewed ts next)
    (names : next.names = r.names ++ added) (first : ts.find? (·.name == name) = some t) :
    ∃ k, next.find? name = some k ∧ next.record k = t := by
  have matched := List.find?_some first
  have same : t.name = name := eq_of_beq matched
  by_cases known : name ∈ r.names
  · cases found : r.find? name with
    | none => exact absurd known (find?_eq_none_iff.1 found)
    | some h =>
        obtain rfl := nameOf_of_find? found
        obtain ⟨k, entry, -, record⟩ := renewed.swapped _ h t ((r.listed_idxOf _).trans found) rfl first
        refine ⟨k, ?_, record⟩
        rw [← listed_idxOf, names, List.idxOf_append_of_mem known]
        exact entry
  · have stored : t ∈ (next.listed.drop r.listed.length).map next.record := by
      rw [renewed.added.2, List.mem_filter, OrderedMap.mem_firsts_iff, same]
      exact ⟨first, by simpa using known⟩
    obtain ⟨k, listed, rfl⟩ := List.mem_map.1 stored
    cases found : next.find? name with
    | none => exact absurd (List.mem_map.2 ⟨k, List.mem_of_mem_drop listed, same⟩) (find?_eq_none_iff.1 found)
    | some h =>
        -- The name was not there, so that what is found is one of the new entries, which differ in their names.
        have place := (next.listed_idxOf name).trans found
        rw [names, List.idxOf_append_of_notMem known, Repository.names, List.length_map, ← List.getElem?_drop] at place
        have behind := List.mem_map_of_mem (f := next.record) (List.mem_of_getElem? place)
        have key : (next.record h).name = name := nameOf_of_find? found
        rw [renewed.added.2, List.mem_filter, OrderedMap.mem_firsts_iff, key] at behind
        exact ⟨h, rfl, Option.some.inj (behind.1.symm.trans first)⟩

theorem find?_insertAll_replace (r : Repository) (first : ts.find? (·.name == name) = some t) :
    ∃ k, (r.insertAll .replace ts).2.find? name = some k ∧ (r.insertAll .replace ts).2.record k = t := by
  have renewed := r.renewed_putAll ts
  have names := names_insertAfter [] r .replace ts
  rw [insertAfter_replace, OrderedMap.unseen_nil] at names
  rw [insertAll, insertAfter_replace, OrderedMap.unseen_nil]
  exact renewed.find?_first names first

/-- In a repository with whatever names, a batch that replaces stores the first record of each of its names: at the
place of the first entry of the name, or after all entries in the order of the batch. The other entries and all
handles stay as they are, and what is said of each record depends on the names before it alone. -/
theorem insertAll_replace (r : Repository) (ts : List Technology) :
    r.Renewed ts (r.insertAll .replace ts).2 ∧
      (r.insertAll .replace ts).1 =
        ts.mapIdx fun i t => (t.name, replacement r.names ((ts.take i).map Technology.name) t.name) := by
  refine ⟨?_, outcomes_insertAfter_replace [] r ts⟩
  rw [insertAll, insertAfter_replace, OrderedMap.unseen_nil]
  exact r.renewed_putAll ts

example :
    let r := (empty.append { name := "a" }).append { name := "a" }
    let stored := r.insertAll .replace [{ name := "b" }, { name := "a" }, { name := "a" }]
    stored.1 = [("b", .inserted), ("a", .replaced), ("a", .duplicate)] ∧ stored.2.listed = [⟨3⟩, ⟨1⟩, ⟨2⟩] := by
  decide

end Repository

end LayoutTech
