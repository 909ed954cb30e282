import LayoutTech.Proofs.Registry.Repository
import LayoutTech.Registry.Basic

/-!
# Batches of any names

What a batch does to a repository in which names may be taken, even by several entries, and what it says of
each record. The names of the inserted records follow the names that are there, and no name changes.
-/

namespace LayoutTech

/-! ## Outcomes -/

namespace Registry

variable {outcome other : Repository.Outcome} {name : String} {outcomes : List (String × Repository.Outcome)}

@[simp] theorem namesOf_cons :
    namesOf outcome ((name, other) :: outcomes) =
      if other = outcome then name :: namesOf outcome outcomes else namesOf outcome outcomes := by
  by_cases h : other = outcome <;> simp [namesOf, h]

theorem mem_namesOf : name ∈ namesOf outcome outcomes ↔ (name, outcome) ∈ outcomes := by
  simp [namesOf]

theorem length_namesOf (outcomes : List (String × Repository.Outcome)) :
    (namesOf .inserted outcomes).length + (namesOf .replaced outcomes).length + (namesOf .duplicate outcomes).length =
      outcomes.length := by
  induction outcomes with
  | nil => rfl
  | cons o outcomes ih =>
      obtain ⟨name, outcome⟩ := o
      cases outcome <;> simp only [namesOf_cons, reduceCtorEq, if_true, if_false, List.length_cons] <;> omega

/-- A report has an entry for each outcome, and for each rejection that comes before them. -/
theorem length_reported (rejections : List Rejection) (outcomes : List (String × Repository.Outcome)) :
    (namesOf .inserted outcomes).length + (namesOf .replaced outcomes).length +
      (rejections ++ duplicates outcomes).length = outcomes.length + rejections.length := by
  have all := length_namesOf outcomes
  rw [List.length_append, duplicates, List.length_map]
  omega

end Registry

namespace Repository

open Registry (namesOf namesOf_cons mem_namesOf)

variable {r next : Repository} {t u : Technology} {h : Handle} {seen : List String} {policy : CollisionPolicy}
  {outcome : Outcome} {ts : List Technology} {name : String}

/-! ## One record -/

theorem nameOf_of_find? (found : r.find? name = some h) : r.nameOf h = name := by
  have holds := List.find?_some found
  exact eq_of_beq holds

theorem mem_names_of_find? (found : r.find? name = some h) : name ∈ r.names :=
  List.mem_map.2 ⟨h, List.mem_of_find?_eq_some found, nameOf_of_find? found⟩

theorem names_replace (found : r.find? t.name = some h) : (r.replace h t).names = r.names := by
  have name := nameOf_of_find? found
  have swapped : (r.replace h t).listed = swap h r.fresh r.listed := rfl
  rw [names, swapped, swap, List.map_map]
  apply List.map_congr_left
  intro k hk
  by_cases same : k = h
  · rw [Function.comp_apply, if_pos same, nameOf, record_replace_fresh, same, name]
  · rw [Function.comp_apply, if_neg same, nameOf, record_replace (r.stored k hk)]
    rfl

/-- What a batch that had the names before makes of a record, and the repository after that. -/
inductive Settles (r : Repository) (seen : List String) (policy : CollisionPolicy) (t : Technology) :
    Outcome → Repository → Prop
  | inserted : t.name ∉ seen → t.name ∉ r.names → Settles r seen policy t .inserted (r.append t)
  | replaced {h : Handle} : t.name ∉ seen → r.find? t.name = some h → policy = .replace →
      Settles r seen policy t .replaced (r.replace h t)
  | repeated : t.name ∈ seen → Settles r seen policy t .duplicate r
  | refused : t.name ∈ r.names → policy = .reject → Settles r seen policy t .duplicate r

theorem settles_place (new : t.name ∉ seen) : r.Settles seen policy t (r.place policy t).1 (r.place policy t).2 := by
  cases found : r.find? t.name with
  | none =>
      rw [place_new found]
      exact .inserted new (find?_eq_none_iff.1 found)
  | some h =>
      cases policy with
      | replace => rw [place_replace found]; exact .replaced new found rfl
      | reject => rw [place_reject found]; exact .refused (mem_names_of_find? found) rfl

theorem insertAfter_cons (seen : List String) (r : Repository) (policy : CollisionPolicy) (t : Technology)
    (ts : List Technology) :
    ∃ outcome next, r.Settles seen policy t outcome next ∧
      insertAfter seen r policy (t :: ts) =
        ((t.name, outcome) :: (insertAfter (t.name :: seen) next policy ts).1,
          (insertAfter (t.name :: seen) next policy ts).2) := by
  by_cases known : t.name ∈ seen
  · exact ⟨_, _, .repeated known, insertAfter_seen (List.contains_iff_mem.2 known)⟩
  · exact ⟨_, _, settles_place known, insertAfter_unseen fun c => known (List.contains_iff_mem.1 c)⟩

theorem Settles.names_eq (step : r.Settles seen policy t outcome next) :
    next.names = r.names ++ namesOf .inserted [(t.name, outcome)] := by
  cases step with
  | inserted => rw [names_append]; rfl
  | replaced _ found _ => rw [names_replace found]; exact (List.append_nil _).symm
  | repeated => exact (List.append_nil _).symm
  | refused => exact (List.append_nil _).symm

/-- A name that comes to be known with a record is the record's own. -/
theorem Settles.mem_names (step : r.Settles seen policy t outcome next) :
    name ∈ next.names ↔ name ∈ r.names ∨ name = t.name ∧ outcome = .inserted := by
  rw [step.names_eq, List.mem_append, mem_namesOf, List.mem_singleton, Prod.mk.injEq, @eq_comm _ outcome]

theorem mem_contents_replace (mem : u ∈ (r.replace h t).contents) : u ∈ r.contents ∨ u = t := by
  obtain ⟨k, hk, rfl⟩ := List.mem_map.1 mem
  obtain ⟨old, there, rfl⟩ := List.mem_map.1 hk
  by_cases same : old = h
  · rw [if_pos same]
    exact .inr (record_replace_fresh r h t)
  · rw [if_neg same, record_replace (r.stored old there)]
    exact .inl (List.mem_map_of_mem there)

theorem Settles.mem_contents (step : r.Settles seen policy t outcome next) (mem : u ∈ next.contents) :
    u ∈ r.contents ∨ u = t := by
  cases step with
  | inserted =>
      rw [contents_append] at mem
      exact (List.mem_append.1 mem).imp_right List.mem_singleton.1
  | replaced => exact mem_contents_replace mem
  | repeated => exact .inl mem
  | refused => exact .inl mem

/-! ## Many records -/

theorem map_fst_insertAfter (seen : List String) (r : Repository) (policy : CollisionPolicy) (ts : List Technology) :
    (insertAfter seen r policy ts).1.map Prod.fst = ts.map Technology.name := by
  induction ts generalizing seen r with
  | nil => rfl
  | cons t ts ih =>
      obtain ⟨outcome, next, -, eq⟩ := insertAfter_cons seen r policy t ts
      simp only [eq, List.map_cons, ih]

theorem length_insertAll (r : Repository) (policy : CollisionPolicy) (ts : List Technology) :
    (r.insertAll policy ts).1.length = ts.length := by
  have names := congrArg List.length (map_fst_insertAfter [] r policy ts)
  rwa [List.length_map, List.length_map] at names

theorem names_insertAfter (seen : List String) (r : Repository) (policy : CollisionPolicy) (ts : List Technology) :
    (insertAfter seen r policy ts).2.names = r.names ++ namesOf .inserted (insertAfter seen r policy ts).1 := by
  induction ts generalizing seen r with
  | nil => exact (List.append_nil _).symm
  | cons t ts ih =>
      obtain ⟨outcome, next, step, eq⟩ := insertAfter_cons seen r policy t ts
      simp only [eq, ih, step.names_eq, namesOf_cons, List.append_assoc]
      split <;> rfl

theorem mem_contents_insertAfter (mem : u ∈ (insertAfter seen r policy ts).2.contents) :
    u ∈ r.contents ∨ u ∈ ts := by
  induction ts generalizing seen r with
  | nil => exact .inl mem
  | cons t ts ih =>
      obtain ⟨outcome, next, step, eq⟩ := insertAfter_cons seen r policy t ts
      rw [eq] at mem
      rcases ih mem with before | later
      · exact (step.mem_contents before).imp_right fun here => List.mem_cons.2 (.inl here)
      · exact .inr (List.mem_cons_of_mem _ later)

theorem inserted_new (inserted : (name, .inserted) ∈ (insertAfter seen r policy ts).1) :
    name ∉ seen ∧ name ∉ r.names := by
  induction ts generalizing seen r with
  | nil => cases inserted
  | cons t ts ih =>
      obtain ⟨outcome, next, step, eq⟩ := insertAfter_cons seen r policy t ts
      rw [eq, List.mem_cons] at inserted
      rcases inserted with first | later
      · obtain ⟨rfl, rfl⟩ := Prod.mk.inj first
        cases step with
        | inserted unseen new => exact ⟨unseen, new⟩
      · obtain ⟨unseen, new⟩ := ih later
        exact ⟨fun h => unseen (List.mem_cons_of_mem _ h), fun h => new (step.mem_names.2 (.inl h))⟩

theorem replaced_known (replaced : (name, .replaced) ∈ (insertAfter seen r policy ts).1) :
    name ∉ seen ∧ name ∈ r.names ∧ policy = .replace := by
  induction ts generalizing seen r with
  | nil => cases replaced
  | cons t ts ih =>
      obtain ⟨outcome, next, step, eq⟩ := insertAfter_cons seen r policy t ts
      rw [eq, List.mem_cons] at replaced
      rcases replaced with first | later
      · obtain ⟨rfl, rfl⟩ := Prod.mk.inj first
        cases step with
        | replaced unseen found policy => exact ⟨unseen, mem_names_of_find? found, policy⟩
      · obtain ⟨unseen, known, policy⟩ := ih later
        rw [List.mem_cons, not_or] at unseen
        exact ⟨unseen.2, (step.mem_names.1 known).resolve_right fun h => unseen.1 h.1, policy⟩

theorem unseen_of_taken (taken : outcome ≠ .duplicate) (mem : (name, outcome) ∈ (insertAfter seen r policy ts).1) :
    name ∉ seen := by
  cases outcome with
  | inserted => exact (inserted_new mem).1
  | replaced => exact (replaced_known mem).1
  | duplicate => exact absurd rfl taken

/-- A batch takes in at most one record of a name. -/
theorem nodup_namesOf (taken : outcome ≠ .duplicate) :
    (namesOf outcome (insertAfter seen r policy ts).1).Nodup := by
  induction ts generalizing seen r with
  | nil => exact .nil
  | cons t ts ih =>
      obtain ⟨first, next, -, eq⟩ := insertAfter_cons seen r policy t ts
      rw [eq, namesOf_cons]
      split
      · exact List.nodup_cons.2
          ⟨fun again => unseen_of_taken taken (mem_namesOf.1 again) List.mem_cons_self, ih⟩
      · exact ih

/-- A record that is not taken in has a name that was there, or that an earlier record brought. -/
theorem duplicate_known {earlier later : List (String × Outcome)}
    (eq : (insertAfter seen r policy ts).1 = earlier ++ (name, .duplicate) :: later) :
    name ∈ seen ∨ name ∈ r.names ∨ (name, .inserted) ∈ earlier := by
  induction ts generalizing seen r earlier with
  | nil => cases earlier <;> cases eq
  | cons t ts ih =>
      obtain ⟨outcome, next, step, cons⟩ := insertAfter_cons seen r policy t ts
      rw [cons] at eq
      cases earlier with
      | nil =>
          obtain ⟨first, -⟩ := List.cons.inj eq
          obtain ⟨rfl, rfl⟩ := Prod.mk.inj first
          cases step with
          | repeated known => exact .inl known
          | refused known _ => exact .inr (.inl known)
      | cons o earlier =>
          obtain ⟨rfl, rest⟩ := List.cons.inj eq
          -- What the first record adds to the names that count as known, it adds under its own name.
          have known : name = t.name → name ∈ seen ∨ name ∈ r.names ∨ outcome = .inserted := by
            rintro rfl
            cases step with
            | inserted => exact .inr (.inr rfl)
            | replaced _ found _ => exact .inr (.inl (mem_names_of_find? found))
            | repeated known => exact .inl known
            | refused known _ => exact .inr (.inl known)
          rcases ih rest with before | there | inserted
          · rcases List.mem_cons.1 before with rfl | before
            · rcases known rfl with before | there | rfl
              · exact .inl before
              · exact .inr (.inl there)
              · exact .inr (.inr List.mem_cons_self)
            · exact .inl before
          · rcases step.mem_names.1 there with there | ⟨rfl, rfl⟩
            · exact .inr (.inl there)
            · exact .inr (.inr List.mem_cons_self)
          · exact .inr (.inr (List.mem_cons_of_mem _ inserted))

end Repository

end LayoutTech
