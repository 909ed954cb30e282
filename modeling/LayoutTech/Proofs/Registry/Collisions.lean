import LayoutTech.Proofs.Registry.Batches
import LayoutTech.Proofs.Registry.Runs

/-!
# Collisions of names

Entries come to share a name when one of them is renamed through its handle, and in no other way. This holds in
every registry, also in one in which names are shared already.
-/

namespace LayoutTech

/-! ## Repositories -/

namespace Repository

/-- What becomes of a repository when nothing is written through a handle. -/
inductive Step (r : Repository) : Repository → Prop
  | same : r.Step r
  | append {t : Technology} : t.name ∉ r.names → r.Step (r.append t)
  | erase (name : String) : r.Step (r.erase name)
  | clear : r.Step r.clear
  | insertAll (policy : CollisionPolicy) (ts : List Technology) : r.Step (r.insertAll policy ts).2

/-- No name has more entries in the second repository than in the first, where a single entry is always allowed. -/
def NoNewCollision (r next : Repository) : Prop :=
  ∀ name, next.names.count name ≤ max 1 (r.names.count name)

variable {r next : Repository} {t : Technology} {h k : Handle} {name : String}

namespace NoNewCollision

theorem of_sublist (names : next.names.Sublist r.names) : r.NoNewCollision next := fun name =>
  Nat.le_trans (names.count_le name) (Nat.le_max_right _ _)

theorem of_names_eq (names : next.names = r.names) : r.NoNewCollision next :=
  of_sublist (names ▸ List.Sublist.refl _)

theorem refl (r : Repository) : r.NoNewCollision r := of_names_eq rfl

/-- Names that come to be known once each, and were not known before, collide with nothing. -/
theorem of_new {new : List String} (names : next.names = r.names ++ new) (distinct : new.Nodup)
    (unknown : ∀ name ∈ new, name ∉ r.names) : r.NoNewCollision next := by
  intro name
  rw [names, List.count_append]
  by_cases mem : name ∈ new
  · have before : r.names.count name = 0 := List.count_eq_zero.2 (unknown name mem)
    have once : new.count name ≤ 1 := List.nodup_iff_count_le_one.1 distinct name
    omega
  · have absent : new.count name = 0 := List.count_eq_zero.2 mem
    omega

theorem append (new : t.name ∉ r.names) : r.NoNewCollision (r.append t) := by
  apply of_new (names_append r t) (List.nodup_singleton _)
  intro name mem
  rwa [List.mem_singleton.1 mem]

theorem erase (r : Repository) (name : String) : r.NoNewCollision (r.erase name) := by
  unfold Repository.erase
  cases r.find? name with
  | none => exact refl r
  | some h => exact of_sublist (List.erase_sublist.map _)

theorem clear (r : Repository) : r.NoNewCollision r.clear := of_sublist (List.nil_sublist _)

theorem insertAll (r : Repository) (policy : CollisionPolicy) (ts : List Technology) :
    r.NoNewCollision (r.insertAll policy ts).2 := by
  apply of_new (names_insertAfter [] r policy ts) (nodup_namesOf (by decide))
  intro name mem
  exact (inserted_new (Registry.mem_namesOf.1 mem)).2

theorem of_step (step : r.Step next) : r.NoNewCollision next := by
  cases step with
  | same => exact refl r
  | append new => exact append new
  | erase name => exact erase r name
  | clear => exact clear r
  | insertAll policy ts => exact insertAll r policy ts

theorem nodup (h : r.NoNewCollision next) (distinct : r.names.Nodup) : next.names.Nodup := by
  rw [List.nodup_iff_count_le_one] at distinct ⊢
  intro name
  exact Nat.le_trans (h name) (Nat.max_le.2 ⟨Nat.le_refl 1, distinct name⟩)

end NoNewCollision

theorem names_modify (r : Repository) (h : Handle) (change : Technology → Technology) :
    (r.modify h change).names = r.listed.map fun k => if k = h then (change (r.record k)).name else r.nameOf k := by
  have listed : (r.modify h change).listed = r.listed := rfl
  rw [names, listed]
  apply List.map_congr_left
  intro k hk
  rw [nameOf, record_modify (r.stored k hk)]
  split <;> rfl

theorem names_modify_of_kept {change : Technology → Technology} (kept : (change (r.record h)).name = r.nameOf h) :
    (r.modify h change).names = r.names := by
  rw [names_modify, names]
  apply List.map_congr_left
  intro k _
  split
  · next same => rw [same, kept]
  · rfl

end Repository

/-! ## Registries -/

def Operation.rename (handle : Handle) (name : String) : Operation := .write handle ({ · with name })

namespace Registry

open Repository (NoNewCollision)

variable {r : Registry} {t : Technology} {op : Operation}

theorem register_known (known : t.name ∈ r.names) : r.register t = .error (.duplicateName t.name) := by
  rw [register, Repository.insert, if_pos (Repository.contains_iff_mem.2 known)]
  rfl

theorem register_new (new : t.name ∉ r.names) :
    r.register t = .ok (r.repository.fresh, { r with repository := r.repository.append t }) := by
  rw [register, Repository.insert, if_neg fun c => new (Repository.contains_iff_mem.1 c)]

theorem step_register (r : Registry) (t : Technology) :
    r.repository.Step (r.stored (r.register t)).2.repository := by
  by_cases known : t.name ∈ r.names
  · rw [register_known known]
    exact .same
  · rw [register_new known]
    exact .append known

theorem step_takeRead (r : Registry) (policy : CollisionPolicy) (batch : Traced Fault Batch) :
    r.repository.Step (r.taken ({ r with policy }.takeRead batch).result).2.repository := by
  rw [takeRead, Traced.result_bind]
  cases batch.result with
  | error fault => exact .same
  | ok batch => exact .insertAll policy batch.technologies

/-- An operation is a write, or does to the repository what can be done without one. -/
theorem step_cases (r : Registry) (op : Operation) :
    (∃ handle change, op = .write handle change) ∨
      (∀ handle, op.through handle = id) ∧ r.repository.Step (r.step op).2.repository := by
  cases op with
  | create name => exact .inr ⟨fun _ => rfl, r.step_register { name }⟩
  | register t => exact .inr ⟨fun _ => rfl, r.step_register t⟩
  | remove name => exact .inr ⟨fun _ => rfl, .erase name⟩
  | clear => exact .inr ⟨fun _ => rfl, .clear⟩
  | importAll policy document =>
      rw [step, result_importAll]
      exact .inr ⟨fun _ => rfl, r.step_takeRead policy _⟩
  | loadDirectory policy tree directory => exact .inr ⟨fun _ => rfl, r.step_takeRead policy _⟩
  | loadPaths policy tree directories =>
      rw [step, result_loadPaths]
      exact .inr ⟨fun _ => rfl, r.step_takeRead policy _⟩
  | write handle change => exact .inl ⟨handle, change, rfl⟩

theorem noNewCollision_step (kept : r.KeepsName op) : r.repository.NoNewCollision (r.step op).2.repository := by
  rcases r.step_cases op with ⟨handle, change, rfl⟩ | ⟨-, step⟩
  · exact .of_names_eq (Repository.names_modify_of_kept kept)
  · exact .of_step step

theorem nodup_names_run {ops : List Operation} (distinct : r.names.Nodup) (kept : r.KeepsNames ops) :
    (run step r ops).2.names.Nodup := by
  induction ops generalizing r with
  | nil => exact distinct
  | cons op ops ih => exact ih ((noNewCollision_step kept.1).nodup distinct) kept.2

theorem names_rename (r : Registry) (handle : Handle) (name : String) :
    (r.step (.rename handle name)).2.names =
      r.repository.listed.map fun other => if other = handle then name else r.repository.nameOf other :=
  r.repository.names_modify handle _

theorem mem_names_rename {handle : Handle} (listed : handle ∈ r.repository.listed) (name : String) :
    name ∈ (r.step (.rename handle name)).2.names := by
  rw [names_rename]
  exact List.mem_map.2 ⟨handle, listed, if_pos rfl⟩

/-- The old name of the only entry of that name is free. -/
theorem notMem_names_rename {handle : Handle} {name : String} (ne : name ≠ r.repository.nameOf handle)
    (only : ∀ other ∈ r.repository.listed, r.repository.nameOf other = r.repository.nameOf handle → other = handle) :
    r.repository.nameOf handle ∉ (r.step (.rename handle name)).2.names := by
  rw [names_rename, List.mem_map]
  rintro ⟨other, listed, eq⟩
  split at eq
  · exact ne eq
  · next differs => exact differs (only other listed eq)

/-- In a registry with whatever names, no operation but a rename lets more entries share a name, a batch of
records stored directly does not either, and names that differ still differ after every step of a run without
renames. What is inserted is compared with the current names: the new name of a renamed entry is taken, and the
old name is free unless another entry has it. -/
theorem only_renames_collide (r : Registry) :
    (∀ op, r.KeepsName op → r.repository.NoNewCollision (r.step op).2.repository) ∧
      (∀ policy ts, r.repository.NoNewCollision (r.repository.insertAll policy ts).2) ∧
      (r.names.Nodup → ∀ ops, r.KeepsNames ops → ∀ done, done <+: ops → (run step r done).2.names.Nodup) ∧
      ∀ handle ∈ r.repository.listed, ∀ name (t : Technology),
        (t.name = name → (r.step (.rename handle name)).2.register t = .error (.duplicateName name)) ∧
          (t.name = r.repository.nameOf handle → name ≠ t.name →
            (∀ other ∈ r.repository.listed, r.repository.nameOf other = t.name → other = handle) →
            ∃ stored next, (r.step (.rename handle name)).2.register t = .ok (stored, next) ∧
              next.names = (r.step (.rename handle name)).2.names ++ [t.name]) := by
  refine ⟨fun op kept => noNewCollision_step kept, .insertAll r.repository, ?_, ?_⟩
  · rintro distinct ops kept done ⟨later, rfl⟩
    exact nodup_names_run distinct kept.of_append
  · intro handle listed name t
    refine ⟨?_, ?_⟩
    · rintro rfl
      exact register_known (mem_names_rename listed _)
    · intro old ne only
      rw [old] at ne only
      have free := notMem_names_rename ne only
      rw [← old] at free
      exact ⟨_, _, register_new free, Repository.names_append _ t⟩

theorem only_renames_collide_cmos :
    let apart : Registry := (run step {} [.create "cmos", .create "bipolar"]).2
    let shared : Registry := (apart.step (.rename ⟨1⟩ "cmos")).2
    let document := "<technologies><technology><name>cmos</name></technology></technologies>"
    shared.names = ["cmos", "cmos"] ∧
      shared.repository.NoNewCollision (shared.step (.importAll .replace document)).2.repository ∧
      (∀ done, done <+: [.create "cmos", .remove "cmos", .importAll .reject document] →
        (run step apart done).2.names.Nodup) ∧
      shared.register { name := "cmos" } = .error (.duplicateName "cmos") ∧
      ∃ stored next, shared.register { name := "bipolar" } = .ok (stored, next) ∧
        next.names = shared.names ++ ["bipolar"] := by
  intro apart shared document
  have only : ∀ other ∈ apart.repository.listed, apart.repository.nameOf other = "bipolar" → other = ⟨1⟩ := by
    decide
  have rename := (only_renames_collide apart).2.2.2 ⟨1⟩ (by decide) "cmos"
  exact ⟨rfl, (only_renames_collide shared).1 _ trivial,
    (only_renames_collide apart).2.2.1 (by decide) _ ⟨trivial, trivial, trivial, trivial⟩,
    (rename { name := "cmos" }).1 rfl, (rename { name := "bipolar" }).2 rfl (by decide) only⟩

end Registry

end LayoutTech
