import LayoutTech.Proofs.Registry.Collisions
import LayoutTech.Proofs.Registry.Replacing

/-!
# Handles

A record changes through its own handle and in no other way. A handle that has left the registry stays out, and what
is written through it is seen by those who hold it alone.
-/

namespace LayoutTech

namespace Repository

variable {r next last : Repository} {h k : Handle} {t : Technology} {change : Technology → Technology}
  {f g : Handle → Technology → Technology}

/-! ## What becomes of handles -/

/-- Behind each handle that was handed out the record changes as told, and no such handle comes to be listed. -/
structure Evolves (r : Repository) (f : Handle → Technology → Technology) (next : Repository) : Prop where
  issued : ∀ h, r.IsIssued h → next.IsIssued h
  record : ∀ h, r.IsIssued h → next.record h = f h (r.record h)
  listed : ∀ h ∈ next.listed, h ∈ r.listed ∨ ¬r.IsIssued h

/-- The handle was handed out, and is not listed any more. -/
structure IsDetached (r : Repository) (h : Handle) : Prop where
  issued : r.IsIssued h
  unlisted : h ∉ r.listed

namespace Evolves

theorem refl (r : Repository) : r.Evolves (fun _ => id) r where
  issued _ issued := issued
  record _ _ := rfl
  listed _ listed := .inl listed

theorem trans (first : r.Evolves f next) (second : next.Evolves g last) : r.Evolves (fun h => g h ∘ f h) last where
  issued h issued := second.issued h (first.issued h issued)
  record h issued := by
    rw [second.record h (first.issued h issued), first.record h issued]
    rfl
  listed h listed := by
    rcases second.listed h listed with before | new
    · exact first.listed h before
    · exact .inr fun issued => new (first.issued h issued)

theorem append (r : Repository) (t : Technology) : r.Evolves (fun _ => id) (r.append t) where
  issued h issued := by
    rw [IsIssued, Repository.append, List.length_append]
    exact Nat.lt_add_right _ issued
  record _ issued := record_append issued t
  listed h listed := by
    rcases List.mem_append.1 listed with before | new
    · exact .inl before
    · obtain rfl := List.mem_singleton.1 new
      exact .inr (Nat.lt_irrefl _)

theorem replace (r : Repository) (old : Handle) (t : Technology) : r.Evolves (fun _ => id) (r.replace old t) where
  issued h issued := by
    rw [IsIssued, Repository.replace, List.length_append]
    exact Nat.lt_add_right _ issued
  record _ issued := record_replace issued old t
  listed h listed := by
    obtain ⟨k, before, rfl⟩ := List.mem_map.1 listed
    split
    · exact .inr (Nat.lt_irrefl _)
    · exact .inl before

theorem restrict (r : Repository) {handles : List Handle} (sublist : handles.Sublist r.listed) :
    r.Evolves (fun _ => id) (r.restrict handles sublist) where
  issued _ issued := issued
  record _ _ := rfl
  listed _ listed := .inl (sublist.subset listed)

theorem erase (r : Repository) (name : String) : r.Evolves (fun _ => id) (r.erase name) := by
  unfold Repository.erase
  split
  · exact restrict r _
  · exact refl r

theorem modify (r : Repository) (h : Handle) (change : Technology → Technology) :
    r.Evolves (fun k => if k = h then change else id) (r.modify h change) where
  issued k issued := by
    rw [IsIssued, Repository.modify, List.length_modify]
    exact issued
  record k issued := by
    rw [record_modify issued]
    split <;> rfl
  listed _ listed := .inl listed

theorem isDetached (evolves : r.Evolves f next) (detached : r.IsDetached h) : next.IsDetached h where
  issued := evolves.issued h detached.issued
  unlisted listed := (evolves.listed h listed).elim detached.unlisted fun new => new detached.issued

end Evolves

/-! ## Batches -/

variable {seen : List String} {policy : CollisionPolicy} {outcome : Outcome} {ts : List Technology} {name : String}

theorem Settles.evolves (step : r.Settles seen policy t outcome next) : r.Evolves (fun _ => id) next := by
  cases step with
  | inserted => exact .append r t
  | replaced => exact .replace r _ t
  | repeated => exact .refl r
  | refused => exact .refl r

theorem Settles.listed (step : r.Settles seen policy t outcome next) (listed : h ∈ next.listed) :
    h ∈ r.listed ∨ h = r.fresh ∧ next.IsIssued h ∧ next.record h = t := by
  cases step with
  | inserted =>
      refine (List.mem_append.1 listed).imp_right fun new => ?_
      obtain rfl := List.mem_singleton.1 new
      exact ⟨rfl, (r.append t).stored _ listed, record_append_fresh r t⟩
  | replaced _ found _ =>
      obtain ⟨k, before, eq⟩ := List.mem_map.1 listed
      split at eq
      · obtain rfl := eq
        exact .inr ⟨rfl, (r.replace _ t).stored _ listed, record_replace_fresh r _ t⟩
      · exact .inl (eq ▸ before)
  | repeated => exact .inl listed
  | refused => exact .inl listed

theorem evolves_insertAfter (seen : List String) (r : Repository) (policy : CollisionPolicy) (ts : List Technology) :
    r.Evolves (fun _ => id) (insertAfter seen r policy ts).2 := by
  induction ts generalizing seen r with
  | nil => exact .refl r
  | cons t ts ih =>
      obtain ⟨outcome, next, step, eq⟩ := insertAfter_cons seen r policy t ts
      rw [eq]
      exact step.evolves.trans (ih _ next)

theorem Evolves.of_step (step : r.Step next) : r.Evolves (fun _ => id) next := by
  cases step with
  | same => exact refl r
  | append => exact append r _
  | erase name => exact erase r name
  | clear => exact restrict r (List.nil_sublist _)
  | insertAll policy ts => exact evolves_insertAfter [] r policy ts

/-- What a batch lists anew is a record of its own behind a new handle. -/
theorem listed_insertAfter (listed : h ∈ (insertAfter seen r policy ts).2.listed) :
    h ∈ r.listed ∨ ¬r.IsIssued h ∧ (insertAfter seen r policy ts).2.record h ∈ ts := by
  induction ts generalizing seen r with
  | nil => exact .inl listed
  | cons t ts ih =>
      obtain ⟨outcome, next, step, eq⟩ := insertAfter_cons seen r policy t ts
      rw [eq] at listed ⊢
      rcases ih listed with first | ⟨new, record⟩
      · refine (step.listed first).imp_right ?_
        rintro ⟨rfl, issued, record⟩
        have last := (evolves_insertAfter (t.name :: seen) next policy ts).record r.fresh issued
        exact ⟨Nat.lt_irrefl _, List.mem_cons.2 (.inl (last.trans record))⟩
      · exact .inr ⟨fun issued => new (step.evolves.issued h issued), List.mem_cons_of_mem _ record⟩

/-- A record of a new name is found behind the new handle. -/
theorem find?_append_new (new : t.name ∉ r.names) : (r.append t).find? t.name = some r.fresh := by
  have listed : (r.append t).listed = r.listed ++ [r.fresh] := rfl
  have length : r.names.length = r.listed.length := List.length_map _
  rw [← listed_idxOf, names_append, List.idxOf_append_of_notMem new, List.idxOf_cons_self, listed, length, Nat.add_zero,
    List.getElem?_concat_length]

/-! ## What a batch takes in -/

theorem find?_append_of_ne (ne : t.name ≠ name) : (r.append t).find? name = r.find? name := by
  by_cases known : name ∈ r.names
  · have place : r.names.idxOf name < r.listed.length := by
      rw [← List.length_map (f := r.nameOf)]
      exact List.idxOf_lt_length_of_mem known
    have listed : (r.append t).listed = r.listed ++ [r.fresh] := rfl
    rw [← listed_idxOf, ← listed_idxOf, names_append, List.idxOf_append_of_mem known, listed,
      List.getElem?_append_left place]
  · have unknown : name ∉ (r.append t).names := by
      rw [names_append, List.mem_append, List.mem_singleton, not_or]
      exact ⟨known, ne.symm⟩
    rw [find?_eq_none_iff.2 known, find?_eq_none_iff.2 unknown]

theorem find?_replace (found : r.find? t.name = some h) (name : String) :
    (r.replace h t).find? name = (r.find? name).map fun k => if k = h then r.fresh else k := by
  rw [← listed_idxOf, ← listed_idxOf, names_replace found]
  exact List.getElem?_map

/-- A record that is taken in is found behind the new handle. -/
theorem Settles.find?_fresh (step : r.Settles seen policy t outcome next) (taken : outcome ≠ .duplicate) :
    next.find? t.name = some r.fresh ∧ next.IsIssued r.fresh ∧ next.record r.fresh = t := by
  cases step with
  | inserted _ new =>
      have found := find?_append_new new
      exact ⟨found, (r.append t).stored _ (List.mem_of_find?_eq_some found), record_append_fresh r t⟩
  | @replaced h _ found _ =>
      have swapped : (r.replace h t).find? t.name = some r.fresh := by
        rw [find?_replace found, found, Option.map_some, if_pos rfl]
      exact ⟨swapped, (r.replace h t).stored _ (List.mem_of_find?_eq_some swapped), record_replace_fresh r h t⟩
  | repeated => exact absurd rfl taken
  | refused => exact absurd rfl taken

/-- Of a name that the batch had before, no other record comes to be found. -/
theorem Settles.find?_seen (step : r.Settles seen policy t outcome next) (known : name ∈ seen) :
    next.find? name = r.find? name := by
  cases step with
  | inserted unseen _ => exact find?_append_of_ne fun eq => unseen (eq ▸ known)
  | @replaced h unseen found _ =>
      rw [find?_replace found]
      cases entry : r.find? name with
      | none => rfl
      | some k =>
          have ne : k ≠ h := by
            rintro rfl
            exact unseen (((nameOf_of_find? found).symm.trans (nameOf_of_find? entry)) ▸ known)
          rw [Option.map_some, if_neg ne]
  | repeated => rfl
  | refused => rfl

theorem find?_insertAfter_seen (known : name ∈ seen) :
    (insertAfter seen r policy ts).2.find? name = r.find? name := by
  induction ts generalizing seen r with
  | nil => rfl
  | cons t ts ih =>
      obtain ⟨outcome, next, step, eq⟩ := insertAfter_cons seen r policy t ts
      rw [eq, ih (List.mem_cons_of_mem _ known), step.find?_seen known]

/-- Of each name that is taken in, the first record of the batch is found, behind a new handle. -/
theorem find?_insertAfter_taken (taken : outcome ≠ .duplicate)
    (mem : (name, outcome) ∈ (insertAfter seen r policy ts).1) :
    ∃ h t, ts.find? (·.name == name) = some t ∧ ¬r.IsIssued h ∧
      (insertAfter seen r policy ts).2.find? name = some h ∧ (insertAfter seen r policy ts).2.record h = t := by
  induction ts generalizing seen r with
  | nil => cases mem
  | cons t ts ih =>
      obtain ⟨first, next, step, eq⟩ := insertAfter_cons seen r policy t ts
      rw [eq] at mem ⊢
      rcases List.mem_cons.1 mem with here | later
      · obtain ⟨rfl, rfl⟩ := Prod.mk.inj here
        obtain ⟨found, issued, record⟩ := step.find?_fresh taken
        have last := (evolves_insertAfter (t.name :: seen) next policy ts).record r.fresh issued
        exact ⟨r.fresh, t, List.find?_cons_of_pos BEq.rfl, Nat.lt_irrefl _,
          (find?_insertAfter_seen List.mem_cons_self).trans found, last.trans record⟩
      · obtain ⟨h, u, search, new, found, record⟩ := ih later
        have ne : t.name ≠ name := fun eq => unseen_of_taken taken later (eq ▸ List.mem_cons_self)
        exact ⟨h, u, (List.find?_cons_of_neg (by simpa using ne)).trans search,
          fun issued => new (step.evolves.issued h issued), found, record⟩

/-! ## Handles that leave -/

theorem notMem_listed_erase (found : r.find? name = some h) : h ∉ (r.erase name).listed := by
  unfold erase
  rw [found]
  exact r.distinct.not_mem_erase

/-- The first entry of a name of the batch is not listed under its handle any more. -/
theorem Renewed.notMem_listed (renewed : r.Renewed ts next) (found : r.find? name = some h)
    (batch : name ∈ ts.map Technology.name) : h ∉ next.listed := by
  intro listed
  have issued : r.IsIssued h := r.stored h (List.mem_of_find?_eq_some found)
  obtain rfl := nameOf_of_find? found
  obtain ⟨j, entry⟩ := List.mem_iff_getElem?.1 listed
  cases before : r.listed[j]? with
  | none =>
      have late : r.listed.length ≤ j := List.getElem?_eq_none_iff.1 before
      have place : (next.listed.drop r.listed.length)[j - r.listed.length]? = some h := by
        rw [List.getElem?_drop, Nat.add_sub_cancel' late, entry]
      exact renewed.added.1 h (List.mem_of_getElem? place) issued
  | some k =>
      by_cases first : r.names.idxOf (r.nameOf k) = j ∧ r.nameOf k ∈ ts.map Technology.name
      · obtain ⟨t, mem, same⟩ := List.mem_map.1 first.2
        have known : (ts.find? (·.name == r.nameOf k)).isSome := List.find?_isSome.2 ⟨t, mem, by rw [same, BEq.rfl]⟩
        obtain ⟨u, search⟩ := Option.isSome_iff_exists.1 known
        obtain ⟨new, place, fresh, -⟩ := renewed.swapped j k u before first.1 search
        rw [entry] at place
        exact fresh (Option.some.inj place ▸ issued)
      · have kept := renewed.kept j k before (not_and_or.1 first)
        rw [entry] at kept
        obtain rfl := Option.some.inj kept
        have place := (r.listed_idxOf (r.nameOf h)).trans (found.trans before.symm)
        obtain ⟨lt, -⟩ := List.getElem?_eq_some_iff.1 before
        exact first ⟨((List.getElem?_inj lt r.distinct).1 place.symm).symm, batch⟩

theorem notMem_listed_insertAll (found : r.find? name = some h) (batch : name ∈ ts.map Technology.name) :
    h ∉ (r.insertAll .replace ts).2.listed := by
  rw [insertAll, insertAfter_replace, OrderedMap.unseen_nil]
  exact (r.renewed_putAll ts).notMem_listed found batch

/-! ## Writes through detached handles -/

theorem modify_concat {α : Type} {f : α → α} {a : α} {l : List α} {i : Nat} (lt : i < l.length) :
    (l ++ [a]).modify i f = l.modify i f ++ [a] := by
  induction l generalizing i with
  | nil => cases lt
  | cons b l ih =>
      cases i with
      | zero => rfl
      | succ i => exact congrArg (b :: ·) (ih (Nat.lt_of_succ_lt_succ lt))

theorem eq_of_parts (records : r.records = next.records) (listed : r.listed = next.listed) : r = next := by
  cases r
  cases next
  cases records
  cases listed
  rfl

theorem fresh_modify (r : Repository) (h : Handle) (change : Technology → Technology) :
    (r.modify h change).fresh = r.fresh :=
  congrArg Handle.mk (List.length_modify _ _ _)

theorem modify_id (r : Repository) (h : Handle) : r.modify h id = r := eq_of_parts (List.modify_id ..) rfl

theorem modify_modify (r : Repository) (h : Handle) (change again : Technology → Technology) :
    (r.modify h change).modify h again = r.modify h (again ∘ change) :=
  eq_of_parts (List.modify_modify_eq ..) rfl

theorem modify_comm (ne : k ≠ h) (change other : Technology → Technology) :
    (r.modify h change).modify k other = (r.modify k other).modify h change := by
  have places : h.index ≠ k.index := fun eq => ne (congrArg Handle.mk eq.symm)
  exact eq_of_parts (List.modify_modify_ne _ _ _ places) rfl

theorem record_modify_ne (ne : k ≠ h) (change : Technology → Technology) :
    (r.modify h change).record k = r.record k := by
  have places : h.index ≠ k.index := fun eq => ne (congrArg Handle.mk eq.symm)
  simp only [record, modify, List.getElem?_modify_ne _ _ places]

namespace IsDetached

variable (detached : r.IsDetached h) (change : Technology → Technology)
include detached

theorem contents_modify : (r.modify h change).contents = r.contents := by
  have listed : (r.modify h change).listed = r.listed := rfl
  rw [contents, listed]
  apply List.map_congr_left
  intro k hk
  have ne : k ≠ h := fun eq => detached.unlisted (eq ▸ hk)
  rw [record_modify (r.stored k hk), if_neg ne]

theorem names_modify : (r.modify h change).names = r.names := by
  rw [names_eq, detached.contents_modify, names_eq]

theorem find?_modify (name : String) : (r.modify h change).find? name = r.find? name := by
  rw [← listed_idxOf, detached.names_modify, ← listed_idxOf]
  rfl

theorem append_modify (t : Technology) : (r.modify h change).append t = (r.append t).modify h change :=
  eq_of_parts (modify_concat detached.issued).symm (congrArg (r.listed ++ [·]) (r.fresh_modify h change))

theorem replace_modify (old : Handle) (t : Technology) :
    (r.modify h change).replace old t = (r.replace old t).modify h change :=
  eq_of_parts (modify_concat detached.issued).symm (congrArg (swap old · r.listed) (r.fresh_modify h change))

theorem erase_modify (name : String) : (r.modify h change).erase name = (r.erase name).modify h change := by
  unfold erase
  rw [detached.find?_modify]
  split <;> rfl

theorem place_modify (policy : CollisionPolicy) (t : Technology) :
    (r.modify h change).place policy t = ((r.place policy t).1, (r.place policy t).2.modify h change) := by
  have same := detached.find?_modify change t.name
  cases found : r.find? t.name with
  | none => rw [place_new found, place_new (same.trans found), detached.append_modify]
  | some k =>
      cases policy with
      | reject => rw [place_reject found, place_reject (same.trans found)]
      | replace => rw [place_replace found, place_replace (same.trans found), detached.replace_modify]

omit detached in
theorem insertAfter_modify (detached : r.IsDetached h) (seen : List String) (policy : CollisionPolicy)
    (ts : List Technology) :
    insertAfter seen (r.modify h change) policy ts =
      ((insertAfter seen r policy ts).1, (insertAfter seen r policy ts).2.modify h change) := by
  induction ts generalizing seen r with
  | nil => rfl
  | cons t ts ih =>
      by_cases known : seen.contains t.name
      · rw [insertAfter_seen known, insertAfter_seen known, ih detached]
      · have unknown : t.name ∉ seen := fun mem => known (List.contains_iff_mem.2 mem)
        have placed : (r.place policy t).2.IsDetached h := (settles_place unknown).evolves.isDetached detached
        rw [insertAfter_unseen known, insertAfter_unseen known, detached.place_modify, ih placed]

end IsDetached

end Repository

/-! ## Operations -/

/-- The operation without what is written through a handle. -/
def Operation.muted (handle : Handle) : Operation → Operation
  | .write other change => .write other (if other = handle then id else change)
  | op => op

namespace Registry

open Repository (Evolves IsDetached)

variable {r : Registry} {h : Handle} {change : Technology → Technology}

def write (r : Registry) (h : Handle) (change : Technology → Technology) : Registry :=
  { r with repository := r.repository.modify h change }

theorem step_write_eq (r : Registry) (h : Handle) (change : Technology → Technology) :
    (r.step (.write h change)).2 = r.write h change :=
  rfl

theorem write_write (r : Registry) (h : Handle) (change again : Technology → Technology) :
    (r.write h change).write h again = r.write h (again ∘ change) :=
  congrArg (fun repository => { r with repository }) (r.repository.modify_modify h change again)

theorem write_comm {k : Handle} (ne : k ≠ h) (change other : Technology → Technology) :
    (r.write h change).write k other = (r.write k other).write h change :=
  congrArg (fun repository => { r with repository }) (Repository.modify_comm ne change other)

theorem eq_of_register {t : Technology} {next : Registry} (stored : r.register t = .ok (h, next)) :
    t.name ∉ r.names ∧ h = r.repository.fresh ∧ next = { r with repository := r.repository.append t } := by
  by_cases known : t.name ∈ r.names
  · rw [register_known known] at stored
    cases stored
  · rw [register_new known] at stored
    cases stored
    exact ⟨known, rfl, rfl⟩

theorem evolves_step (r : Registry) (op : Operation) :
    r.repository.Evolves op.through (r.step op).2.repository := by
  rcases r.step_cases op with ⟨handle, change, rfl⟩ | ⟨quiet, step⟩
  · exact .modify r.repository handle change
  · have nothing : op.through = fun _ => id := funext quiet
    exact nothing ▸ .of_step step

theorem register_write (detached : r.repository.IsDetached h) (change : Technology → Technology) (t : Technology) :
    (r.write h change).stored ((r.write h change).register t) =
      ((r.stored (r.register t)).1, (r.stored (r.register t)).2.write h change) := by
  have names : (r.write h change).names = r.names := detached.names_modify change
  by_cases known : t.name ∈ r.names
  · rw [register_known known, register_known (names ▸ known)]
    rfl
  · have append : (r.write h change).repository.append t = (r.repository.append t).modify h change :=
      detached.append_modify change t
    have fresh : (r.write h change).repository.fresh = r.repository.fresh := r.repository.fresh_modify h change
    rw [register_new known, register_new (names ▸ known), append, fresh]
    rfl

theorem takeRead_write (detached : r.repository.IsDetached h) (change : Technology → Technology)
    (policy : CollisionPolicy) (batch : Traced Fault Batch) :
    (r.write h change).taken ({ r.write h change with policy }.takeRead batch).result =
      ((r.taken ({ r with policy }.takeRead batch).result).1,
        (r.taken ({ r with policy }.takeRead batch).result).2.write h change) := by
  rw [takeRead, takeRead, Traced.result_bind, Traced.result_bind]
  cases batch.result with
  | error fault => rfl
  | ok batch =>
      have stored := detached.insertAfter_modify change [] policy batch.technologies
      have same : (r.write h change).repository.insertAll policy batch.technologies =
        ((r.repository.insertAll policy batch.technologies).1,
          (r.repository.insertAll policy batch.technologies).2.modify h change) := stored
      simp only [bind, Except.bind, result_takeIn, same, taken]
      rfl

/-- What was written through a detached handle changes no answer, and stays behind the handle. -/
theorem step_write (detached : r.repository.IsDetached h) (change : Technology → Technology) (op : Operation) :
    ∃ later, (r.write h change).step op = ((r.step (op.muted h)).1, (r.step (op.muted h)).2.write h later) := by
  cases op with
  | create name => exact ⟨change, register_write detached change { name }⟩
  | register t => exact ⟨change, register_write detached change t⟩
  | remove name =>
      have has : (r.write h change).has name = r.has name := congrArg Option.isSome (detached.find?_modify change name)
      refine ⟨change, Prod.ext (congrArg Answer.removed has) ?_⟩
      exact congrArg (fun repository => { r with repository }) (detached.erase_modify change name)
  | clear => exact ⟨change, rfl⟩
  | importAll policy document =>
      simp only [step, Operation.muted, result_importAll]
      exact ⟨change, takeRead_write detached change policy _⟩
  | loadDirectory policy tree directory => exact ⟨change, takeRead_write detached change policy _⟩
  | loadPaths policy tree directories =>
      simp only [step, Operation.muted, result_loadPaths]
      exact ⟨change, takeRead_write detached change policy _⟩
  | write handle other =>
      by_cases same : handle = h
      · obtain rfl := same
        refine ⟨other ∘ change, Prod.ext rfl ?_⟩
        rw [Operation.muted, if_pos rfl, step_write_eq, step_write_eq, write_write, write_write]
        rfl
      · refine ⟨change, Prod.ext rfl ?_⟩
        rw [Operation.muted, if_neg same, step_write_eq, step_write_eq, write_comm same]

/-- What can be asked of the registries has the same answers, down to the records that are found. -/
structure LooksLike (r other : Registry) : Prop where
  names : r.names = other.names
  lookup : r.lookup = other.lookup
  found : ∀ name h, other.lookup name = some h → r.repository.record h = other.repository.record h
  snapshot : r.snapshot = other.snapshot
  exportAll : r.exportAll = other.exportAll

theorem looksLike_write (detached : r.repository.IsDetached h) (change : Technology → Technology) :
    (r.write h change).LooksLike r := by
  have snapshot : (r.write h change).snapshot = r.snapshot := detached.contents_modify change
  exact
    { names := detached.names_modify change
      lookup := funext (detached.find?_modify change)
      found := by
        intro name k found
        have listed : k ∈ r.repository.listed := List.mem_of_find?_eq_some found
        have ne : k ≠ h := fun eq => detached.unlisted (eq ▸ listed)
        exact Repository.record_modify_ne ne change
      snapshot
      exportAll := by
        rw [Registry.exportAll, snapshot]
        rfl }

end Registry

end LayoutTech
