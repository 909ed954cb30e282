import LayoutTech.Proofs.Registry.Batches

/-!
# One insertion after another

A batch that refuses taken names does what inserting its records one by one does, where a fault stops nothing.
It may therefore be cut into several batches.
-/

namespace LayoutTech.Repository

/-! ## Single insertions -/

/-- The answers to inserting records in order, and the repository after the last of them. -/
def insertEach (r : Repository) : List Technology → List (Except Fault Handle) × Repository
  | [] => ([], r)
  | t :: ts =>
    match r.insert t with
    | .ok (handle, next) => (.ok handle :: (next.insertEach ts).1, (next.insertEach ts).2)
    | .error fault => (.error fault :: (r.insertEach ts).1, (r.insertEach ts).2)

variable {r : Repository} {t : Technology} {ts : List Technology} {seen : List String}

theorem insertEach_known (known : t.name ∈ r.names) :
    r.insertEach (t :: ts) = (.error (.duplicateName t.name) :: (r.insertEach ts).1, (r.insertEach ts).2) := by
  rw [insertEach, insert, if_pos (contains_iff_mem.2 known)]

theorem insertEach_new (new : t.name ∉ r.names) :
    r.insertEach (t :: ts) =
      (.ok r.fresh :: ((r.append t).insertEach ts).1, ((r.append t).insertEach ts).2) := by
  rw [insertEach, insert, if_neg fun c => new (contains_iff_mem.1 c)]

theorem insertEach_append (r : Repository) (ts us : List Technology) :
    r.insertEach (ts ++ us) =
      ((r.insertEach ts).1 ++ ((r.insertEach ts).2.insertEach us).1, ((r.insertEach ts).2.insertEach us).2) := by
  induction ts generalizing r with
  | nil => rfl
  | cons t ts ih =>
      by_cases known : t.name ∈ r.names
      · rw [List.cons_append, insertEach_known known, insertEach_known known, ih]
        rfl
      · rw [List.cons_append, insertEach_new known, insertEach_new known, ih]
        rfl

theorem length_insertEach (r : Repository) (ts : List Technology) : (r.insertEach ts).1.length = ts.length := by
  induction ts generalizing r with
  | nil => rfl
  | cons t ts ih =>
      by_cases known : t.name ∈ r.names
      · rw [insertEach_known known, List.length_cons, ih, List.length_cons]
      · rw [insertEach_new known, List.length_cons, ih, List.length_cons]

/-- An insertion answers with a handle, or with the fault that its own name is taken. -/
theorem insertEach_answers {i : Nat} (place : ts[i]? = some t) :
    (∃ handle, (r.insertEach ts).1[i]? = some (.ok handle)) ∨
      (r.insertEach ts).1[i]? = some (.error (.duplicateName t.name)) := by
  induction ts generalizing r i with
  | nil => cases place
  | cons u us ih =>
      cases i with
      | zero =>
          obtain rfl : u = t := Option.some.inj place
          by_cases known : u.name ∈ r.names
          · rw [insertEach_known known]
            exact .inr rfl
          · rw [insertEach_new known]
            exact .inl ⟨_, rfl⟩
      | succ i =>
          by_cases known : u.name ∈ r.names
          · rw [insertEach_known known]
            exact ih place
          · rw [insertEach_new known]
            exact ih place

/-! ## Batches -/

/-- What a batch says of a record for which the insertion answers this. -/
def Outcome.ofAnswer : Except Fault Handle → Outcome
  | .ok _ => .inserted
  | .error _ => .duplicate

/-- What the batch had before is listed by then, so that it is refused without being looked up as seen. -/
theorem insertAfter_reject (listed : ∀ name ∈ seen, name ∈ r.names) (ts : List Technology) :
    insertAfter seen r .reject ts =
      (List.zipWith (fun t answer => (t.name, .ofAnswer answer)) ts (r.insertEach ts).1, (r.insertEach ts).2) := by
  induction ts generalizing seen r with
  | nil => rfl
  | cons t ts ih =>
      obtain ⟨outcome, next, step, eq⟩ := insertAfter_cons seen r .reject t ts
      have later : ∀ name ∈ t.name :: seen, name ∈ next.names := by
        rw [List.forall_mem_cons]
        refine ⟨?_, fun name mem => step.mem_names.2 (.inl (listed name mem))⟩
        cases step with
        | inserted => exact names_append r t ▸ List.mem_append_right _ List.mem_cons_self
        | replaced _ _ replace => cases replace
        | repeated known => exact listed _ known
        | refused known _ => exact known
      rw [eq, ih later]
      cases step with
      | inserted _ new => rw [insertEach_new new]; rfl
      | replaced _ _ replace => cases replace
      | repeated known => rw [insertEach_known (listed _ known)]; rfl
      | refused known _ => rw [insertEach_known known]; rfl

theorem insertAll_eq_insertEach (r : Repository) (ts : List Technology) :
    r.insertAll .reject ts =
      (List.zipWith (fun t answer => (t.name, .ofAnswer answer)) ts (r.insertEach ts).1, (r.insertEach ts).2) :=
  insertAfter_reject (List.forall_mem_nil _) ts

theorem insertAll_append (r : Repository) (ts us : List Technology) :
    r.insertAll .reject (ts ++ us) =
      ((r.insertAll .reject ts).1 ++ ((r.insertAll .reject ts).2.insertAll .reject us).1,
        ((r.insertAll .reject ts).2.insertAll .reject us).2) := by
  simp only [insertAll_eq_insertEach, insertEach_append]
  rw [List.zipWith_append (length_insertEach r ts).symm]

/-- A batch that refuses taken names leaves the repository, handles and records, as inserting one by one does. A
record is inserted where its insertion succeeds, and is a duplicate where its name is refused. A batch of two
parts is the batch of the first part and then that of the second. -/
theorem insertAll_reject (r : Repository) (ts : List Technology) :
    (r.insertAll .reject ts).2 = (r.insertEach ts).2 ∧
      (r.insertAll .reject ts).1.length = ts.length ∧ (r.insertEach ts).1.length = ts.length ∧
      (∀ (i : Nat) (t : Technology), ts[i]? = some t → ∃ outcome answer,
        (r.insertAll .reject ts).1[i]? = some (t.name, outcome) ∧
        (r.insertEach ts).1[i]? = some answer ∧ (outcome = .inserted ↔ ∃ handle, answer = .ok handle) ∧
        (outcome = .duplicate ↔ answer = .error (.duplicateName t.name))) ∧
      ∀ first second, ts = first ++ second → r.insertAll .reject ts =
        ((r.insertAll .reject first).1 ++ ((r.insertAll .reject first).2.insertAll .reject second).1,
          ((r.insertAll .reject first).2.insertAll .reject second).2) := by
  have length : (r.insertAll .reject ts).1.length = ts.length := by
    rw [insertAll_eq_insertEach, List.length_zipWith, length_insertEach, Nat.min_self]
  refine ⟨by rw [insertAll_eq_insertEach], length, length_insertEach r ts, ?_, ?_⟩
  · intro i t place
    rcases insertEach_answers (r := r) place with ⟨handle, answer⟩ | answer
    · refine ⟨.inserted, .ok handle, ?_, answer, by simp, by simp⟩
      rw [insertAll_eq_insertEach, List.getElem?_zipWith, place, answer]
      rfl
    · refine ⟨.duplicate, .error (.duplicateName t.name), ?_, answer, by simp, by simp⟩
      rw [insertAll_eq_insertEach, List.getElem?_zipWith, place, answer]
      rfl
  · rintro first second rfl
    exact insertAll_append r first second

end LayoutTech.Repository
