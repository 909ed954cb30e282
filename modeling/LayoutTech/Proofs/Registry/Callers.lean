import LayoutTech.Proofs.Registry.Handles

/-!
# Callers

A caller of a registry has records of its own: those that it stores copies of, and copies of those that it found. What
happens to them is never seen in the registry.
-/

namespace LayoutTech

/-- A registry and the records of a caller. -/
structure Session where
  registry : Registry
  own : List Technology := []

/-- What a caller can do: with the registry, with its own records, and with copies from one to the other. -/
inductive Act where
  | operate (op : Operation)
  | copy (handle : Handle)
  | edit (place : Nat) (change : Technology → Technology)
  | register (place : Nat)
  | store (policy : CollisionPolicy) (places : List Nat)

namespace Act

/-- What is written through a handle. -/
def through (handle : Handle) : Act → Technology → Technology
  | .operate op => op.through handle
  | _ => id

/-- What is written through a handle, one act after another. -/
def written (handle : Handle) (acts : List Act) (t : Technology) : Technology :=
  acts.foldl (fun t act => act.through handle t) t

/-- The act without what is written through a handle. -/
def muted (handle : Handle) : Act → Act
  | .operate op => .operate (op.muted handle)
  | act => act

end Act

namespace Session

def repository (s : Session) : Repository := s.registry.repository

/-- The caller's records at the places. -/
def owned (s : Session) (places : List Nat) : List Technology := places.filterMap (s.own[·]?)

/-- A place where the caller has no record is passed over. -/
def act (s : Session) : Act → Session
  | .operate op => { s with registry := (s.registry.step op).2 }
  | .copy handle => { s with own := s.own ++ [s.repository.record handle] }
  | .edit place change => { s with own := s.own.modify place change }
  | .register place =>
    match s.own[place]? with
    | some t => { s with registry := (s.registry.step (.register t)).2 }
    | none => s
  | .store policy places =>
    { s with registry := { s.registry with repository := (s.repository.insertAll policy (s.owned places)).2 } }

def after (s : Session) (acts : List Act) : Session := acts.foldl act s

variable {s : Session} {h : Handle} {a : Act} {acts : List Act}

theorem evolves_act (s : Session) (a : Act) : s.repository.Evolves a.through (s.act a).repository := by
  cases a with
  | operate op => exact s.registry.evolves_step op
  | copy handle => exact .refl _
  | edit place change => exact .refl _
  | register place =>
      rw [act]
      split
      · next t _ => exact s.registry.evolves_step (.register t)
      · exact .refl _
  | store policy places => exact Repository.evolves_insertAfter [] s.repository policy (s.owned places)

theorem evolves_after (s : Session) (acts : List Act) :
    s.repository.Evolves (Act.written · acts) (s.after acts).repository := by
  induction acts generalizing s with
  | nil => exact .refl _
  | cons a acts ih => exact (s.evolves_act a).trans (ih (s.act a))

def write (s : Session) (h : Handle) (change : Technology → Technology) : Session :=
  { s with registry := s.registry.write h change }

theorem act_write (detached : s.repository.IsDetached h) (change : Technology → Technology) (ne : a ≠ .copy h) :
    ∃ later, (s.write h change).act a = (s.act (a.muted h)).write h later := by
  cases a with
  | operate op =>
      obtain ⟨later, eq⟩ := Registry.step_write detached change op
      exact ⟨later, congrArg (fun result : Answer × Registry => { s with registry := result.2 }) eq⟩
  | copy handle =>
      have other : handle ≠ h := fun eq => ne (congrArg Act.copy eq)
      have same : (s.write h change).repository.record handle = s.repository.record handle :=
        Repository.record_modify_ne other change
      exact ⟨change, congrArg (fun t => { s.write h change with own := s.own ++ [t] }) same⟩
  | edit place other => exact ⟨change, rfl⟩
  | register place =>
      have own : (s.write h change).own = s.own := rfl
      cases record : s.own[place]? with
      | none =>
          refine ⟨change, ?_⟩
          simp only [act, Act.muted, own, record]
      | some t =>
          obtain ⟨later, eq⟩ := Registry.step_write detached change (.register t)
          refine ⟨later, ?_⟩
          simp only [act, Act.muted, own, record]
          exact congrArg (fun result : Answer × Registry => { s with registry := result.2 }) eq
  | store policy places =>
      have stored := detached.insertAfter_modify change [] policy (s.owned places)
      exact ⟨change, congrArg (fun result : List (String × Repository.Outcome) × Repository =>
        { s with registry := { s.registry with repository := result.2 } }) stored⟩

theorem after_write (detached : s.repository.IsDetached h) (change : Technology → Technology)
    (uncopied : .copy h ∉ acts) :
    ∃ later, (s.write h change).after acts = (s.after (acts.map (Act.muted h))).write h later := by
  induction acts generalizing s change with
  | nil => exact ⟨change, rfl⟩
  | cons a acts ih =>
      rw [List.mem_cons, not_or] at uncopied
      obtain ⟨later, eq⟩ := act_write detached change (Ne.symm uncopied.1)
      obtain ⟨last, rest⟩ := ih ((s.evolves_act (a.muted h)).isDetached detached) later uncopied.2
      refine ⟨last, ?_⟩
      rw [after, List.foldl_cons, eq]
      exact rest

/-- Handles keep apart the records that are behind them, and those that the caller has. -/
structure Isolated (s : Session) : Prop where
  /-- The record behind a handle is changed by what is written through the handle, and by nothing else. -/
  written : ∀ acts h, s.repository.IsIssued h →
    (s.after acts).repository.record h = Act.written h acts (s.repository.record h)
  /-- What comes to be listed is listed under a new handle. -/
  fresh : ∀ acts, ∀ h ∈ (s.after acts).repository.listed, h ∈ s.repository.listed ∨ ¬s.repository.IsIssued h
  /-- A record that is created is found behind a new handle, and has nothing but what is written through it. -/
  created : ∀ name h next, s.registry.create name = .ok (h, next) → ¬s.repository.IsIssued h ∧
    (s.act (.operate (.create name))).registry.lookup name = some h ∧
    ∀ acts, ((s.act (.operate (.create name))).after acts).repository.record h = Act.written h acts { name }
  /-- A record of the caller's that is registered is found behind a new handle, and is what it was then, but for what is
  written through the handle. -/
  registered : ∀ place t h next, s.own[place]? = some t → s.registry.register t = .ok (h, next) →
    ¬s.repository.IsIssued h ∧ (s.act (.register place)).registry.lookup t.name = some h ∧
      ∀ acts, ((s.act (.register place)).after acts).repository.record h = Act.written h acts t
  /-- What a batch lists anew is one of its records, behind a new handle, and stays what it was in the same way. -/
  stored : ∀ policy places, ∀ h ∈ (s.act (.store policy places)).repository.listed, h ∉ s.repository.listed →
    ¬s.repository.IsIssued h ∧ ∃ t ∈ s.owned places,
      ∀ acts, ((s.act (.store policy places)).after acts).repository.record h = Act.written h acts t
  /-- Of each name that a batch takes in, whether new or in place of another record, the first record of the batch is
  found behind a new handle, and stays what it was in the same way. -/
  accepted : ∀ policy places name outcome,
    (name, outcome) ∈ (s.repository.insertAll policy (s.owned places)).1 → outcome ≠ .duplicate →
      ∃ h t, (s.owned places).find? (·.name == name) = some t ∧ ¬s.repository.IsIssued h ∧
        (s.act (.store policy places)).registry.lookup name = some h ∧
        ∀ acts, ((s.act (.store policy places)).after acts).repository.record h = Act.written h acts t
  /-- The handle that is found leaves with its name. -/
  removed : ∀ name h, s.registry.lookup name = some h → (s.act (.operate (.remove name))).repository.IsDetached h
  cleared : ∀ h ∈ s.repository.listed, (s.act (.operate .clear)).repository.IsDetached h
  /-- The handle that is found leaves when its record is replaced. -/
  replaced : ∀ name h ts, s.registry.lookup name = some h → name ∈ ts.map Technology.name →
    (s.repository.insertAll .replace ts).2.IsDetached h
  /-- A handle that has left stays out, and what is written through it shows nowhere else, now or later. -/
  detached : ∀ h, s.repository.IsDetached h → ∀ acts,
    (s.after acts).repository.IsDetached h ∧ (∀ name, (s.after acts).registry.lookup name ≠ some h) ∧
      (∀ change, (s.after (acts ++ [.operate (.write h change)])).registry.LooksLike (s.after acts).registry) ∧
      (.copy h ∉ acts → (s.after acts).registry.LooksLike (s.after (acts.map (Act.muted h))).registry)

theorem written_after {t : Technology} (issued : s.repository.IsIssued h) (record : s.repository.record h = t)
    (acts : List Act) : (s.after acts).repository.record h = Act.written h acts t := by
  rw [(s.evolves_after acts).record h issued, record]

theorem registered_after {t : Technology} {next : Registry} (stored : s.registry.register t = .ok (h, next)) :
    ¬s.repository.IsIssued h ∧ next.lookup t.name = some h ∧
      ∀ acts, (after { s with registry := next } acts).repository.record h = Act.written h acts t := by
  obtain ⟨new, rfl, rfl⟩ := Registry.eq_of_register stored
  have listed : s.repository.fresh ∈ (s.repository.append t).listed :=
    List.mem_append_right _ (List.mem_singleton_self _)
  exact ⟨Nat.lt_irrefl _, Repository.find?_append_new new,
    written_after ((s.repository.append t).stored _ listed) (Repository.record_append_fresh s.repository t)⟩

theorem isDetached_of_found {name : String} {next : Repository} {f : Handle → Technology → Technology}
    (evolves : s.repository.Evolves f next) (found : s.registry.lookup name = some h) (left : h ∉ next.listed) :
    next.IsDetached h where
  issued := evolves.issued h (s.repository.stored h (List.mem_of_find?_eq_some found))
  unlisted := left

theorem looksLike_after (detached : s.repository.IsDetached h) (uncopied : .copy h ∉ acts) :
    (s.after acts).registry.LooksLike (s.after (acts.map (Act.muted h))).registry := by
  have same : s.write h id = s := congrArg (fun repository => { s with registry := { s.registry with repository } })
    (s.repository.modify_id h)
  obtain ⟨later, eq⟩ := after_write detached id uncopied
  rw [same] at eq
  rw [eq]
  exact Registry.looksLike_write ((s.evolves_after _).isDetached detached) later

/-- In every registry, whoever holds whichever of its handles. -/
theorem handles_isolated (s : Session) : s.Isolated where
  written acts h issued := written_after issued rfl acts
  fresh acts := (s.evolves_after acts).listed
  created name h next stored := by
    have step : s.act (.operate (.create name)) = { s with registry := next } := by
      rw [act, Registry.step, stored]
      rfl
    rw [step]
    exact registered_after stored
  registered place t h next own stored := by
    have step : s.act (.register place) = { s with registry := next } := by
      simp only [act, own, Registry.step, stored]
      rfl
    rw [step]
    exact registered_after stored
  stored policy places h listed unlisted := by
    obtain ⟨new, record⟩ := (Repository.listed_insertAfter listed).resolve_left unlisted
    refine ⟨new, _, record, ?_⟩
    exact written_after ((s.act (.store policy places)).repository.stored h listed) rfl
  accepted policy places name outcome mem taken := by
    obtain ⟨h, t, first, new, found, record⟩ := Repository.find?_insertAfter_taken taken mem
    have issued := (s.act (.store policy places)).repository.stored h (List.mem_of_find?_eq_some found)
    exact ⟨h, t, first, new, found, written_after issued record⟩
  removed name h found :=
    isDetached_of_found (s.evolves_act _) found (Repository.notMem_listed_erase found)
  cleared h listed :=
    ⟨(s.evolves_act (.operate .clear)).issued h (s.repository.stored h listed), List.not_mem_nil⟩
  replaced name h ts found batch :=
    isDetached_of_found (Repository.evolves_insertAfter [] _ _ _) found (Repository.notMem_listed_insertAll found batch)
  detached h detached acts := by
    have last := (s.evolves_after acts).isDetached detached
    refine ⟨last, fun name found => last.unlisted (List.mem_of_find?_eq_some found), fun change => ?_,
      looksLike_after detached⟩
    rw [after, List.foldl_append]
    exact Registry.looksLike_write last change

theorem handles_isolated_cmos :
    let describe (text : String) (t : Technology) : Technology := { t with description := text }
    let finfet : Technology := { name := "finfet" }
    let bipolar : Technology := { name := "bipolar", group := "own" }
    let ops : List Operation := [.create "cmos", .create "bipolar", .remove "cmos"]
    let s : Session := ⟨(run Registry.step {} ops).2, [finfet, bipolar]⟩
    let acts : List Act :=
      [.operate (.write ⟨0⟩ (describe "gone")), .copy ⟨1⟩, .edit 2 (describe "copied"), .operate (.create "cmos"),
        .operate (.write ⟨1⟩ (describe "kept")), .store .replace [2, 0, 1], .edit 0 (describe "changed")]
    let stored : Session := s.act (.store .replace [0, 1, 0])
    (s.after acts).repository.record ⟨1⟩ = describe "kept" { name := "bipolar" } ∧
      ((s.act (.register 0)).after acts).repository.record ⟨2⟩ = finfet ∧
      stored.registry.lookup "finfet" = some ⟨2⟩ ∧ (stored.after acts).repository.record ⟨2⟩ = finfet ∧
      stored.registry.lookup "bipolar" = some ⟨3⟩ ∧ (stored.after acts).repository.record ⟨3⟩ = bipolar ∧
      stored.repository.IsDetached ⟨1⟩ ∧
      (s.after acts).repository.IsDetached ⟨0⟩ ∧
      (s.after acts).registry.LooksLike (s.after (acts.map (Act.muted ⟨0⟩))).registry ∧
      (s.act (.operate (.remove "bipolar"))).repository.IsDetached ⟨1⟩ := by
  intro describe finfet bipolar ops s acts stored
  have isolated := handles_isolated s
  have gone : s.repository.IsDetached ⟨0⟩ := ⟨Nat.zero_lt_two, by decide⟩
  have kept (t : Technology) : Act.written ⟨1⟩ acts t = describe "kept" t := rfl
  obtain ⟨out, -, -, unseen⟩ := isolated.detached ⟨0⟩ gone acts
  -- The batch has one new name, twice, and one that is taken.
  have batch (name : String) (outcome : Repository.Outcome) (h : Handle) (t : Technology)
      (mem : (name, outcome) ∈ (s.repository.insertAll .replace (s.owned [0, 1, 0])).1) (taken : outcome ≠ .duplicate)
      (found : stored.registry.lookup name = some h) (first : (s.owned [0, 1, 0]).find? (·.name == name) = some t) :
      (stored.after acts).repository.record h = Act.written h acts t := by
    obtain ⟨k, u, search, -, lookup, record⟩ := isolated.accepted .replace [0, 1, 0] name outcome mem taken
    obtain rfl := Option.some.inj (lookup.symm.trans found)
    obtain rfl := Option.some.inj (search.symm.trans first)
    exact record acts
  have inserted := batch "finfet" .inserted ⟨2⟩ finfet (by decide) (by decide) rfl rfl
  have replaced := batch "bipolar" .replaced ⟨3⟩ bipolar (by decide) (by decide) rfl rfl
  exact ⟨(isolated.written acts ⟨1⟩ Nat.one_lt_two).trans (kept _), (isolated.registered 0 _ ⟨2⟩ _ rfl rfl).2.2 acts,
    rfl, inserted, rfl, replaced, isolated.replaced "bipolar" ⟨1⟩ _ rfl (by decide), out, unseen (by simp [acts]),
    isolated.removed "bipolar" ⟨1⟩ rfl⟩

end Session

end LayoutTech
