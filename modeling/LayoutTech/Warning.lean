/-!
# Warnings

What goes on although something was odd is reported by a warning: a sentence and the values it is
about. A `Traced` computation is a result or a fault together with the warnings raised on the way to
it; the result of a sequence depends on the results of its steps alone.
-/

namespace LayoutTech

structure Warning where
  sentence : String
  fields : List (String × String)
deriving DecidableEq, Repr

/-- The sentence and, after it, each field as `name=value`. -/
def Warning.message (w : Warning) : String :=
  w.fields.foldl (fun text (name, value) => text ++ " " ++ name ++ "=" ++ value) w.sentence

/-- A result or a fault, and the warnings raised on the way to it. -/
structure Traced (ε α : Type) where
  result : Except ε α
  warnings : List Warning

namespace Traced

variable {ε δ α β : Type}

instance : Monad (Traced ε) where
  pure a := ⟨.ok a, []⟩
  bind x f := match x.result with
    | .error e => ⟨.error e, x.warnings⟩
    | .ok a => ⟨(f a).result, x.warnings ++ (f a).warnings⟩

def fail (e : ε) : Traced ε α := ⟨.error e, []⟩

def warn (w : Warning) : Traced ε Unit := ⟨.ok (), [w]⟩

def ofExcept (x : Except ε α) : Traced ε α := ⟨x, []⟩

/-- The same warnings, with another fault in place of a fault. -/
def mapError (f : ε → δ) (x : Traced ε α) : Traced δ α := ⟨x.result.mapError f, x.warnings⟩

/-- The outcome as a result, so that a fault does not stop what follows. -/
def attempt (x : Traced ε α) : Traced δ (Except ε α) := ⟨.ok x.result, x.warnings⟩

@[simp] theorem result_pure (a : α) : (pure a : Traced ε α).result = .ok a := rfl

@[simp] theorem result_bind (x : Traced ε α) (f : α → Traced ε β) :
    (x >>= f).result = x.result >>= fun a => (f a).result := by
  cases x with
  | mk r w => cases r <;> rfl

theorem result_bind_of_ok {x : Traced ε α} {a : α} (h : x.result = .ok a) (f : α → Traced ε β) :
    (x >>= f).result = (f a).result := by
  rw [result_bind, h]
  rfl

theorem bind_eq_ok {x : Except ε α} {f : α → Except ε β} {b : β} :
    (x >>= f) = .ok b ↔ ∃ a, x = .ok a ∧ f a = .ok b := by
  cases x with
  | error e => exact ⟨nofun, nofun⟩
  | ok a => exact ⟨fun h => ⟨a, rfl, h⟩, fun ⟨_, same, h⟩ => Except.ok.inj same ▸ h⟩

theorem result_bind_eq_ok {x : Traced ε α} {f : α → Traced ε β} {b : β} :
    (x >>= f).result = .ok b ↔ ∃ a, x.result = .ok a ∧ (f a).result = .ok b := by
  rw [result_bind, bind_eq_ok]

/-- A row of steps succeeds when the last step does after the others. -/
theorem result_foldlM_concat {f : α → β → Traced ε α} {a c : α} {bs : List β} {b : β} :
    ((bs ++ [b]).foldlM f a).result = .ok c ↔
      ∃ m, (bs.foldlM f a).result = .ok m ∧ (f m b).result = .ok c := by
  induction bs generalizing a with
  | nil =>
    simp only [List.nil_append, List.foldlM_cons, List.foldlM_nil, result_bind_eq_ok, result_pure, Except.ok.injEq]
    exact ⟨fun ⟨_, h, same⟩ => ⟨a, rfl, same ▸ h⟩, fun ⟨_, same, h⟩ => ⟨c, same ▸ h, rfl⟩⟩
  | cons first rest ih =>
    simp only [List.cons_append, List.foldlM_cons, result_bind_eq_ok, ih]
    exact ⟨fun ⟨n, hn, m, hm, h⟩ => ⟨m, ⟨n, hn, hm⟩, h⟩, fun ⟨m, ⟨n, hn, hm⟩, h⟩ => ⟨n, hn, m, hm, h⟩⟩

@[simp] theorem result_fail (e : ε) : (fail e : Traced ε α).result = .error e := rfl

@[simp] theorem result_warn (w : Warning) : (warn w : Traced ε Unit).result = .ok () := rfl

@[simp] theorem result_ofExcept (x : Except ε α) : (ofExcept x).result = x := rfl

@[simp] theorem result_mapError (f : ε → δ) (x : Traced ε α) :
    (x.mapError f).result = x.result.mapError f := rfl

theorem mapError_eq_ok {f : ε → δ} {x : Except ε α} {a : α} : x.mapError f = .ok a ↔ x = .ok a := by
  cases x with
  | error e => exact ⟨nofun, nofun⟩
  | ok b => exact ⟨fun h => congrArg Except.ok (Except.ok.inj h), fun h => congrArg Except.ok (Except.ok.inj h)⟩

theorem ofExcept_mapError_eq_ok {f : ε → δ} {x : Except ε α} {a : α} :
    (ofExcept (x.mapError f)).result = .ok a ↔ x = .ok a :=
  mapError_eq_ok

@[simp] theorem result_attempt (x : Traced ε α) :
    (x.attempt : Traced δ _).result = .ok x.result := rfl

end Traced

end LayoutTech
