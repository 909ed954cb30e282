import LayoutTech.Proofs.Text.Cutting
import LayoutTech.Xml.Entity

/-!
# Written text

Written text is read back as it was, and holds no character that could end it.
-/

namespace LayoutTech.Xml.Entity

/-! ## Reading an entity -/

theorem decodeFrom_of_ne {total : Nat} {c : Char} {cs : List Char} (h : c ≠ '&') :
    decodeFrom total (c :: cs) = (c :: ·) <$> decodeFrom total cs := by
  rw [decodeFrom, if_neg h]
  rfl

/-- An entity is read as its character, wherever it stands in the text. -/
theorem decodeFrom_entity {total : Nat} {name rest : List Char} {c : Char}
    (inside : ∀ c ∈ name, insideEntity c) (one : ∀ start stop, decodeOne start stop name = .ok c) :
    decodeFrom total ('&' :: name ++ ';' :: rest) = (c :: ·) <$> decodeFrom total rest := by
  rw [List.cons_append, decodeFrom, if_pos rfl]
  have stop : ¬insideEntity ';' := by decide
  split
  · next left eq =>
    rw [Text.dropWhile_stop inside stop, List.cons.injEq] at eq
    obtain ⟨-, rfl⟩ := eq
    simp only [Text.takeWhile_stop inside stop, one]
    rfl
  · next h => exact absurd (Text.dropWhile_stop inside stop rest) (h rest)

/-! ## The characters that have names -/

theorem nameOf?_cases {c : Char} {name : List Char} (h : nameOf? c = some name) : (c, name) ∈ named := by
  unfold nameOf? at h
  obtain ⟨l₁, l₂, eq, -⟩ := List.lookup_eq_some_iff.1 h
  rw [eq]
  simp

theorem decodeOne_name {c : Char} {name : List Char} (h : nameOf? c = some name) (start stop : Nat) :
    decodeOne start stop name = .ok c := by
  have h := nameOf?_cases h
  simp only [named, List.mem_cons, Prod.mk.injEq, List.not_mem_nil, or_false] at h
  rcases h with ⟨rfl, rfl⟩ | ⟨rfl, rfl⟩ | ⟨rfl, rfl⟩ | ⟨rfl, rfl⟩ | ⟨rfl, rfl⟩ <;> rfl

theorem insideEntity_name {c : Char} {name : List Char} (h : nameOf? c = some name) :
    ∀ d ∈ name, insideEntity d := by
  have all : named.all fun entry => entry.2.all insideEntity := by decide
  exact List.all_eq_true.1 (List.all_eq_true.1 all _ (nameOf?_cases h))

/-- The characters that written text is free of. -/
def isMark (c : Char) : Bool := c == '<' || c == '>' || c == '"' || c == '\''

theorem isMark_name {c : Char} {name : List Char} (h : nameOf? c = some name) : ∀ d ∈ name, ¬isMark d := by
  have all : named.all fun entry => !entry.2.any isMark := by decide
  have free := List.all_eq_true.1 all _ (nameOf?_cases h)
  intro d hd mark
  rw [List.any_eq_true.2 ⟨d, hd, mark⟩] at free
  contradiction

theorem ne_of_nameOf?_none {c d : Char} (h : nameOf? c = none) (hd : (nameOf? d).isSome) : c ≠ d := by
  rintro rfl
  rw [h] at hd
  contradiction

theorem isMark_of_nameOf?_none {c : Char} (h : nameOf? c = none) : ¬isMark c := by
  simp only [isMark, Bool.or_eq_true, beq_iff_eq, not_or]
  exact ⟨⟨⟨ne_of_nameOf?_none h rfl, ne_of_nameOf?_none h rfl⟩, ne_of_nameOf?_none h rfl⟩,
    ne_of_nameOf?_none h rfl⟩

/-! ## Written text -/

theorem decodeFrom_encode (total : Nat) (cs : List Char) : decodeFrom total (encode cs) = .ok cs := by
  induction cs with
  | nil => rw [encode, decodeFrom]
  | cons c cs ih =>
      cases hc : nameOf? c with
      | none =>
          have ne : c ≠ '&' := ne_of_nameOf?_none hc rfl
          simp only [encode, hc]
          rw [decodeFrom_of_ne ne, ih]
          rfl
      | some name =>
          simp only [encode, hc]
          rw [decodeFrom_entity (insideEntity_name hc) (decodeOne_name hc), ih]
          rfl

theorem decode_encode (cs : List Char) : decode (encode cs) = .ok cs := decodeFrom_encode _ cs

theorem isMark_encode (cs : List Char) : ∀ d ∈ encode cs, ¬isMark d := by
  induction cs with
  | nil => simp [encode]
  | cons c cs ih =>
      intro d hd
      cases hc : nameOf? c with
      | none =>
          simp only [encode, hc, List.mem_cons] at hd
          rcases hd with rfl | hd
          · exact isMark_of_nameOf?_none hc
          · exact ih d hd
      | some name =>
          simp only [encode, hc, List.cons_append, List.mem_cons, List.mem_append] at hd
          rcases hd with rfl | hd | rfl | hd
          · decide
          · exact isMark_name hc d hd
          · decide
          · exact ih d hd

theorem encode_cons_ne_nil (c : Char) (cs : List Char) : encode (c :: cs) ≠ [] := by
  rw [encode]
  split <;> simp

theorem encode_eq_nil {cs : List Char} : encode cs = [] ↔ cs = [] := by
  cases cs with
  | nil => simp [encode]
  | cons c cs => simp [encode_cons_ne_nil]

/-- Text without the characters that have names is written as it is. -/
theorem encode_of_unnamed {cs : List Char} (h : ∀ c ∈ cs, nameOf? c = none) : encode cs = cs := by
  induction cs with
  | nil => rfl
  | cons c cs ih =>
      rw [List.forall_mem_cons] at h
      simp only [encode, h.1, ih h.2]

end LayoutTech.Xml.Entity
