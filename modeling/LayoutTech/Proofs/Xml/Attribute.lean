import LayoutTech.Proofs.Xml.Entity
import LayoutTech.Xml.Document
import LayoutTech.Xml.Event

/-!
# Written tags

The inside of a written tag is read back as its name and its attributes, when the name and the keys
are made of characters that no markup is made of.
-/

namespace LayoutTech.Xml

/-- A character that neither markup nor a blank is made of. -/
def isNameChar (c : Char) : Bool :=
  !Text.isBlank c && !(['<', '>', '/', '=', '&', '!', '?', '"', '\''].contains c)

/-- A name that can stand in markup: it is not empty, and no character of it is markup or blank. -/
def IsClean (name : String) : Prop := name.toList ≠ [] ∧ ∀ c ∈ name.toList, isNameChar c

instance (name : String) : Decidable (IsClean name) :=
  decidable_of_iff (name.toList ≠ [] ∧ name.toList.all isNameChar) (by rw [IsClean, List.all_eq_true])

theorem isBlank_of_isMarkupBlank {c : Char} (h : isMarkupBlank c) : Text.isBlank c := by
  simp only [isMarkupBlank, Bool.or_eq_true, beq_iff_eq] at h
  rcases h with ((rfl | rfl) | rfl) | rfl <;> decide

theorem isNameChar_ne {c d : Char} (h : isNameChar c) (hd : ¬isNameChar d) : c ≠ d := by
  rintro rfl
  exact hd h

theorem not_isMarkupBlank_of_isNameChar {c : Char} (h : isNameChar c) : ¬isMarkupBlank c := by
  intro hb
  simp [isNameChar, isBlank_of_isMarkupBlank hb] at h

theorem insideKey_of_isNameChar {c : Char} (h : isNameChar c) : Attributes.insideKey c := by
  simp only [Attributes.insideKey, Bool.and_eq_true, bne_iff_ne, ne_eq, Bool.not_eq_true']
  exact ⟨isNameChar_ne h (by decide), by simpa using not_isMarkupBlank_of_isNameChar h⟩

theorem IsClean.exists_cons {name : String} (h : IsClean name) :
    ∃ c cs, name.toList = c :: cs ∧ isNameChar c ∧ ∀ d ∈ cs, isNameChar d := by
  obtain ⟨ne, all⟩ := h
  obtain ⟨c, cs, eq⟩ := List.exists_cons_of_ne_nil ne
  rw [eq, List.forall_mem_cons] at all
  exact ⟨c, cs, eq, all⟩

namespace Attributes

/-! ## A written attribute -/

theorem value_written (total : Nat) (content rest : List Char) :
    value total ('"' :: Entity.encode content ++ '"' :: rest) = .ok (content, rest) := by
  have free : ∀ c ∈ Entity.encode content, (c != '"') = true := by
    intro c hc
    rw [bne_iff_ne]
    rintro rfl
    exact Entity.isMark_encode content _ hc (by decide)
  have stop : ¬('"' != '"') := by decide
  simp only [value, List.cons_append, true_or, if_true, Text.dropWhile_stop free stop,
    Text.takeWhile_stop free stop, Entity.decode_encode]

theorem one_written (total : Nat) {seen : List (List Char × Nat)} {key : List Char}
    (new : seen.lookup key = none) (content rest : List Char) :
    one total seen key ('=' :: '"' :: Entity.encode content ++ '"' :: rest) =
      .ok ((String.ofList key, String.ofList content), rest) := by
  have written := value_written total content rest
  simp only [List.cons_append] at written ⊢
  have notBlank : ¬isMarkupBlank '"' := by decide
  simp only [one, List.dropWhile_cons_of_neg (show ¬isMarkupBlank '=' by decide), new,
    List.dropWhile_cons_of_neg notBlank, written]

/-! ## The row of attributes -/

theorem readFrom_nil (total : Nat) (seen : List (List Char × Nat)) : readFrom total seen [] = .ok [] := by
  rw [readFrom]
  rfl

theorem readFrom_of_one {total : Nat} {seen : List (List Char × Nat)} {cs after left : List Char} {c : Char}
    {pair : String × String} (start : cs.dropWhile isMarkupBlank = c :: after)
    (first : one total seen (c :: after.takeWhile insideKey) (after.dropWhile insideKey) = .ok (pair, left)) :
    readFrom total seen cs = (pair :: ·) <$>
      readFrom total ((c :: after.takeWhile insideKey, total - Text.byteLength (c :: after)) :: seen) left := by
  rw [readFrom]
  split
  · next eq => rw [start] at eq; contradiction
  · next d ds eq =>
    rw [start, List.cons.injEq] at eq
    obtain ⟨rfl, rfl⟩ := eq
    simp only
    split
    · next hf => rw [first] at hf; contradiction
    · next hf =>
      rw [first, Except.ok.injEq, Prod.mk.injEq] at hf
      obtain ⟨rfl, rfl⟩ := hf
      rfl

theorem readFrom_attributeText (total : Nat) {seen : List (List Char × Nat)} {pair : String × String}
    (clean : IsClean pair.1) (new : seen.lookup pair.1.toList = none) (rest : List Char) :
    ∃ position, readFrom total seen (Document.attributeText pair ++ rest) =
      (pair :: ·) <$> readFrom total ((pair.1.toList, position) :: seen) rest := by
  obtain ⟨key, content⟩ := pair
  obtain ⟨c, cs, eq, hc, hcs⟩ := clean.exists_cons
  have inside : ∀ d ∈ cs, insideKey d := fun d hd => insideKey_of_isNameChar (hcs d hd)
  have stop : ¬insideKey '=' := by decide
  have first := one_written total (eq ▸ new) content.toList rest
  rw [List.cons_append] at first
  have start : (Document.attributeText (key, content) ++ rest).dropWhile isMarkupBlank =
      c :: (cs ++ '=' :: ('"' :: Entity.encode content.toList ++ '"' :: rest)) := by
    simp only [Document.attributeText, eq, List.cons_append, List.append_assoc, List.nil_append]
    rw [List.dropWhile_cons_of_pos (by decide), List.dropWhile_cons_of_neg (not_isMarkupBlank_of_isNameChar hc)]
  rw [readFrom_of_one start, Text.takeWhile_stop inside stop, ← eq]
  · exact ⟨_, rfl⟩
  · rw [Text.takeWhile_stop inside stop, Text.dropWhile_stop inside stop, first, ← eq, String.ofList_toList,
      String.ofList_toList]

/-- Written attributes are read back, when their keys are clean, differ from each other and were not
seen before. -/
theorem readFrom_written (total : Nat) {attributes : List (String × String)} :
    ∀ {seen : List (List Char × Nat)}, (∀ pair ∈ attributes, IsClean pair.1) →
      (attributes.map Prod.fst).Nodup → (∀ pair ∈ attributes, seen.lookup pair.1.toList = none) →
      readFrom total seen (attributes.flatMap Document.attributeText) = .ok attributes := by
  induction attributes with
  | nil => exact fun _ _ _ => readFrom_nil _ _
  | cons pair attributes ih =>
      intro seen clean distinct new
      rw [List.forall_mem_cons] at clean new
      rw [List.map_cons, List.nodup_cons] at distinct
      obtain ⟨position, eq⟩ := readFrom_attributeText total clean.1 new.1
        (attributes.flatMap Document.attributeText)
      rw [List.flatMap_cons, eq, ih clean.2 distinct.2]
      · rfl
      · intro other hOther
        have ne : other.1.toList ≠ pair.1.toList := by
          intro h
          rw [String.toList_inj] at h
          exact distinct.1 (h ▸ List.mem_map_of_mem hOther)
        rw [List.lookup_cons, beq_false_of_ne ne]
        exact new.2 other hOther

end Attributes

namespace Reading

/-! ## The inside of a tag -/

theorem takeWhile_name {name : String} (clean : ∀ c ∈ name.toList, isNameChar c)
    (attributes : List (String × String)) :
    (Document.tagText name attributes).takeWhile (fun c => !isMarkupBlank c) = name.toList ∧
      (Document.tagText name attributes).dropWhile (fun c => !isMarkupBlank c) =
        attributes.flatMap Document.attributeText := by
  have inside : ∀ c ∈ name.toList, (!isMarkupBlank c) = true := fun c hc => by
    simpa using not_isMarkupBlank_of_isNameChar (clean c hc)
  rw [Document.tagText, List.takeWhile_append_of_pos inside, List.dropWhile_append_of_pos inside]
  cases attributes with
  | nil => simp
  | cons pair attributes => simp [Document.attributeText, isMarkupBlank]

theorem tagOf_written {name : String} {attributes : List (String × String)} (clean : IsClean name)
    (keys : ∀ pair ∈ attributes, IsClean pair.1) (distinct : (attributes.map Prod.fst).Nodup) :
    tagOf (Document.tagText name attributes) = (name.toList, ⟨name, .ok attributes⟩) := by
  obtain ⟨taken, dropped⟩ := takeWhile_name clean.2 attributes
  rw [tagOf, taken, dropped, Attributes.read, Attributes.readFrom_written _ keys distinct (fun _ _ => rfl),
    String.ofList_toList]

end Reading

end LayoutTech.Xml
