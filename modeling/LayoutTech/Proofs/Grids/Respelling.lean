import Mathlib.Logic.Relation
import LayoutTech.Proofs.Grids

/-!
# Spellings of a grid list

Blanks around the pieces of a text and before their marks do not count, and neither does a mark behind another one: two
texts that differ by these only are read as the same grid list, or fail at the same entry.
-/

namespace LayoutTech

namespace Grids

open Text

/-! ## What is read of a text -/

/-- The numerals of a text, and the one that is marked first. -/
structure Reading where
  numerals : List (List Char)
  strong : Option (List Char)
deriving DecidableEq

def Reading.ofMarked (marked : List (List Char × Bool)) : Reading :=
  ⟨marked.map Prod.fst, (marked.find? Prod.snd).map Prod.fst⟩

def reading (text : List Char) : Reading := .ofMarked ((text.splitOn ',').map splitMark)

def valueOf (text numeral : List Char) : Except Fault Binary64 :=
  match Binary64.ofText? numeral with
  | none => .error (.notANumber (String.ofList numeral) (String.ofList text))
  | some value => if value.isFinite then .ok value else .error (.notFinite (String.ofList numeral))

def Reading.grids (text : List Char) (r : Reading) : Except Fault Grids :=
  (r.numerals.mapM (valueOf text)).map fun values => ⟨values, r.strong.bind Binary64.ofText?⟩

theorem ofText?_of_valueOf {text numeral : List Char} {value : Binary64} (h : valueOf text numeral = .ok value) :
    Binary64.ofText? numeral = some value := by
  unfold valueOf at h
  split at h
  · cases h
  · next found =>
      split at h
      · cases h
        exact found
      · cases h

theorem ofPiece_eq (text piece : List Char) :
    Entry.ofPiece text piece = (valueOf text (splitMark piece).1).map (Entry.mk · (splitMark piece).2) := by
  rw [Entry.ofPiece, valueOf]
  split
  next numeral marked split =>
  rw [split]
  cases Binary64.ofText? numeral with
  | none => rfl
  | some value => cases finite : value.isFinite <;> simp [finite, Except.map]

def prepend (e : Entry) (g : Grids) : Grids :=
  ⟨e.value :: g.values, if e.marked then some e.value else g.strongDefault⟩

theorem ofEntries_cons (e : Entry) (es : List Entry) : ofEntries (e :: es) = prepend e (ofEntries es) := by
  rw [ofEntries, ofEntries, prepend, List.map_cons, List.find?_cons]
  cases e.marked <;> rfl

/-- The mark of an entry counts only if no mark came before it, so the reading tells the list. -/
theorem map_ofEntries_readEntries (text : List Char) (seen : Bool) (pieces : List (List Char)) :
    (readEntries text seen pieces).result.map ofEntries = (Reading.ofMarked (pieces.map splitMark)).grids text := by
  induction pieces generalizing seen with
  | nil => rfl
  | cons piece pieces ih =>
      rw [result_readEntries_cons, ofPiece_eq]
      simp only [Reading.grids, Reading.ofMarked, List.map_cons, List.mapM_cons, List.find?_cons] at ih ⊢
      cases read : valueOf text (splitMark piece).1 with
      | error fault => rfl
      | ok value =>
          have found := ofText?_of_valueOf read
          have first (tail : Except Fault (List Entry)) :
              (tail >>= fun es => .ok (⟨value, (splitMark piece).2⟩ :: es)).map ofEntries =
                (tail.map ofEntries).map (prepend ⟨value, (splitMark piece).2⟩) := by
            cases tail with
            | error fault => rfl
            | ok es => exact congrArg _ (ofEntries_cons _ es)
          refine (first _).trans ?_
          rw [ih]
          cases ((pieces.map splitMark).map Prod.fst).mapM (valueOf text) with
          | error fault => rfl
          | ok values =>
              cases mark : (splitMark piece).2 with
              | false => rfl
              | true => exact congrArg (fun d => Except.ok (Grids.mk (value :: values) d)) found.symm

/-- The reading of a text of blanks: one piece, with nothing in it. -/
def Reading.blank : Reading := ⟨[[]], none⟩

theorem comma_notMem_of_allBlank {text : List Char} (h : AllBlank text) : ',' ∉ text :=
  fun mem => absurd (h ',' mem) (by decide)

theorem reading_eq_blank_iff {text : List Char} : reading text = .blank ↔ AllBlank text := by
  constructor
  · intro read
    obtain ⟨piece, cut⟩ : ∃ piece, text.splitOn ',' = [piece] := by
      apply List.length_eq_one_iff.1
      simpa [reading, Reading.ofMarked, Reading.blank] using congrArg (List.length ∘ Reading.numerals) read
    obtain rfl : text = piece := calc
      text = [','].intercalate (text.splitOn ',') := (List.intercalate_splitOn ',').symm
      _ = piece := by rw [cut, List.intercalate_singleton]
    simp only [reading, cut, Reading.ofMarked, Reading.blank, Reading.mk.injEq] at read
    obtain ⟨numerals, strong⟩ := read
    have unmarked : ¬IsMarked text := by
      intro marked
      simp [isMarked_iff.1 marked] at strong
    rw [← trim_eq_nil]
    simpa [splitMark_unmarked unmarked] using numerals
  · intro blank
    have cut : text.splitOn ',' = [text] := by
      have whole : ∀ piece ∈ [text], ',' ∉ piece := by
        rw [List.forall_mem_singleton]
        exact comma_notMem_of_allBlank blank
      simpa using List.splitOn_intercalate ',' whole (List.cons_ne_nil _ _)
    have mark : splitMark text = ([], false) := by simp [splitMark, trim_eq_nil.2 blank]
    simp [reading, cut, Reading.ofMarked, Reading.blank, mark]

theorem result_ofText (text : List Char) :
    (ofText text).result = if reading text = .blank then .ok empty else (reading text).grids text := by
  simp only [ofText, List.isEmpty_iff, trim_eq_nil, reading_eq_blank_iff]
  split
  · rfl
  · rw [reading, ← map_ofEntries_readEntries text false, Traced.result_bind]
    cases (readEntries text false (text.splitOn ',')).result <;> rfl

/-! ## Two texts with one reading -/

/-- The fault as it is told of a text. -/
def Fault.inText (text : List Char) : Fault → Fault
  | .notANumber entry _ => .notANumber entry (String.ofList text)
  | .notFinite entry => .notFinite entry

theorem valueOf_inText (s t numeral : List Char) :
    valueOf t numeral = (valueOf s numeral).mapError (·.inText t) := by
  rw [valueOf, valueOf]
  cases Binary64.ofText? numeral with
  | none => rfl
  | some value => cases finite : value.isFinite <;> simp [finite, Except.mapError, Fault.inText]

theorem mapM_valueOf_inText (s t : List Char) (numerals : List (List Char)) :
    numerals.mapM (valueOf t) = (numerals.mapM (valueOf s)).mapError (·.inText t) := by
  induction numerals with
  | nil => rfl
  | cons numeral numerals ih =>
      rw [List.mapM_cons, List.mapM_cons, valueOf_inText s t, ih]
      cases valueOf s numeral with
      | error fault => rfl
      | ok value => cases numerals.mapM (valueOf s) <;> rfl

theorem result_ofText_congr {s t : List Char} (h : reading t = reading s) :
    (ofText t).result = (ofText s).result.mapError (·.inText t) := by
  rw [result_ofText, result_ofText, h]
  split
  · rfl
  · rw [Reading.grids, Reading.grids, mapM_valueOf_inText s t]
    cases (reading s).numerals.mapM (valueOf s) <;> rfl

/-! ## The strong default -/

/-- The number is that of the first piece that is marked. -/
def IsFirstMarked (text : List Char) (value : Binary64) : Prop :=
  ∃ before body trail after, text.splitOn ',' = before ++ (body ++ '!' :: trail) :: after ∧
    (∀ piece ∈ before, ¬IsMarked piece) ∧ AllBlank trail ∧ Binary64.ofText? (trim body) = some value

theorem isFirstMarked_iff {text : List Char} {value : Binary64} :
    IsFirstMarked text value ↔ (reading text).strong.bind Binary64.ofText? = some value := by
  simp only [reading, Reading.ofMarked, List.find?_map, Option.map_map, Option.bind_eq_some_iff,
    Option.map_eq_some_iff, List.find?_eq_some_iff_append]
  constructor
  · rintro ⟨before, body, trail, after, cut, unmarked, blank, read⟩
    have mark := splitMark_marked blank body
    refine ⟨trim body, ⟨_, ⟨?_, before, after, cut, ?_⟩, ?_⟩, read⟩
    · simp [mark]
    · intro piece mem
      simpa [isMarked_iff] using unmarked piece mem
    · simp [mark]
  · rintro ⟨numeral, ⟨piece, ⟨mark, before, after, cut, unmarked⟩, numeral_eq⟩, read⟩
    obtain ⟨body, trail, rfl, blank⟩ := isMarked_iff.2 mark
    refine ⟨before, body, trail, after, cut, ?_, blank, ?_⟩
    · intro piece mem
      simpa [isMarked_iff] using unmarked piece mem
    · rwa [← numeral_eq, Function.comp_apply, splitMark_marked blank] at read

theorem strongDefault_of_result_ofText {text : List Char} {g : Grids} (h : (ofText text).result = .ok g) :
    g.strongDefault = (reading text).strong.bind Binary64.ofText? := by
  rw [result_ofText] at h
  split at h
  · next blank =>
      cases h
      rw [blank]
      rfl
  · rw [Reading.grids] at h
    cases values : (reading text).numerals.mapM (valueOf text) with
    | error fault =>
        rw [values] at h
        cases h
    | ok values' =>
        rw [values] at h
        cases h
        rfl

/-! ## Spelling a text in another way -/

/-- Blanks around a piece or before its mark, or a mark behind it if that is `late`. -/
inductive RespelledPiece (late : Prop) : List Char → List Char → Prop
  | before {blanks piece : List Char} (blank : AllBlank blanks) : RespelledPiece late piece (blanks ++ piece)
  | behind {blanks piece : List Char} (blank : AllBlank blanks) : RespelledPiece late piece (piece ++ blanks)
  | beforeMark {body blanks trail : List Char} (blank : AllBlank blanks) (blankTrail : AllBlank trail) :
      RespelledPiece late (body ++ '!' :: trail) (body ++ blanks ++ '!' :: trail)
  | lateMark {piece : List Char} (isLate : late) (unmarked : ¬IsMarked piece) :
      RespelledPiece late piece (piece ++ ['!'])

theorem splitMark_congr {piece piece' : List Char} (h : trim piece' = trim piece) :
    splitMark piece' = splitMark piece := by
  rw [splitMark, splitMark, h]

theorem RespelledPiece.splitMark_eq {late : Prop} {piece piece' : List Char} (h : RespelledPiece late piece piece') :
    splitMark piece' = splitMark piece ∨ late ∧ (splitMark piece').1 = (splitMark piece).1 := by
  cases h with
  | before blank => exact .inl (splitMark_congr (trim_append_left blank _))
  | behind blank => exact .inl (splitMark_congr (trim_append_right blank _))
  | beforeMark blank blankTrail =>
      rw [splitMark_marked blankTrail, splitMark_marked blankTrail, trim_append_right blank]
      exact .inl rfl
  | lateMark isLate unmarked =>
      rw [splitMark_unmarked unmarked, splitMark_marked AllBlank.nil]
      exact .inr ⟨isLate, rfl⟩

/-- One piece of the text is spelled in another way; a mark is late behind a piece that comes after a marked one. -/
inductive Respelled (s t : List Char) : Prop
  | piece (before after : List (List Char)) {piece piece' : List Char}
      (cut : s.splitOn ',' = before ++ piece :: after) (cut' : t.splitOn ',' = before ++ piece' :: after)
      (respelled : RespelledPiece (∃ earlier ∈ before, IsMarked earlier) piece piece') : Respelled s t

theorem Respelled.reading_eq {s t : List Char} (h : Respelled s t) : reading t = reading s := by
  obtain @⟨before, after, piece, piece', cut, cut', respelled⟩ := h
  rw [reading, reading, cut, cut', List.map_append, List.map_append, List.map_cons, List.map_cons]
  rcases respelled.splitMark_eq with same | ⟨⟨earlier, mem, marked⟩, same⟩
  · rw [same]
  · -- The marked piece before it is found first, so the new mark is not looked at.
    have found : ((before.map splitMark).find? Prod.snd).isSome := by
      rw [List.find?_isSome]
      exact ⟨_, List.mem_map_of_mem mem, isMarked_iff.1 marked⟩
    simp only [Reading.ofMarked, List.map_append, List.map_cons, same, List.find?_append, Option.or_of_isSome found]

theorem reading_respelled {s t : List Char} (h : Relation.ReflTransGen Respelled s t) : reading t = reading s := by
  induction h with
  | refl => rfl
  | tail _ step ih => rw [step.reading_eq, ih]

/-- A text that is respelled any number of times fails at the same entry, or it is the same grid list: its strong
default is the number of the first marked piece of the text. -/
theorem ofText_respelled {s t : List Char} (h : Relation.ReflTransGen Respelled s t) :
    (∃ g, (ofText s).result = .ok g ∧ (ofText t).result = .ok g ∧
        ∀ value, g.strongDefault = some value ↔ IsFirstMarked s value) ∨
      ∃ fault, (ofText s).result = .error fault ∧ (ofText t).result = .error (fault.inText t) := by
  have same := result_ofText_congr (reading_respelled h)
  cases read : (ofText s).result with
  | error fault =>
      rw [read] at same
      exact .inr ⟨fault, rfl, same⟩
  | ok g =>
      rw [read] at same
      refine .inl ⟨g, rfl, same, fun value => ?_⟩
      rw [isFirstMarked_iff, strongDefault_of_result_ofText read]

theorem ofText_respelled_late :
    let s := "0.1!,0.2".toList
    let t := "0.1 !,0.2!".toList
    Relation.ReflTransGen Respelled s t ∧
      ∃ g, (ofText s).result = .ok g ∧ (ofText t).result = .ok g ∧ IsFirstMarked s (Decimal.toBinary false ⟨1, -1⟩) ∧
        g.strongDefault = some (Decimal.toBinary false ⟨1, -1⟩) := by
  intro s t
  have padded : Respelled s "0.1 !,0.2".toList :=
    .piece [] ["0.2".toList] (by decide) (by decide)
      (@RespelledPiece.beforeMark _ "0.1".toList [' '] [] (by decide) AllBlank.nil)
  have late : Respelled "0.1 !,0.2".toList t :=
    .piece ["0.1 !".toList] [] (by decide) (by decide)
      (@RespelledPiece.lateMark _ "0.2".toList ⟨_, List.mem_cons_self, by decide⟩ (by decide))
  have respelled : Relation.ReflTransGen Respelled s t := .tail (.single padded) late
  have first : IsFirstMarked s (Decimal.toBinary false ⟨1, -1⟩) :=
    ⟨[], "0.1".toList, [], ["0.2".toList], by decide, List.forall_mem_nil _, AllBlank.nil, by decide +kernel⟩
  refine ⟨respelled, ?_⟩
  rcases ofText_respelled respelled with ⟨g, read, read', strong⟩ | ⟨fault, failed, -⟩
  · exact ⟨g, read, read', first, (strong _).2 first⟩
  · have read : (ofText s).result.isOk := by decide +kernel
    rw [failed] at read
    exact absurd read Bool.false_ne_true

end Grids

end LayoutTech
