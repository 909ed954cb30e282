import LayoutTech.Proofs.Xml.Attribute
import LayoutTech.Warning
import LayoutTech.Xml.Tree

/-!
# Reading on

Reading the rest of a document from any point on: what is left of the text, and the document as far
as it is put together. Each kind of written text and tag takes the document one step further, whatever
follows it.
-/

namespace LayoutTech.Xml

namespace Reading

/-! ## Tags -/

/-- Characters that do not change what is looked for in a tag. -/
def isPlain (c : Char) : Bool := c != '>' && c != '"' && c != '\''

theorem cutTag_plain {cs : List Char} (h : ∀ c ∈ cs, isPlain c) (t : List Char) :
    cutTag none (cs ++ t) = (cutTag none t).map fun (inside, rest) => (cs ++ inside, rest) := by
  induction cs with
  | nil => simp
  | cons c cs ih =>
      rw [List.forall_mem_cons] at h
      obtain ⟨⟨gt, quot⟩, apos⟩ : (c ≠ '>' ∧ c ≠ '"') ∧ c ≠ '\'' := by simpa [isPlain] using h.1
      simp only [List.cons_append, cutTag, if_neg gt, quot, apos, or_self, if_false, ih h.2, Option.map_map]
      rfl

theorem cutTag_quoted {q : Char} {cs : List Char} (h : ∀ c ∈ cs, c ≠ q) (t : List Char) :
    cutTag (some q) (cs ++ q :: t) = (cutTag none t).map fun (inside, rest) => (cs ++ q :: inside, rest) := by
  induction cs with
  | nil => simp [cutTag]
  | cons c cs ih =>
      rw [List.forall_mem_cons] at h
      simp only [List.cons_append, cutTag, if_neg h.1, ih h.2, Option.map_map]
      rfl

theorem isPlain_of_isNameChar {c : Char} (h : isNameChar c) : isPlain c := by
  simp only [isPlain, Bool.and_eq_true, bne_iff_ne, ne_eq]
  exact ⟨⟨isNameChar_ne h (by decide), isNameChar_ne h (by decide)⟩, isNameChar_ne h (by decide)⟩

theorem cutTag_attributeText {pair : String × String} (clean : IsClean pair.1) (t : List Char) :
    cutTag none (Document.attributeText pair ++ t) =
      (cutTag none t).map fun (inside, rest) => (Document.attributeText pair ++ inside, rest) := by
  have key : ∀ c ∈ ' ' :: pair.1.toList ++ ['='], isPlain c := by
    intro c hc
    simp only [List.cons_append, List.mem_cons, List.mem_append, List.not_mem_nil, or_false] at hc
    rcases hc with rfl | hc | rfl
    · decide
    · exact isPlain_of_isNameChar (clean.2 c hc)
    · decide
  have content : ∀ c ∈ Entity.encode pair.2.toList, c ≠ '"' := by
    rintro c hc rfl
    exact Entity.isMark_encode _ _ hc (by decide)
  have split (u : List Char) : Document.attributeText pair ++ u =
      (' ' :: pair.1.toList ++ ['=']) ++ '"' :: (Entity.encode pair.2.toList ++ '"' :: u) := by
    simp [Document.attributeText]
  have quote (u : List Char) : cutTag none ('"' :: u) =
      (cutTag (some '"') u).map fun (inside, rest) => ('"' :: inside, rest) := by
    simp [cutTag]
  simp only [split, cutTag_plain key, quote, cutTag_quoted content, Option.map_map]
  rfl

theorem cutTag_attributes {attributes : List (String × String)} (keys : ∀ pair ∈ attributes, IsClean pair.1)
    (t : List Char) :
    cutTag none (attributes.flatMap Document.attributeText ++ t) =
      (cutTag none t).map fun (inside, rest) => (attributes.flatMap Document.attributeText ++ inside, rest) := by
  induction attributes with
  | nil => simp
  | cons pair attributes ih =>
      rw [List.forall_mem_cons] at keys
      simp only [List.flatMap_cons, List.append_assoc, cutTag_attributeText keys.1, ih keys.2, Option.map_map]
      rfl

/-- A written tag ends at the `>` after it; `slash` is what may stand before that. -/
theorem cutTag_tagText {name : String} {attributes : List (String × String)} (clean : IsClean name)
    (keys : ∀ pair ∈ attributes, IsClean pair.1) (slash : List Char) (plain : ∀ c ∈ slash, isPlain c)
    (rest : List Char) :
    cutTag none (Document.tagText name attributes ++ slash ++ '>' :: rest) =
      some (Document.tagText name attributes ++ slash, rest) := by
  have close : cutTag none ('>' :: rest) = some ([], rest) := by simp [cutTag]
  have named : ∀ c ∈ name.toList, isPlain c := fun c hc => isPlain_of_isNameChar (clean.2 c hc)
  simp only [Document.tagText, List.append_assoc, cutTag_plain named, cutTag_attributes keys,
    cutTag_plain plain, close, Option.map_some, List.append_nil]

theorem tagText_getLast? {name : String} {attributes : List (String × String)} (clean : IsClean name) :
    (Document.tagText name attributes).getLast? ≠ some '/' := by
  rcases List.eq_nil_or_concat attributes with rfl | ⟨before, last, rfl⟩
  · intro h
    have mem : '/' ∈ name.toList := List.mem_of_getLast? (by simpa [Document.tagText] using h)
    exact absurd (clean.2 _ mem) (by decide)
  · simp only [Document.tagText, Document.attributeText, List.concat_eq_append, List.flatMap_append,
      List.flatMap_cons, List.flatMap_nil, List.append_nil, ← List.append_assoc, List.getLast?_concat]
    decide

/-! ## Steps -/

theorem markup_of_isNameChar {total : Nat} {opened : List (List Char)} {c : Char} (h : isNameChar c)
    (cs : List Char) : markup total opened (c :: cs) = tag total opened (c :: cs) := by
  unfold markup
  split
  · next eq => exact absurd (List.cons.inj eq).1 (isNameChar_ne h (by decide))
  · next eq => exact absurd (List.cons.inj eq).1 (isNameChar_ne h (by decide))
  · next eq => exact absurd (List.cons.inj eq).1 (isNameChar_ne h (by decide))
  · rfl

section Tag

variable {total : Nat} {opened : List (List Char)} {name : String} {attributes : List (String × String)}

theorem step_tag (clean : IsClean name) (rest : List Char) :
    step total opened '<' (Document.tagText name attributes ++ rest) =
      tag total opened (Document.tagText name attributes ++ rest) := by
  obtain ⟨c, cs, eq, hc, -⟩ := clean.exists_cons
  rw [step, if_pos rfl, Document.tagText, eq]
  exact markup_of_isNameChar hc _

theorem step_opening (clean : IsClean name) (keys : ∀ pair ∈ attributes, IsClean pair.1)
    (distinct : (attributes.map Prod.fst).Nodup) (rest : List Char) :
    step total opened '<' (Document.tagText name attributes ++ '>' :: rest) =
      .ok ⟨.opening ⟨name, .ok attributes⟩, name.toList :: opened, rest⟩ := by
  have cut := cutTag_tagText clean keys [] (by simp) rest
  rw [List.append_nil] at cut
  rw [step_tag clean, tag, cut]
  simp only [if_neg (tagText_getLast? clean), tagOf_written clean keys distinct]

theorem step_emptyTag (clean : IsClean name) (keys : ∀ pair ∈ attributes, IsClean pair.1)
    (distinct : (attributes.map Prod.fst).Nodup) (rest : List Char) :
    step total opened '<' (Document.tagText name attributes ++ '/' :: '>' :: rest) =
      .ok ⟨.emptyTag ⟨name, .ok attributes⟩, opened, rest⟩ := by
  have cut := cutTag_tagText clean keys ['/'] (List.forall_mem_singleton.2 rfl) rest
  rw [List.append_assoc, List.cons_append, List.nil_append] at cut
  rw [step_tag clean, tag, cut]
  simp [tagOf_written clean keys distinct]

theorem closingName_of_clean (clean : IsClean name) : closingName name.toList = name.toList := by
  have last : ∀ c ∈ name.toList.reverse.head?, ¬isMarkupBlank c := by
    intro c hc
    exact not_isMarkupBlank_of_isNameChar (clean.2 c (List.mem_reverse.1 (List.mem_of_mem_head? hc)))
  simp [closingName, Text.dropWhile_of_head last]

theorem step_closing (clean : IsClean name) (rest : List Char) :
    step total (name.toList :: opened) '<' ('/' :: name.toList ++ '>' :: rest) =
      .ok ⟨.closing name, opened, rest⟩ := by
  have inside : ∀ c ∈ name.toList, (c != '>') = true := fun c hc => by
    simpa using isNameChar_ne (clean.2 c hc) (show ¬isNameChar '>' by decide)
  have stop : ¬('>' != '>') := by decide
  rw [step, if_pos rfl, List.cons_append, markup, closing]
  simp only [cutAtClose, Text.takeWhile_stop inside stop, Text.dropWhile_stop inside stop,
    closingName_of_clean clean, if_true, List.drop_succ_cons, List.drop_zero, String.ofList_toList]

end Tag

/-- Written text is one step, up to the next tag or the end. -/
theorem step_text {total : Nat} {opened : List (List Char)} {c : Char} {cs text rest : List Char}
    (written : Entity.encode text = c :: cs) (tag : ∀ d ∈ rest.head?, d = '<') :
    step total opened c (cs ++ rest) = .ok ⟨.text (.ok (String.ofList text)), opened, rest⟩ := by
  have free : ∀ d ∈ c :: cs, (d != '<') = true := by
    intro d hd
    rw [bne_iff_ne]
    rintro rfl
    exact Entity.isMark_encode text '<' (written ▸ hd) (by decide)
  rw [List.forall_mem_cons] at free
  have stop : ∀ d ∈ rest.head?, ¬(d != '<') := fun d hd => by simp [tag d hd]
  have ne : c ≠ '<' := by simpa using free.1
  have decoded := Entity.decode_encode text
  rw [written] at decoded
  rw [step, if_neg ne, Text.takeWhile_until free.2 stop, Text.dropWhile_until free.2 stop, decoded]
  rfl

end Reading

/-! ## Steps of a document -/

namespace Event

/-- The event does not count. -/
def IsAside : Event → Prop
  | .comment | .instruction | .declaration | .doctype => True
  | _ => False

theorem isAside_iff {event : Event} :
    event.IsAside ↔ event = .comment ∨ event = .instruction ∨ event = .declaration ∨ event = .doctype := by
  cases event <;> simp [IsAside]

end Event

namespace OpenDocument

variable {p q : OpenDocument} {event : Event}

/-- What an event makes of a document, if it is not refused. -/
inductive Takes (p : OpenDocument) : Event → OpenDocument → Prop
  | opening {tag : Tag} {attributes : List (String × String)} (root : p.root = none)
      (read : tag.attributes = .ok attributes) :
      Takes p (.opening tag) { p with opened := { name := tag.name, attributes } :: p.opened }
  | emptyTag {tag : Tag} {attributes : List (String × String)} (root : p.root = none)
      (read : tag.attributes = .ok attributes) :
      Takes p (.emptyTag tag) (close { name := tag.name, attributes } p.opened p.root)
  | closing {e : Element} {outer : List Element} (opened : p.opened = e :: outer) :
      Takes p (.closing e.name) (close e outer p.root)
  | text {text : String} (placed : p.opened = [] → isBlankText text) : Takes p (.text (.ok text)) (p.addText text)
  | cdata (content : String) : Takes p (.cdata content) (p.addText content)
  | aside {event : Event} (aside : event.IsAside) : Takes p event p

theorem elementOf_eq_ok_iff {tag : Tag} {e : Element} :
    p.elementOf tag = .ok e ↔
      p.root = none ∧ ∃ attributes, tag.attributes = .ok attributes ∧ e = { name := tag.name, attributes } := by
  cases root : p.root with
  | some found => simp [elementOf, root]
  | none => cases read : tag.attributes <;> simp [elementOf, root, read, eq_comm]

theorem takes_of_next (h : p.next event = .ok q) : p.Takes event q := by
  cases event with
  | opening tag =>
      obtain ⟨e, element, eq⟩ := Traced.bind_eq_ok.1 h
      obtain ⟨root, attributes, read, rfl⟩ := elementOf_eq_ok_iff.1 element
      cases eq
      exact .opening root read
  | emptyTag tag =>
      obtain ⟨e, element, eq⟩ := Traced.bind_eq_ok.1 h
      obtain ⟨root, attributes, read, rfl⟩ := elementOf_eq_ok_iff.1 element
      cases eq
      exact .emptyTag root read
  | closing name =>
      obtain ⟨opened, root⟩ := p
      cases opened with
      | nil => cases h
      | cons e outer =>
          simp only [next] at h
          split at h
          · next same =>
              cases h
              exact same ▸ .closing rfl
          · cases h
  | text content =>
      simp only [next] at h
      split at h
      · cases h
      · next text =>
          split at h
          · cases h
          · next placed =>
              cases h
              refine .text fun outside => ?_
              simpa [outside] using placed
  | cdata content => cases h; exact .cdata content
  | _ => cases h; exact .aside trivial

theorem Takes.next_eq (h : p.Takes event q) : p.next event = .ok q := by
  cases h with
  | opening root read => rw [next, elementOf_eq_ok_iff.2 ⟨root, _, read, rfl⟩]; rfl
  | emptyTag root read => rw [next, elementOf_eq_ok_iff.2 ⟨root, _, read, rfl⟩]; rfl
  | closing opened => simp [next, opened]
  | @text text placed =>
      have allowed : (p.opened.isEmpty && !isBlankText text) = false := by
        cases opened : p.opened with
        | nil => rw [placed opened]; rfl
        | cons e outer => rfl
      simp only [next, allowed, Bool.false_eq_true, if_false]
  | cdata content => rfl
  | aside aside => rcases Event.isAside_iff.1 aside with rfl | rfl | rfl | rfl <;> rfl

end OpenDocument

namespace OpenDocument

/-! ## The rest of a document -/

/-- The root element when these are the events left. -/
def finishReading (p : OpenDocument) (left : Reading) : Except Fault Element := do
  let q ← left.events.foldlM next p
  match left.fault with
  | none => q.finish
  | some fault => .error (.broken fault)

theorem finishReading_append (p : OpenDocument) (before after : List Event) (fault : Option SyntaxFault) :
    p.finishReading ⟨before ++ after, fault⟩ =
      before.foldlM next p >>= fun q => q.finishReading ⟨after, fault⟩ := by
  simp only [finishReading, List.foldlM_append, bind_assoc]

theorem finishReading_cons (p : OpenDocument) (event : Event) (events : List Event) (fault : Option SyntaxFault) :
    p.finishReading ⟨event :: events, fault⟩ = p.next event >>= fun q => q.finishReading ⟨events, fault⟩ := by
  simp only [finishReading, List.foldlM_cons, bind_assoc]

/-- The root element when this is the text left. -/
def resume (p : OpenDocument) (total : Nat) (cs : List Char) : Except Fault Element :=
  p.finishReading (Reading.readFrom total (p.opened.map (·.name.toList)) cs)

theorem ofReading_eq (reading : Reading) : Element.ofReading reading = start.finishReading reading := by
  obtain ⟨events, fault⟩ := reading
  cases fault <;> rfl

theorem resume_nil (p : OpenDocument) (total : Nat) : p.resume total [] = p.finish := by
  rw [resume, Reading.readFrom]
  rfl

/-- One step of reading and the step of the document for its event. -/
theorem resume_step {p q : OpenDocument} {total : Nat} {c : Char} {cs : List Char} {s : Reading.Step}
    (more : c = '<' → cs ≠ []) (read : Reading.step total (p.opened.map (·.name.toList)) c cs = .ok s)
    (next : p.next s.event = .ok q) (opened : s.opened = q.opened.map (·.name.toList)) :
    p.resume total (c :: cs) = q.resume total s.rest := by
  have notEnd : ¬(c = '<' ∧ cs = []) := fun h => more h.1 h.2
  rw [resume, Reading.readFrom, if_neg notEnd]
  split
  · next eq => rw [read] at eq; contradiction
  · next eq =>
    rw [read, Except.ok.injEq] at eq
    subst eq
    rw [resume, ← opened, finishReading_cons, next]
    rfl

theorem addText_empty (p : OpenDocument) : p.addText "" = p := by
  obtain ⟨opened, root⟩ := p
  cases opened with
  | nil => rfl
  | cons e rest => cases e; simp [addText]

/-- Written text becomes text of the innermost open element; outside of the root it has to be blank. -/
theorem resume_text {p : OpenDocument} {text rest : List Char} (inside : p.opened = [] → Text.AllBlank text)
    (tag : text ≠ [] → ∀ d ∈ rest.head?, d = '<') (total : Nat) :
    p.resume total (Entity.encode text ++ rest) = (p.addText (String.ofList text)).resume total rest := by
  cases written : Entity.encode text with
  | nil =>
      rw [Entity.encode_eq_nil] at written
      rw [written, List.nil_append]
      exact (congrArg (·.resume total rest) p.addText_empty).symm
  | cons c cs =>
      have ne : c ≠ '<' := by
        rintro rfl
        exact Entity.isMark_encode text '<' (by simp [written]) (by decide)
      have placed : p.opened = [] → isBlankText (String.ofList text) := by
        rw [isBlankText_iff, String.toList_ofList]
        exact inside
      have same : p.opened.map (·.name.toList) = (p.addText (String.ofList text)).opened.map (·.name.toList) := by
        unfold addText
        split
        · next eq => simp [eq]
        · rfl
      have notNil : text ≠ [] := by
        rintro rfl
        cases written
      exact resume_step (fun h => absurd h ne) (Reading.step_text written (tag notNil)) (Takes.text placed).next_eq same

section Tag

variable {name : String} {attributes : List (String × String)}

theorem resume_opening {p : OpenDocument} {total : Nat} (root : p.root = none) (clean : IsClean name)
    (keys : ∀ pair ∈ attributes, IsClean pair.1) (distinct : (attributes.map Prod.fst).Nodup)
    (rest : List Char) :
    p.resume total ('<' :: (Document.tagText name attributes ++ '>' :: rest)) =
      { p with opened := { name, attributes } :: p.opened }.resume total rest :=
  resume_step (by simp) (Reading.step_opening clean keys distinct rest) (Takes.opening root rfl).next_eq rfl

theorem resume_emptyTag {p : OpenDocument} {total : Nat} (root : p.root = none) (clean : IsClean name)
    (keys : ∀ pair ∈ attributes, IsClean pair.1) (distinct : (attributes.map Prod.fst).Nodup)
    (rest : List Char) :
    p.resume total ('<' :: (Document.tagText name attributes ++ '/' :: '>' :: rest)) =
      (close { name, attributes } p.opened p.root).resume total rest :=
  resume_step (by simp) (Reading.step_emptyTag clean keys distinct rest) (Takes.emptyTag root rfl).next_eq
    (by cases h : p.opened <;> simp [close])

theorem resume_closing {e : Element} {opened : List Element} {root : Option Element} {total : Nat}
    (clean : IsClean e.name) (rest : List Char) :
    resume ⟨e :: opened, root⟩ total ('<' :: ('/' :: e.name.toList ++ '>' :: rest)) =
      (close e opened root).resume total rest := by
  refine resume_step (p := ⟨e :: opened, root⟩) (by simp) (Reading.step_closing clean rest) ?_ ?_
  · exact (Takes.closing rfl).next_eq
  · cases opened <;> simp [close]

end Tag

end OpenDocument

end LayoutTech.Xml
