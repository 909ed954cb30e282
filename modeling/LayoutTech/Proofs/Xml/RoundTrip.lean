import LayoutTech.Proofs.Xml.Reading

/-!
# Documents are read back

The document of an element with clean names and keys is read back as the element with the layout of the document
in the texts of elements with children. It is the same element when no element with children has a text that the
style takes for layout or adds layout to.
-/

namespace LayoutTech.Xml

namespace Element

/-- The property holds of the element and of everything inside it. -/
inductive Everywhere (P : Element → Prop) : Element → Prop
  | mk {e : Element} (here : P e) (below : ∀ c ∈ e.children, Everywhere P c) : Everywhere P e

/-- The name and the keys are clean, and the keys differ from each other. -/
def IsNamed (e : Element) : Prop :=
  IsClean e.name ∧ (∀ pair ∈ e.attributes, IsClean pair.1) ∧ (e.attributes.map Prod.fst).Nodup

section Decidable

variable (P : Element → Prop) [DecidablePred P]

mutual
/-- Looks at the element and at everything inside it. -/
def decideEverywhere (e : Element) : Decidable (Everywhere P e) :=
  match e with
  | ⟨name, attributes, text, children⟩ =>
    if here : P ⟨name, attributes, text, children⟩ then
      match decideEverywhereIn children with
      | isTrue below => isTrue (.mk here below)
      | isFalse h => isFalse fun | .mk _ below => h below
    else isFalse fun | .mk h _ => here h

/-- Looks at each of the elements. -/
def decideEverywhereIn (es : List Element) : Decidable (∀ c ∈ es, Everywhere P c) :=
  match es with
  | [] => isTrue (by simp)
  | e :: es =>
    match decideEverywhere e, decideEverywhereIn es with
    | isTrue he, isTrue hes => isTrue (List.forall_mem_cons.2 ⟨he, hes⟩)
    | isFalse he, _ => isFalse fun h => he (List.forall_mem_cons.1 h).1
    | _, isFalse hes => isFalse fun h => hes (List.forall_mem_cons.1 h).2
end

instance : DecidablePred (Everywhere P) := decideEverywhere P

end Decidable

instance : DecidablePred IsNamed := fun _ => inferInstanceAs (Decidable (_ ∧ _))

theorem Everywhere.imp {P Q : Element → Prop} (h : ∀ e, P e → Q e) {e : Element} (he : Everywhere P e) :
    Everywhere Q e := by
  induction he with
  | mk here _ ih => exact .mk (h _ here) ih

theorem Everywhere.and {P Q : Element → Prop} {e : Element} (hp : Everywhere P e) (hq : Everywhere Q e) :
    Everywhere (fun d => P d ∧ Q d) e := by
  induction hp with
  | mk here _ ih =>
      cases hq with
      | mk hereQ belowQ => exact .mk ⟨here, hereQ⟩ fun c hc => ih c hc (belowQ c hc)

end Element

/-- What the style does with the text of an element that has children: layout is added to it when the
document is indented, and it is dropped when all of it is blank. -/
def Style.Keeps : Style → Element → Prop
  | .compact, e => e.children = [] ∨ e.text = "" ∨ ∃ c ∈ e.text.toList, ¬Text.isBlank c
  | .pretty, e => e.children = [] ∨ e.text = ""

instance (style : Style) (e : Element) : Decidable (style.Keeps e) :=
  match style with
  | .compact =>
      decidable_of_iff (e.children = [] ∨ e.text = "" ∨ e.text.toList.any (!Text.isBlank ·)) (by simp [Style.Keeps])
  | .pretty => inferInstanceAs (Decidable (_ ∨ _))

/-- The element can be written in the style without a loss. -/
def Element.Survives (style : Style) (e : Element) : Prop :=
  e.Everywhere fun d => d.IsNamed ∧ style.Keeps d

instance (style : Style) : DecidablePred (Element.Survives style) := fun _ =>
  inferInstanceAs (Decidable (Element.Everywhere _ _))

/-! ## Layout -/

namespace Document

theorem allBlank_gap (style : Style) (level : Nat) : Text.AllBlank (style.gap level) := by
  cases style with
  | compact => exact Text.AllBlank.nil
  | pretty =>
      intro c hc
      simp only [Style.gap, List.mem_cons, List.mem_replicate] at hc
      rcases hc with rfl | ⟨-, rfl⟩ <;> decide

theorem encode_gap (style : Style) (level : Nat) : Entity.encode (style.gap level) = style.gap level := by
  apply Entity.encode_of_unnamed
  cases style with
  | compact => intro c hc; cases hc
  | pretty =>
      intro c hc
      simp only [Style.gap, List.mem_cons, List.mem_replicate] at hc
      rcases hc with rfl | ⟨-, rfl⟩ <;> rfl

theorem allBlank_beforeTag (style : Style) (level : Nat) (afterText : Bool) :
    Text.AllBlank (beforeTag style level afterText) := by
  cases afterText with
  | true => exact Text.AllBlank.nil
  | false => exact allBlank_gap style level

theorem encode_beforeTag (style : Style) (level : Nat) (afterText : Bool) :
    Entity.encode (beforeTag style level afterText) = beforeTag style level afterText := by
  cases afterText with
  | true => rfl
  | false => exact encode_gap style level

/-- The layout between the tags of a row of elements, put together. -/
def layout (style : Style) (level : Nat) (afterText : Bool) : List Element → List Char
  | [] => []
  | _ :: es => beforeTag style level afterText ++ layout style level false es

theorem allBlank_layout (style : Style) (level : Nat) (afterText : Bool) (es : List Element) :
    Text.AllBlank (layout style level afterText es) := by
  induction es generalizing afterText with
  | nil => exact Text.AllBlank.nil
  | cons e es ih => exact (allBlank_beforeTag style level afterText).append (ih false)

theorem layout_compact (level : Nat) (afterText : Bool) (es : List Element) :
    layout .compact level afterText es = [] := by
  induction es generalizing afterText with
  | nil => rfl
  | cons e es ih => cases afterText <;> exact ih false

/-- The layout that stands directly inside the element. -/
def inside (style : Style) (level : Nat) (e : Element) : List Char :=
  layout style (level + 1) (!e.text.isEmpty) e.children ++ beforeTag style level e.children.isEmpty

theorem allBlank_inside (style : Style) (level : Nat) (e : Element) : Text.AllBlank (inside style level e) :=
  (allBlank_layout _ _ _ _).append (allBlank_beforeTag _ _ _)

theorem inside_of_leaf {e : Element} (leaf : e.children = []) (style : Style) (level : Nat) :
    inside style level e = [] := by
  rw [inside, leaf]
  rfl

theorem inside_compact (level : Nat) (e : Element) : inside .compact level e = [] := by
  rw [inside, layout_compact, List.nil_append]
  cases e.children <;> rfl

end Document

namespace Element

mutual
/-- The element as it comes back when it is written and read: its text is followed by the layout inside of it. -/
def returned (style : Style) (level : Nat) (e : Element) : Element :=
  match e with
  | ⟨name, attributes, text, children⟩ =>
    OpenDocument.settled ⟨name, attributes,
      text ++ String.ofList (Document.inside style level ⟨name, attributes, text, children⟩),
      returnedAll style (level + 1) children⟩

def returnedAll (style : Style) (level : Nat) (es : List Element) : List Element :=
  match es with
  | [] => []
  | e :: es => returned style level e :: returnedAll style level es
end

theorem returnedAll_eq_map (style : Style) (level : Nat) (es : List Element) :
    returnedAll style level es = es.map (returned style level) := by
  induction es with
  | nil => rfl
  | cons e es ih => rw [returnedAll, ih, List.map_cons]

theorem returned_eq (style : Style) (level : Nat) (e : Element) :
    e.returned style level = OpenDocument.settled { e with
      text := e.text ++ String.ofList (Document.inside style level e)
      children := e.children.map (returned style (level + 1)) } := by
  cases e
  rw [returned, returnedAll_eq_map]

end Element

/-! ## Reading a written element -/

namespace OpenDocument

open Document

theorem settled_of_keeps {style : Style} {e : Element} (h : style.Keeps e) : settled e = e := by
  obtain ⟨name, attributes, text, children⟩ := e
  unfold settled
  split
  · next blank =>
    simp only [Bool.and_eq_true, Bool.not_eq_true', List.isEmpty_eq_false_iff] at blank
    cases style with
    | compact =>
        rcases h with h | h | h
        · exact absurd h blank.1
        · rw [← h]
        · obtain ⟨c, hc, notBlank⟩ := h
          exact absurd (isBlankText_iff.1 blank.2 c hc) notBlank
    | pretty =>
        rcases h with h | h
        · exact absurd h blank.1
        · rw [← h]
  · rfl

theorem settled_settled (e : Element) : settled (settled e) = settled e := by
  obtain ⟨name, attributes, text, children⟩ := e
  simp only [settled]
  split <;> simp_all

/-- The layout that reading finds in an element does not change what the element is when it closes. -/
theorem settled_with_layout {style : Style} {e : Element} (h : style.Keeps e) {blanks : List Char}
    (blank : Text.AllBlank blanks) (none : e.children = [] → blanks = [])
    (compact : style = .compact → blanks = []) :
    settled { e with text := e.text ++ String.ofList blanks } = e := by
  obtain ⟨name, attributes, text, children⟩ := e
  have unchanged (h' : blanks = []) :
      settled ⟨name, attributes, text ++ String.ofList blanks, children⟩ = ⟨name, attributes, text, children⟩ := by
    rw [h', String.ofList_nil, String.append_empty]
    exact settled_of_keeps h
  cases style with
  | compact => exact unchanged (compact rfl)
  | pretty =>
      by_cases hc : children = []
      · exact unchanged (none hc)
      · obtain rfl : text = "" := h.resolve_left hc
        have dropped : isBlankText ("" ++ String.ofList blanks) := by
          rw [String.empty_append, isBlankText_iff, String.toList_ofList]
          exact blank
        have inner : children.isEmpty = false := List.isEmpty_eq_false_iff.2 hc
        simp only [settled, inner, dropped, Bool.not_false, Bool.and_self, if_true]

theorem close_congr {e f : Element} (h : settled e = settled f) (opened : List Element) (root : Option Element) :
    close e opened root = close f opened root := by
  cases opened <;> simp only [close, h]

theorem resume_beforeTag (p : OpenDocument) (total : Nat) (style : Style) (level : Nat) (afterText : Bool)
    (rest : List Char) :
    p.resume total (beforeTag style level afterText ++ '<' :: rest) =
      (p.addText (String.ofList (beforeTag style level afterText))).resume total ('<' :: rest) := by
  have tag : ∀ d ∈ ('<' :: rest).head?, d = '<' := by simp
  rw [← resume_text (fun _ => allBlank_beforeTag style level afterText) (fun _ => tag), encode_beforeTag]

theorem elementText_empty (style : Style) (level : Nat) (afterText : Bool) (name : String)
    (attributes : List (String × String)) (rest : List Char) :
    elementText style level afterText { name, attributes } ++ rest =
      beforeTag style level afterText ++ '<' :: (tagText name attributes ++ '/' :: '>' :: rest) := by
  simp [elementText]

theorem elementText_content {e : Element} (h : ¬(e.children = [] ∧ e.text = "")) (style : Style) (level : Nat)
    (afterText : Bool) (rest : List Char) :
    elementText style level afterText e ++ rest =
      beforeTag style level afterText ++ '<' :: (tagText e.name e.attributes ++ '>' ::
        (Entity.encode e.text.toList ++ (elementTexts style (level + 1) (!e.text.isEmpty) e.children ++
          (beforeTag style level e.children.isEmpty ++ '<' :: ('/' :: e.name.toList ++ '>' :: rest))))) := by
  obtain ⟨name, attributes, text, children⟩ := e
  have content : (children.isEmpty && text.isEmpty) = false := by
    rw [Bool.eq_false_iff, ne_eq, Bool.and_eq_true, List.isEmpty_iff, String.isEmpty_iff]
    exact h
  simp [elementText, content]

/-- After text, the content of an element goes on with a tag. -/
theorem head?_elementTexts (style : Style) (level outer : Nat) (es : List Element) (rest : List Char) :
    (elementTexts style level true es ++ (beforeTag style outer es.isEmpty ++ '<' :: rest)).head? = some '<' := by
  cases es with
  | nil => rfl
  | cons e es =>
      obtain ⟨name, attributes, text, children⟩ := e
      simp [elementTexts, elementText, beforeTag]

theorem addText_root (p : OpenDocument) (text : String) : (p.addText text).root = p.root := by
  unfold addText
  split <;> rfl

theorem settled_returned (style : Style) (level : Nat) (e : Element) :
    settled (e.returned style level) = e.returned style level := by
  rw [Element.returned_eq, settled_settled]

/-- Whatever is open, and whatever follows, reading the written element adds to what is open what comes back of it. -/
def ReadsBack (style : Style) (e : Element) : Prop :=
  ∀ (p : OpenDocument) (level : Nat) (afterText : Bool) (total : Nat) (rest : List Char), p.root = none →
    p.resume total (elementText style level afterText e ++ rest) =
      (close (e.returned style level) (p.addText (String.ofList (beforeTag style level afterText))).opened none).resume
        total rest

theorem resume_elementTexts {style : Style} {es : List Element} (read : ∀ c ∈ es, ReadsBack style c) (outer : Element)
    (opened : List Element) (level : Nat) (afterText : Bool) (total : Nat) (rest : List Char) :
    resume ⟨outer :: opened, none⟩ total (elementTexts style level afterText es ++ rest) =
      resume ⟨{ outer with
        text := outer.text ++ String.ofList (layout style level afterText es)
        children := outer.children ++ es.map (Element.returned style level) } :: opened, none⟩ total rest := by
  -- Each child adds the layout before it to the text of the element that is open.
  induction es generalizing outer afterText with
  | nil => cases outer; simp [elementTexts, layout]
  | cons e es ih =>
      rw [List.forall_mem_cons] at read
      have first := read.1 ⟨outer :: opened, none⟩ level afterText total
        (elementTexts style level false es ++ rest) rfl
      simp only [addText, close, settled_returned] at first
      rw [elementTexts, List.append_assoc, first, ih read.2]
      simp only [layout, String.ofList_append, String.append_assoc, List.append_assoc, List.cons_append,
        List.nil_append, List.map_cons]

theorem readsBack {style : Style} {e : Element} (named : e.Everywhere Element.IsNamed) : ReadsBack style e := by
  -- By the time the tag closes, the element has its text and all of the layout, and its children have come back.
  induction named with
  | @mk e here below ih =>
      obtain ⟨clean, keys, distinct⟩ := here
      intro p level afterText total rest root
      generalize hq : p.addText (String.ofList (beforeTag style level afterText)) = q
      have qRoot : q.root = none := by rw [← hq, addText_root, root]
      by_cases empty : e.children = [] ∧ e.text = ""
      · obtain ⟨name, attributes, text, children⟩ := e
        obtain ⟨rfl, rfl⟩ := empty
        rw [elementText_empty, resume_beforeTag, hq, resume_emptyTag qRoot clean keys distinct, qRoot]
        rfl
      · have tag : e.text.toList ≠ [] → ∀ d ∈ (elementTexts style (level + 1) (!e.text.isEmpty) e.children ++
            (beforeTag style level e.children.isEmpty ++ '<' :: ('/' :: e.name.toList ++ '>' :: rest))).head?,
            d = '<' := by
          intro hasText d hd
          have afterText : (!e.text.isEmpty) = true := by simpa using hasText
          rw [afterText, head?_elementTexts] at hd
          exact (Option.some.inj hd).symm
        rw [elementText_content empty, resume_beforeTag, hq, resume_opening qRoot clean keys distinct, qRoot,
          resume_text (by simp) tag]
        simp only [addText, String.ofList_toList, String.empty_append]
        rw [resume_elementTexts ih, resume_beforeTag]
        simp only [addText, String.append_assoc, ← String.ofList_append, List.nil_append]
        rw [resume_closing (by exact clean)]
        congr 1
        apply close_congr
        rw [settled_returned, Element.returned_eq]
        rfl

end OpenDocument

/-! ## Documents -/

namespace OpenDocument

/-- The declaration leaves the document as it was. -/
theorem resume_declaration (total : Nat) (rest : List Char) :
    start.resume total (Document.declaration ++ rest) = start.resume total rest := by
  let body := "xml version=\"1.0\" encoding=\"utf-8\"?".toList
  have inside : ∀ c ∈ body, (c != '>') = true := List.all_eq_true.1 (by decide)
  have stop : ¬('>' != '>') := by decide
  have read : Reading.step total [] '<' ('?' :: (body ++ '>' :: rest)) = .ok ⟨.declaration, [], rest⟩ := by
    rw [Reading.step, if_pos rfl, Reading.markup, Reading.instruction]
    simp only [Reading.cutAtClose, Text.takeWhile_stop inside stop, Text.dropWhile_stop inside stop]
    rfl
  exact resume_step (p := start) (by simp) read rfl rfl

theorem resume_ending (style : Style) (root : Element) (total : Nat) :
    resume ⟨[], some root⟩ total style.ending = .ok root := by
  cases style with
  | compact => rw [Style.ending, resume_nil]; rfl
  | pretty =>
      have blank : Text.AllBlank ['\n'] := List.forall_mem_singleton.2 rfl
      have read : resume ⟨[], some root⟩ total (Entity.encode ['\n'] ++ []) = _ :=
        resume_text (fun _ => blank) (by simp) total
      exact read.trans (resume_nil _ total)

end OpenDocument

namespace Element

theorem parse_toDocument_returned {e : Element} (named : e.Everywhere IsNamed) (style : Style) :
    parse (e.toDocument style) = .ok (e.returned style 0) := by
  have mark : Reading.withoutMark (Document.text style e) = Document.text style e := rfl
  rw [parse, toDocument, String.toList_ofList, OpenDocument.ofReading_eq, Reading.ofText, mark]
  generalize Text.byteLength (Document.text style e) = total
  calc OpenDocument.start.resume total (Document.text style e)
    _ = OpenDocument.start.resume total (Document.elementText style 0 false e ++ style.ending) := by
      rw [Document.text, List.append_assoc, OpenDocument.resume_declaration]
    _ = (OpenDocument.close (e.returned style 0) [] none).resume total style.ending :=
      OpenDocument.readsBack named .start 0 false total style.ending rfl
    _ = .ok (e.returned style 0) := by
      rw [OpenDocument.close, OpenDocument.settled_returned, OpenDocument.resume_ending]

theorem returned_of_keeps {style : Style} {e : Element} (keeps : e.Everywhere style.Keeps) (level : Nat) :
    e.returned style level = e := by
  induction keeps generalizing level with
  | @mk e here below ih =>
      have children : e.children.map (returned style (level + 1)) = e.children :=
        (List.map_congr_left fun c hc => ih c hc (level + 1)).trans (List.map_id _)
      rw [returned_eq, children]
      exact OpenDocument.settled_with_layout here (Document.allBlank_inside style level e)
        (fun leaf => Document.inside_of_leaf leaf style level) fun h => h ▸ Document.inside_compact level e

theorem Survives.parse_eq {style : Style} {e : Element} (h : e.Survives style) :
    parse (e.toDocument style) = .ok e := by
  have named : e.Everywhere IsNamed := h.imp fun _ => And.left
  have keeps : e.Everywhere style.Keeps := h.imp fun _ => And.right
  rw [parse_toDocument_returned named, returned_of_keeps keeps]

/-- A tree with clean names is read back from its compact document when no element with children has a
text that is blank as a whole, and from its indented document when no element with children has a text. -/
theorem parse_toDocument (e : Element) (named : e.Everywhere IsNamed) :
    (e.Everywhere Style.compact.Keeps → parse (e.toDocument .compact) = .ok e) ∧
      (e.Everywhere Style.pretty.Keeps → parse (e.toDocument .pretty) = .ok e) :=
  ⟨fun keeps => Survives.parse_eq (named.and keeps), fun keeps => Survives.parse_eq (named.and keeps)⟩

theorem parse_toDocument_lvs :
    let deck : Element := ⟨"deck", [("mode", "a<\"b\" & 'c'>"), ("ü", "\r\n")], " \t", []⟩
    let mixed : Element := ⟨"lvs", [], " x ", [deck, ⟨"empty", [], "", []⟩]⟩
    let nested : Element := ⟨"lvs", [], "", [deck, ⟨"rules", [], "", [deck]⟩]⟩
    parse (mixed.toDocument .compact) = .ok mixed ∧ parse (nested.toDocument .pretty) = .ok nested := by
  intro deck mixed nested
  have compact := (parse_toDocument mixed (by decide)).1 (by decide)
  have pretty := (parse_toDocument nested (by decide)).2 (by decide)
  exact ⟨compact, pretty⟩

end Element

end LayoutTech.Xml
