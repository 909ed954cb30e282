import LayoutTech.Proofs.Xml.RoundTrip
import LayoutTech.Proofs.Xml.SingleRoot
import Mathlib.Logic.Relation

/-!
# Presentation

Many rows of events stand for the same element: comments and the like may stand anywhere, character data may come in
pieces, an element without content may be one tag or two, and there may be layout between children. None of this changes
what the events are put together to, or why they are refused.
-/

namespace LayoutTech.Xml

/-! ## Changes of presentation -/

namespace Event

/-- The character data that the event stands for. -/
def characters? : Event → Option String
  | .text (.ok content) => some content
  | .cdata content => some content
  | _ => none

def IsBlank (event : Event) : Prop := ∃ text, event.characters? = some text ∧ isBlankText text

end Event

def charactersOf (events : List Event) : String := String.join (events.filterMap Event.characters?)

/-- The same events but for blank character data directly inside the element that is open where they begin. It holds no
other character data, and it has a child by the time it closes: `parent` says that one has begun. Inside of it, `depth`
elements are open. -/
inductive Relaid : (depth : Nat) → (parent : Bool) → List Event → List Event → Prop
  | cutOff {depth : Nat} {parent : Bool} : Relaid depth parent [] []
  | closed (name : String) (rest : List Event) : Relaid 0 true (.closing name :: rest) (.closing name :: rest)
  | removed {parent : Bool} {event : Event} {es es' : List Event} (blank : event.IsBlank)
      (rest : Relaid 0 parent es es') : Relaid 0 parent (event :: es) es'
  | added {parent : Bool} {event : Event} {es es' : List Event} (blank : event.IsBlank)
      (rest : Relaid 0 parent es es') : Relaid 0 parent es (event :: es')
  | kept {depth : Nat} {parent : Bool} {event : Event} {es es' : List Event} (noTag : ¬event.IsTag)
      (apart : depth = 0 → event.characters? = none) (rest : Relaid depth parent es es') :
      Relaid depth parent (event :: es) (event :: es')
  | emptyTag {depth : Nat} {parent : Bool} {es es' : List Event} (tag : Tag) (rest : Relaid depth true es es') :
      Relaid depth parent (.emptyTag tag :: es) (.emptyTag tag :: es')
  | opening {depth : Nat} {parent : Bool} {es es' : List Event} (tag : Tag) (rest : Relaid (depth + 1) true es es') :
      Relaid depth parent (.opening tag :: es) (.opening tag :: es')
  | closing {depth : Nat} {parent : Bool} {es es' : List Event} (name : String) (rest : Relaid depth true es es') :
      Relaid (depth + 1) parent (.closing name :: es) (.closing name :: es')

/-- One change of the presentation. -/
inductive Recast : List Event → List Event → Prop
  | aside (before : List Event) (event : Event) (after : List Event) (aside : event.IsAside) :
      Recast (before ++ after) (before ++ event :: after)
  | characters (before pieces pieces' after : List Event) (inside : 0 < depth before)
      (all : ∀ event ∈ pieces ++ pieces', event.characters?.isSome)
      (same : charactersOf pieces = charactersOf pieces') :
      Recast (before ++ (pieces ++ after)) (before ++ (pieces' ++ after))
  | emptyTag (before : List Event) (tag : Tag) (after : List Event) :
      Recast (before ++ .emptyTag tag :: after) (before ++ .opening tag :: .closing tag.name :: after)
  | layout (before : List Event) (tag : Tag) {es es' : List Event} (relaid : Relaid 0 false es es') :
      Recast (before ++ .opening tag :: es) (before ++ .opening tag :: es')

namespace OpenDocument

variable {p p' q : OpenDocument} {depth : Nat} {parent : Bool} {event : Event}

/-! ## Empty tags and pieces of character data -/

theorem next_emptyTag (p : OpenDocument) (tag : Tag) :
    p.next (.emptyTag tag) = p.next (.opening tag) >>= fun q => q.next (.closing tag.name) := by
  rw [next, next]
  cases element : p.elementOf tag with
  | error fault => rfl
  | ok e =>
      obtain ⟨-, attributes, -, rfl⟩ := elementOf_eq_ok_iff.1 element
      exact (if_pos rfl).symm

theorem addText_addText (p : OpenDocument) (text more : String) :
    (p.addText text).addText more = p.addText (text ++ more) := by
  obtain ⟨opened, root⟩ := p
  cases opened with
  | nil => rfl
  | cons e rest => simp [addText, String.append_assoc]

theorem next_characters {text : String} (inside : p.opened ≠ []) (h : event.characters? = some text) :
    p.next event = .ok (p.addText text) := by
  cases event with
  | text content =>
      cases content with
      | error fault => cases h
      | ok content =>
          cases h
          exact (Takes.text fun outside => absurd outside inside).next_eq
  | cdata content => cases h; rfl
  | _ => cases h

theorem foldlM_pieces {pieces : List Event} (inside : p.opened ≠ [])
    (all : ∀ event ∈ pieces, event.characters?.isSome) :
    pieces.foldlM next p = .ok (p.addText (charactersOf pieces)) := by
  induction pieces generalizing p with
  | nil => exact congrArg Except.ok p.addText_empty.symm
  | cons event pieces ih =>
      rw [List.forall_mem_cons] at all
      obtain ⟨text, here⟩ := Option.isSome_iff_exists.1 all.1
      have still : (p.addText text).opened ≠ [] := by
        rw [← List.length_pos_iff, length_opened_addText]
        exact List.length_pos_iff.2 inside
      have joined : charactersOf (event :: pieces) = text ++ charactersOf pieces := by
        rw [charactersOf, List.filterMap_cons_some here, String.join_cons, charactersOf]
      rw [List.foldlM_cons, next_characters inside here, joined, ← addText_addText]
      exact ih still all.2

/-! ## Layout between children -/

/-- The same but for blank text in one open element, inside of which `depth` elements are open. -/
inductive Alike (depth : Nat) (parent : Bool) : OpenDocument → OpenDocument → Prop
  | mk (inner : List Element) {outer : List Element} {root : Option Element} {name text text' : String}
      {attributes : List (String × String)} {children : List Element} (level : inner.length = depth)
      (blank : isBlankText text) (blank' : isBlankText text') (child : parent = true → depth = 0 → children ≠ []) :
      Alike depth parent ⟨inner ++ ⟨name, attributes, text, children⟩ :: outer, root⟩
        ⟨inner ++ ⟨name, attributes, text', children⟩ :: outer, root⟩

namespace Alike

theorem symm (h : Alike depth parent p p') : Alike depth parent p' p := by
  obtain ⟨inner, level, blank, blank', child⟩ := h
  exact .mk inner level blank' blank child

theorem root_eq (h : Alike depth parent p p') : p.root = p'.root := by
  cases h
  rfl

theorem elementOf_eq (h : Alike depth parent p p') (tag : Tag) : p.elementOf tag = p'.elementOf tag := by
  rw [elementOf, elementOf, h.root_eq]

/-- Blank text that is added to the one document only. -/
theorem addText (h : Alike 0 parent p p') {text : String} (added : isBlankText text) :
    Alike 0 parent (p.addText text) p' := by
  obtain @⟨inner, outer, root, name, own, own', attributes, children, level, blank, blank', child⟩ := h
  obtain rfl : inner = [] := List.eq_nil_of_length_eq_zero level
  have still : isBlankText (own ++ text) := by
    rw [isBlankText_iff, String.toList_append]
    exact Text.AllBlank.append (isBlankText_iff.1 blank) (isBlankText_iff.1 added)
  exact .mk [] level still blank' child

theorem push (h : Alike depth parent p p') (e : Element) :
    Alike (depth + 1) true { p with opened := e :: p.opened } { p' with opened := e :: p'.opened } := by
  obtain @⟨inner, outer, root, name, own, own', attributes, children, level, blank, blank', child⟩ := h
  exact .mk (e :: inner) (congrArg (· + 1) level) blank blank' nofun

theorem close (h : Alike depth parent p p') (e : Element) :
    Alike depth true (OpenDocument.close e p.opened p.root) (OpenDocument.close e p'.opened p'.root) := by
  obtain @⟨inner, outer, root, name, own, own', attributes, children, level, blank, blank', child⟩ := h
  cases inner with
  | nil =>
      have child : children ++ [settled e] ≠ [] := List.append_ne_nil_of_right_ne_nil _ (List.cons_ne_nil _ _)
      exact .mk [] level blank blank' fun _ _ => child
  | cons first inner =>
      have inside : depth ≠ 0 := level ▸ Nat.succ_ne_zero inner.length
      exact .mk ({ first with children := first.children ++ [settled e] } :: inner) level blank blank'
        fun _ outside => absurd outside inside

theorem addText_both (h : Alike depth parent p p') (inside : depth ≠ 0) (text : String) :
    Alike depth parent (p.addText text) (p'.addText text) := by
  obtain @⟨inner, outer, root, name, own, own', attributes, children, level, blank, blank', child⟩ := h
  cases inner with
  | nil => exact absurd level.symm inside
  | cons first inner => exact .mk ({ first with text := first.text ++ text } :: inner) level blank blank' child

theorem opened_ne_nil (h : Alike depth parent p p') : p.opened ≠ [] := by
  cases h
  simp

/-- Both documents go on alike, or for the same reason neither does. -/
def Steps (depth : Nat) (parent : Bool) (x x' : Except Fault OpenDocument) : Prop :=
  (∃ fault, x = .error fault ∧ x' = .error fault) ∨ ∃ q q', x = .ok q ∧ x' = .ok q' ∧ Alike depth parent q q'

theorem Steps.bind_eq {x x' : Except Fault OpenDocument} (h : Steps depth parent x x')
    {f f' : OpenDocument → Except Fault Element} (same : ∀ q q', Alike depth parent q q' → f q = f' q') :
    x >>= f = x' >>= f' := by
  rcases h with ⟨fault, rfl, rfl⟩ | ⟨q, q', rfl, rfl, alike⟩
  · rfl
  · exact same q q' alike

theorem steps_opening (h : Alike depth parent p p') (tag : Tag) :
    Steps (depth + 1) true (p.next (.opening tag)) (p'.next (.opening tag)) := by
  rw [next, next, h.elementOf_eq tag]
  cases p'.elementOf tag with
  | error fault => exact .inl ⟨fault, rfl, rfl⟩
  | ok e => exact .inr ⟨_, _, rfl, rfl, h.push e⟩

theorem steps_emptyTag (h : Alike depth parent p p') (tag : Tag) :
    Steps depth true (p.next (.emptyTag tag)) (p'.next (.emptyTag tag)) := by
  rw [next, next, h.elementOf_eq tag]
  cases p'.elementOf tag with
  | error fault => exact .inl ⟨fault, rfl, rfl⟩
  | ok e => exact .inr ⟨_, _, rfl, rfl, h.close e⟩

theorem steps_closing (h : Alike (depth + 1) parent p p') (name : String) :
    Steps depth true (p.next (.closing name)) (p'.next (.closing name)) := by
  obtain @⟨inner, outer, root, around, own, own', attributes, children, level, blank, blank', -⟩ := h
  cases inner with
  | nil => cases level
  | cons first inner =>
      have outside : Alike depth false ⟨inner ++ ⟨around, attributes, own, children⟩ :: outer, root⟩
          ⟨inner ++ ⟨around, attributes, own', children⟩ :: outer, root⟩ :=
        .mk inner (Nat.succ.inj level) blank blank' nofun
      by_cases same : first.name = name
      · exact .inr ⟨_, _, if_pos same, if_pos same, outside.close first⟩
      · exact .inl ⟨.mismatched name first.name, if_neg same, if_neg same⟩

theorem steps_kept (h : Alike depth parent p p') (noTag : ¬event.IsTag) (apart : depth = 0 → event.characters? = none) :
    Steps depth parent (p.next event) (p'.next event) := by
  cases data : event.characters? with
  | some text =>
      have inside : depth ≠ 0 := fun outside => nomatch data.symm.trans (apart outside)
      exact .inr ⟨_, _, next_characters h.opened_ne_nil data, next_characters h.symm.opened_ne_nil data,
        h.addText_both inside text⟩
  | none =>
      cases event with
      | opening tag => exact absurd trivial noTag
      | closing name => exact absurd trivial noTag
      | emptyTag tag => exact absurd trivial noTag
      | text content =>
          cases content with
          | error fault => exact .inl ⟨.badText fault, rfl, rfl⟩
          | ok text => cases data
      | cdata content => cases data
      | _ => exact .inr ⟨p, p', rfl, rfl, h⟩

theorem next_closing_eq (h : Alike 0 true p p') (name : String) : p.next (.closing name) = p'.next (.closing name) := by
  obtain @⟨inner, outer, root, around, own, own', attributes, children, level, blank, blank', child⟩ := h
  obtain rfl : inner = [] := List.eq_nil_of_length_eq_zero level
  have same : settled ⟨around, attributes, own, children⟩ = settled ⟨around, attributes, own', children⟩ := by
    simp [settled, child rfl rfl, blank, blank']
  simp only [List.nil_append, next, close_congr same]

/-- An element that has just been opened has no text and no children. -/
theorem of_opening {tag : Tag} (h : p.next (.opening tag) = .ok q) : Alike 0 false q q := by
  cases takes_of_next h with
  | opening root read => exact .mk [] rfl isBlankText_empty isBlankText_empty nofun
  | aside aside => exact aside.elim

theorem finishReading_nil (h : Alike depth parent p p') (fault : Option SyntaxFault) :
    p.finishReading ⟨[], fault⟩ = p'.finishReading ⟨[], fault⟩ := by
  obtain @⟨inner, outer, root, around, own, own', attributes, children, level, blank, blank', child⟩ := h
  cases fault with
  | none => cases inner <;> rfl
  | some fault => rfl

end Alike

end OpenDocument

theorem Relaid.finishReading_eq {depth : Nat} {parent : Bool} {es es' : List Event} (h : Relaid depth parent es es')
    {p p' : OpenDocument} (alike : OpenDocument.Alike depth parent p p') (fault : Option SyntaxFault) :
    p.finishReading ⟨es, fault⟩ = p'.finishReading ⟨es', fault⟩ := by
  -- The difference lasts until the one element closes: it has a child then, so both of its texts are dropped.
  induction h generalizing p p' with
  | cutOff => exact alike.finishReading_nil fault
  | closed name rest =>
      rw [OpenDocument.finishReading_cons, OpenDocument.finishReading_cons, alike.next_closing_eq]
  | removed blank _ ih =>
      obtain ⟨text, data, blank⟩ := blank
      rw [OpenDocument.finishReading_cons, OpenDocument.next_characters alike.opened_ne_nil data]
      exact ih (alike.addText blank)
  | added blank _ ih =>
      obtain ⟨text, data, blank⟩ := blank
      rw [OpenDocument.finishReading_cons, OpenDocument.next_characters alike.symm.opened_ne_nil data]
      exact ih (alike.symm.addText blank).symm
  | kept noTag apart _ ih =>
      rw [OpenDocument.finishReading_cons, OpenDocument.finishReading_cons]
      exact (alike.steps_kept noTag apart).bind_eq fun q q' alike => ih alike
  | emptyTag tag _ ih =>
      rw [OpenDocument.finishReading_cons, OpenDocument.finishReading_cons]
      exact (alike.steps_emptyTag tag).bind_eq fun q q' alike => ih alike
  | opening tag _ ih =>
      rw [OpenDocument.finishReading_cons, OpenDocument.finishReading_cons]
      exact (alike.steps_opening tag).bind_eq fun q q' alike => ih alike
  | closing name _ ih =>
      rw [OpenDocument.finishReading_cons, OpenDocument.finishReading_cons]
      exact (alike.steps_closing name).bind_eq fun q q' alike => ih alike

/-! ## Documents -/

theorem Recast.finishReading_eq {events events' : List Event} (h : Recast events events')
    (fault : Option SyntaxFault) :
    OpenDocument.start.finishReading ⟨events, fault⟩ = OpenDocument.start.finishReading ⟨events', fault⟩ := by
  cases h with
  | aside before event after aside =>
      refine OpenDocument.finishReading_congr fun q _ => ?_
      rw [OpenDocument.finishReading_cons, (OpenDocument.Takes.aside aside).next_eq]
      rfl
  | characters before pieces pieces' after inside all same =>
      refine OpenDocument.finishReading_congr fun q opened => ?_
      have inside : q.opened ≠ [] := List.length_pos_iff.1 (opened ▸ inside)
      rw [List.forall_mem_append] at all
      rw [OpenDocument.finishReading_append, OpenDocument.finishReading_append,
        OpenDocument.foldlM_pieces inside all.1, OpenDocument.foldlM_pieces inside all.2, same]
  | emptyTag before tag after =>
      refine OpenDocument.finishReading_congr fun q _ => ?_
      simp only [OpenDocument.finishReading_cons, OpenDocument.next_emptyTag, bind_assoc]
  | layout before tag relaid =>
      refine OpenDocument.finishReading_congr fun q _ => ?_
      rw [OpenDocument.finishReading_cons, OpenDocument.finishReading_cons]
      cases step : q.next (.opening tag) with
      | error found => rfl
      | ok m => exact relaid.finishReading_eq (OpenDocument.Alike.of_opening step) fault

namespace Element

/-- Rows of events that differ in presentation alone are put together to the same element, or refused for the same
reason. Of two documents whose events differ so, either both are read and give the same element, or neither is. -/
theorem parse_recast {events events' : List Event} (recast : Relation.EqvGen Recast events events') :
    ofEvents events = ofEvents events' ∧
      ∀ document document' : String, (Reading.ofText document.toList).events = events →
        (Reading.ofText document'.toList).events = events' →
        ((Reading.ofText document.toList).fault = none ↔ (Reading.ofText document'.toList).fault = none) →
        ∀ root, parse document = .ok root ↔ parse document' = .ok root := by
  have same (fault : Option SyntaxFault) : ofReading ⟨events, fault⟩ = ofReading ⟨events', fault⟩ := by
    rw [OpenDocument.ofReading_eq, OpenDocument.ofReading_eq]
    induction recast with
    | rel _ _ step => exact step.finishReading_eq fault
    | refl _ => rfl
    | symm _ _ _ ih => exact ih.symm
    | trans _ _ _ _ _ first second => exact first.trans second
  refine ⟨same none, fun document document' read read' ends root => ?_⟩
  by_cases whole : (Reading.ofText document.toList).fault = none
  · have first : parse document = ofReading ⟨events, none⟩ := by rw [← read, ← whole]; rfl
    have second : parse document' = ofReading ⟨events', none⟩ := by rw [← read', ← ends.1 whole]; rfl
    rw [first, second, same]
  · refine iff_of_false (fun eq => ?_) fun eq => ?_
    · exact whole ((exists_ofReading_iff _).1 ⟨root, eq⟩).1
    · exact whole (ends.2 ((exists_ofReading_iff _).1 ⟨root, eq⟩).1)

theorem parse_recast_lvs :
    let document := "<?xml version='1.0'?><lvs>\n <deck>a<![CDATA[<b>]]></deck><empty></empty></lvs>"
    let document' := "<lvs><!-- decks --><deck>a&lt;b></deck><empty/> </lvs>"
    let e : Element := ⟨"lvs", [], "", [⟨"deck", [], "a<b>", []⟩, ⟨"empty", [], "", []⟩]⟩
    Relation.EqvGen Recast (Reading.ofText document.toList).events (Reading.ofText document'.toList).events ∧
      parse document = .ok e ∧ parse document' = .ok e := by
  intro document document' e
  let lvs : Tag := ⟨"lvs", .ok []⟩
  let deck : Tag := ⟨"deck", .ok []⟩
  let empty : Tag := ⟨"empty", .ok []⟩
  have read : (Reading.ofText document.toList).events = [.declaration, .opening lvs, .text (.ok "\n "), .opening deck,
      .text (.ok "a"), .cdata "<b>", .closing "deck", .opening empty, .closing "empty", .closing "lvs"] := by
    decide +kernel
  have read' : (Reading.ofText document'.toList).events = [.opening lvs, .comment, .opening deck, .text (.ok "a<b>"),
      .closing "deck", .emptyTag empty, .text (.ok " "), .closing "lvs"] := by
    decide +kernel
  have declared := Recast.aside [] .declaration [.opening lvs, .text (.ok "\n "), .opening deck, .text (.ok "a"),
    .cdata "<b>", .closing "deck", .opening empty, .closing "empty", .closing "lvs"] trivial
  have joined := Recast.characters [.opening lvs, .text (.ok "\n "), .opening deck] [.text (.ok "a"), .cdata "<b>"]
    [.text (.ok "a<b>")] [.closing "deck", .opening empty, .closing "empty", .closing "lvs"] (by decide) (by decide)
    (by decide)
  have oneTag := Recast.emptyTag [.opening lvs, .text (.ok "\n "), .opening deck, .text (.ok "a<b>"), .closing "deck"]
    empty [.closing "lvs"]
  have relaid : Relaid 0 false
      [.text (.ok "\n "), .opening deck, .text (.ok "a<b>"), .closing "deck", .emptyTag empty, .closing "lvs"]
      [.opening deck, .text (.ok "a<b>"), .closing "deck", .emptyTag empty, .text (.ok " "), .closing "lvs"] :=
    .removed ⟨"\n ", rfl, by decide⟩ (.opening deck (.kept id nofun (.closing "deck" (.emptyTag empty
      (.added ⟨" ", rfl, by decide⟩ (.closed "lvs" []))))))
  have layout := Recast.layout [] lvs relaid
  have commented := Recast.aside [.opening lvs] .comment [.opening deck, .text (.ok "a<b>"), .closing "deck",
    .emptyTag empty, .text (.ok " "), .closing "lvs"] trivial
  have recast : Relation.EqvGen Recast (Reading.ofText document.toList).events
      (Reading.ofText document'.toList).events := by
    rw [read, read']
    exact .trans _ _ _ (.symm _ _ (.rel _ _ declared)) (.trans _ _ _ (.rel _ _ joined) (.trans _ _ _
      (.symm _ _ (.rel _ _ oneTag)) (.trans _ _ _ (.rel _ _ layout) (.rel _ _ commented))))
  have whole : (Reading.ofText document.toList).fault = none ↔ (Reading.ofText document'.toList).fault = none := by
    decide +kernel
  have first : parse document = .ok e := by decide +kernel
  exact ⟨recast, first, ((parse_recast recast).2 document document' rfl rfl whole e).1 first⟩

end Element

end LayoutTech.Xml
