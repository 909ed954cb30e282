import LayoutTech.Proofs.Xml.Reading

/-!
# One root

A row of events is put together to an element when it is the row of one element, each closing tag with the name of its
opening tag, and nothing stands around it that does not belong there. Text outside of the root has to be blank, but a
character section may hold anything there: it is passed over.
-/

namespace LayoutTech.Xml

/-! ## Kinds of events -/

deriving instance DecidableEq for Tag, Event, Reading

namespace Event

def IsTag : Event → Prop
  | .opening _ | .closing _ | .emptyTag _ => True
  | _ => False

/-- The event begins an element. -/
def Begins : Event → Prop
  | .opening _ | .emptyTag _ => True
  | _ => False

/-- The attributes or the text that the event has could be read. -/
def Decodes : Event → Prop
  | .opening tag | .emptyTag tag => ∃ attributes, tag.attributes = .ok attributes
  | .text content => ∃ text, content = .ok text
  | _ => True

/-- The event does not count, or is blank text. -/
def IsLayout (event : Event) : Prop := event.IsAside ∨ ∃ text, event = .text (.ok text) ∧ isBlankText text

/-- What may stand around the root: layout, and character sections with anything in them. -/
def IsOutside (event : Event) : Prop := event.IsLayout ∨ ∃ content, event = .cdata content

/-- How many elements are open after the event. -/
def deepen (depth : Nat) : Event → Nat
  | .opening _ => depth + 1
  | .closing _ => depth - 1
  | _ => depth

theorem deepen_of_not_isTag {event : Event} (h : ¬event.IsTag) (depth : Nat) : event.deepen depth = depth := by
  cases event with
  | opening tag => exact absurd trivial h
  | closing name => exact absurd trivial h
  | _ => rfl

theorem IsAside.not_isTag {event : Event} (h : event.IsAside) : ¬event.IsTag := by
  rcases isAside_iff.1 h with rfl | rfl | rfl | rfl <;> exact id

theorem IsAside.decodes {event : Event} (h : event.IsAside) : event.Decodes := by
  rcases isAside_iff.1 h with rfl | rfl | rfl | rfl <;> trivial

theorem IsOutside.not_isTag {event : Event} (h : event.IsOutside) : ¬event.IsTag := by
  rcases h with (aside | ⟨text, rfl, -⟩) | ⟨content, rfl⟩
  · exact aside.not_isTag
  · exact id
  · exact id

end Event

/-- How many elements are open after the events. -/
def depth (events : List Event) : Nat := events.foldl Event.deepen 0

/-- A character section stands outside of every element, when `depth` elements are open before these events. -/
def HasSectionOutside (depth : Nat) (events : List Event) : Prop :=
  ∃ before content after, events = before ++ .cdata content :: after ∧ before.foldl Event.deepen depth = 0

/-! ## Elements as rows of events -/

/-- The inside of an element: events other than tags, and whole elements. -/
inductive IsContent : List Event → Prop
  | nil : IsContent []
  | item {event : Event} {rest : List Event} (noTag : ¬event.IsTag) (after : IsContent rest) : IsContent (event :: rest)
  | emptyTag {rest : List Event} (tag : Tag) (after : IsContent rest) : IsContent (.emptyTag tag :: rest)
  | element {inside rest : List Event} (tag : Tag) (content : IsContent inside) (after : IsContent rest) :
      IsContent (.opening tag :: (inside ++ .closing tag.name :: rest))

/-- One element: each closing tag has the name of its opening tag. -/
inductive IsElement : List Event → Prop
  | emptyTag (tag : Tag) : IsElement [.emptyTag tag]
  | pair {inside : List Event} (tag : Tag) (content : IsContent inside) :
      IsElement (.opening tag :: (inside ++ [.closing tag.name]))

/-- One element between events that may stand outside. -/
def IsDocument (outside : Event → Prop) (events : List Event) : Prop :=
  ∃ before element after, events = before ++ (element ++ after) ∧
    (∀ event ∈ before, outside event) ∧ IsElement element ∧ ∀ event ∈ after, outside event

/-- What is left when these elements are open, innermost first: content and the closing tag for each, and then nothing
that may not stand outside. -/
def Closes : List String → List Event → Prop
  | [], events => ∀ event ∈ events, event.IsOutside
  | name :: names, events =>
    ∃ inside rest, events = inside ++ .closing name :: rest ∧ IsContent inside ∧ Closes names rest

section Closes

variable {names : List String} {name : String} {events : List Event}

theorem closes_item {event : Event} (noTag : ¬event.IsTag) :
    Closes (name :: names) (event :: events) ↔ Closes (name :: names) events := by
  constructor
  · rintro ⟨inside, rest, eq, content, outer⟩
    cases content with
    | nil => cases eq; exact absurd trivial noTag
    | item _ after => cases eq; exact ⟨_, rest, rfl, after, outer⟩
    | emptyTag tag after => cases eq; exact absurd trivial noTag
    | element tag content after => cases eq; exact absurd trivial noTag
  · rintro ⟨inside, rest, rfl, content, outer⟩
    exact ⟨event :: inside, rest, rfl, .item noTag content, outer⟩

theorem closes_emptyTag {tag : Tag} :
    Closes (name :: names) (.emptyTag tag :: events) ↔ Closes (name :: names) events := by
  constructor
  · rintro ⟨inside, rest, eq, content, outer⟩
    cases content with
    | nil => cases eq
    | item noTag after => cases eq; exact absurd trivial noTag
    | emptyTag tag after => cases eq; exact ⟨_, rest, rfl, after, outer⟩
    | element tag content after => cases eq
  · rintro ⟨inside, rest, rfl, content, outer⟩
    exact ⟨.emptyTag tag :: inside, rest, rfl, .emptyTag tag content, outer⟩

theorem closes_opening {tag : Tag} :
    Closes (name :: names) (.opening tag :: events) ↔ Closes (tag.name :: name :: names) events := by
  constructor
  · rintro ⟨inside, rest, eq, content, outer⟩
    cases content with
    | nil => cases eq
    | item noTag after => cases eq; exact absurd trivial noTag
    | emptyTag tag after => cases eq
    | @element inner after tag content later =>
        rw [List.cons_append, List.append_assoc, List.cons_append] at eq
        cases eq
        exact ⟨inner, _, rfl, content, after, rest, rfl, later, outer⟩
  · rintro ⟨inner, left, rfl, content, after, rest, rfl, later, outer⟩
    exact ⟨.opening tag :: (inner ++ .closing tag.name :: after), rest, by simp, .element tag content later, outer⟩

theorem closes_closing {closed : String} :
    Closes (name :: names) (.closing closed :: events) ↔ closed = name ∧ Closes names events := by
  constructor
  · rintro ⟨inside, rest, eq, content, outer⟩
    cases content with
    | nil => cases eq; exact ⟨rfl, outer⟩
    | item noTag after => cases eq; exact absurd trivial noTag
    | emptyTag tag after => cases eq
    | element tag content after => cases eq
  · rintro ⟨rfl, outer⟩
    exact ⟨[], events, rfl, .nil, outer⟩

end Closes

/-- A document begins with something that may stand outside, or with the tag of its root. -/
theorem isDocument_cons {outside : Event → Prop} {event : Event} {events : List Event} :
    IsDocument outside (event :: events) ↔
      outside event ∧ IsDocument outside events ∨
        (∃ tag, event = .emptyTag tag ∧ ∀ event ∈ events, outside event) ∨
        ∃ tag inside after, event = .opening tag ∧ events = inside ++ .closing tag.name :: after ∧ IsContent inside ∧
          ∀ event ∈ after, outside event := by
  constructor
  · rintro ⟨before, element, after, eq, first, whole, last⟩
    cases before with
    | nil =>
        cases whole with
        | emptyTag tag => cases eq; exact .inr (.inl ⟨tag, rfl, last⟩)
        | @pair inside tag content =>
            rw [List.nil_append, List.cons_append, List.append_assoc] at eq
            cases eq
            exact .inr (.inr ⟨tag, inside, after, rfl, rfl, content, last⟩)
    | cons other before =>
        cases eq
        rw [List.forall_mem_cons] at first
        exact .inl ⟨first.1, before, element, after, rfl, first.2, whole, last⟩
  · rintro (⟨here, before, element, after, rfl, first, whole, last⟩ | ⟨tag, rfl, last⟩ |
      ⟨tag, inside, after, rfl, rfl, content, last⟩)
    · exact ⟨event :: before, element, after, rfl, List.forall_mem_cons.2 ⟨here, first⟩, whole, last⟩
    · exact ⟨[], [.emptyTag tag], events, rfl, List.forall_mem_nil _, .emptyTag tag, last⟩
    · exact ⟨[], .opening tag :: (inside ++ [.closing tag.name]), after, by simp, List.forall_mem_nil _,
        .pair tag content, last⟩

theorem not_isDocument_nil {outside : Event → Prop} : ¬IsDocument outside [] := by
  rintro ⟨before, element, after, eq, -, whole, -⟩
  cases whole <;> simp at eq

/-! ## Acceptance -/

namespace OpenDocument

variable {p q : OpenDocument} {e : Element} {opened : List Element} {event : Event} {events : List Event}

/-- The document becomes an element with these events. -/
def Accepts (p : OpenDocument) (events : List Event) : Prop := ∃ root, p.finishReading ⟨events, none⟩ = .ok root

theorem accepts_nil : p.Accepts [] ↔ p.opened = [] ∧ p.root.isSome := by
  obtain ⟨opened, root⟩ := p
  cases opened with
  | nil =>
      cases root with
      | none => exact ⟨nofun, nofun⟩
      | some e => exact ⟨fun _ => ⟨rfl, rfl⟩, fun _ => ⟨e, rfl⟩⟩
  | cons e opened => exact ⟨nofun, nofun⟩

theorem accepts_cons : p.Accepts (event :: events) ↔ ∃ q, p.next event = .ok q ∧ q.Accepts events := by
  simp only [Accepts, finishReading_cons, Traced.bind_eq_ok]
  rw [exists_comm]
  simp only [exists_and_left]

theorem accepts_of_next (h : p.next event = .ok q) : p.Accepts (event :: events) ↔ q.Accepts events := by
  simp only [accepts_cons, h, Except.ok.injEq, exists_eq_left']

theorem not_accepts_of_error {fault : Fault} (h : p.next event = .error fault) : ¬p.Accepts (event :: events) := by
  rw [accepts_cons, h]
  exact nofun

theorem next_outside (none : p.opened = []) (h : event.IsOutside) : p.next event = .ok p := by
  have unchanged (text : String) : p.addText text = p := by rw [addText, none]
  rcases h with (aside | ⟨text, rfl, blank⟩) | ⟨content, rfl⟩
  · exact (Takes.aside aside).next_eq
  · exact (Takes.text fun _ => blank).next_eq.trans (congrArg Except.ok (unchanged text))
  · exact (Takes.cdata content).next_eq.trans (congrArg Except.ok (unchanged content))

/-- Everything else is refused there, but for the tag that begins the root. -/
theorem not_accepts_outside (none : p.opened = []) (h : ¬event.IsOutside)
    (root : p.root = .none → ¬event.Begins) : ¬p.Accepts (event :: events) := by
  intro accepted
  obtain ⟨q, step, -⟩ := accepts_cons.1 accepted
  cases takes_of_next step with
  | opening noRoot read => exact root noRoot trivial
  | emptyTag noRoot read => exact root noRoot trivial
  | closing opened => cases none.symm.trans opened
  | text placed => exact h (.inl (.inr ⟨_, rfl, placed none⟩))
  | cdata content => exact h (.inr ⟨content, rfl⟩)
  | aside aside => exact h (.inl (.inl aside))

theorem accepts_after_root (e : Element) : (⟨[], some e⟩ : OpenDocument).Accepts events ↔ Closes [] events := by
  induction events with
  | nil => simp [accepts_nil, Closes]
  | cons event events ih =>
      have all : Closes [] (event :: events) ↔ event.IsOutside ∧ Closes [] events := List.forall_mem_cons
      by_cases here : event.IsOutside
      · rw [accepts_of_next (next_outside rfl here), ih, all]
        exact (and_iff_right here).symm
      · exact iff_of_false (not_accepts_outside rfl here nofun) fun h => here (all.1 h).1

theorem accepts_inside (decodes : ∀ event ∈ events, event.Decodes) (e : Element) (opened : List Element) :
    (⟨e :: opened, none⟩ : OpenDocument).Accepts events ↔ Closes (e.name :: opened.map (·.name)) events := by
  -- Each event does to the open elements what it does to the names that are still to be closed.
  induction events generalizing e opened with
  | nil =>
      rw [accepts_nil]
      constructor
      · exact nofun
      · rintro ⟨inside, rest, eq, -⟩
        simp at eq
  | cons event events ih =>
      rw [List.forall_mem_cons] at decodes
      have ih := ih decodes.2
      cases event with
      | opening tag =>
          obtain ⟨attributes, read⟩ := decodes.1
          rw [accepts_of_next (Takes.opening rfl read).next_eq, ih, closes_opening, List.map_cons]
      | emptyTag tag =>
          obtain ⟨attributes, read⟩ := decodes.1
          rw [accepts_of_next (Takes.emptyTag rfl read).next_eq, close, ih, closes_emptyTag]
      | closing name =>
          rw [closes_closing]
          by_cases same : e.name = name
          · have step : next ⟨e :: opened, none⟩ (.closing name) = .ok (close e opened none) := if_pos same
            rw [accepts_of_next step, and_iff_right same.symm]
            cases opened with
            | nil => exact accepts_after_root _
            | cons outer rest => exact ih _ rest
          · have step : next ⟨e :: opened, none⟩ (.closing name) = .error (.mismatched name e.name) := if_neg same
            exact iff_of_false (not_accepts_of_error step) fun h => same h.1.symm
      | text content =>
          obtain ⟨text, rfl⟩ := decodes.1
          rw [accepts_of_next rfl, closes_item id]
          exact ih _ opened
      | cdata content =>
          rw [accepts_of_next rfl, closes_item id]
          exact ih _ opened
      | _ =>
          rw [accepts_of_next rfl, closes_item id]
          exact ih e opened

theorem accepts_start (decodes : ∀ event ∈ events, event.Decodes) :
    start.Accepts events ↔ IsDocument Event.IsOutside events := by
  -- Nothing changes up to the tag of the root, and from there on it is a matter of what is to be closed.
  induction events with
  | nil => exact iff_of_false (fun h => nomatch (accepts_nil.1 h).2) not_isDocument_nil
  | cons event events ih =>
      rw [List.forall_mem_cons] at decodes
      rw [isDocument_cons]
      by_cases here : event.IsOutside
      · rw [accepts_of_next (next_outside rfl here), ih decodes.2, and_iff_right here]
        refine ⟨.inl, ?_⟩
        rintro (later | ⟨tag, rfl, -⟩ | ⟨tag, inside, after, rfl, -⟩)
        · exact later
        · exact absurd trivial here.not_isTag
        · exact absurd trivial here.not_isTag
      · rw [iff_false_intro here, false_and, false_or]
        cases event with
        | opening tag =>
            obtain ⟨attributes, read⟩ := decodes.1
            rw [accepts_of_next (Takes.opening rfl read).next_eq, start, accepts_inside decodes.2]
            constructor
            · rintro ⟨inside, after, rfl, content, last⟩
              exact .inr ⟨tag, inside, after, rfl, rfl, content, last⟩
            · rintro (⟨other, eq, -⟩ | ⟨other, inside, after, eq, rfl, content, last⟩)
              · cases eq
              · cases eq
                exact ⟨inside, after, rfl, content, last⟩
        | emptyTag tag =>
            obtain ⟨attributes, read⟩ := decodes.1
            rw [accepts_of_next (Takes.emptyTag rfl read).next_eq, start, close, accepts_after_root]
            constructor
            · exact fun last => .inl ⟨tag, rfl, last⟩
            · rintro (⟨other, -, last⟩ | ⟨other, inside, after, eq, -⟩)
              · exact last
              · cases eq
        | _ =>
            refine iff_of_false (not_accepts_outside rfl here fun _ => id) ?_
            rintro (⟨tag, eq, -⟩ | ⟨tag, inside, after, eq, -⟩) <;> cases eq

/-- What cannot be read in a tag or a text is refused wherever it stands. -/
theorem decodes_of_next (h : p.next event = .ok q) : event.Decodes := by
  cases takes_of_next h with
  | opening root read => exact ⟨_, read⟩
  | emptyTag root read => exact ⟨_, read⟩
  | text placed => exact ⟨_, rfl⟩
  | aside aside => exact aside.decodes
  | _ => trivial

theorem decodes_of_accepts (h : p.Accepts events) : ∀ event ∈ events, event.Decodes := by
  induction events generalizing p with
  | nil => exact List.forall_mem_nil _
  | cons event events ih =>
      obtain ⟨q, step, later⟩ := accepts_cons.1 h
      exact List.forall_mem_cons.2 ⟨decodes_of_next step, ih later⟩

end OpenDocument

/-! ## Character sections outside of the root -/

section Sections

variable {depth : Nat} {event : Event} {events : List Event}

theorem foldl_deepen_of_isContent (h : IsContent events) (depth : Nat) : events.foldl Event.deepen depth = depth := by
  induction h generalizing depth with
  | nil => rfl
  | item noTag _ ih => rw [List.foldl_cons, Event.deepen_of_not_isTag noTag, ih]
  | emptyTag tag _ ih => exact ih depth
  | element tag _ _ inner later =>
      rw [List.foldl_cons, List.foldl_append, inner, List.foldl_cons]
      exact later depth

theorem isContent_of_outside (h : ∀ event ∈ events, event.IsOutside) : IsContent events := by
  induction events with
  | nil => exact .nil
  | cons event events ih =>
      rw [List.forall_mem_cons] at h
      exact .item h.1.not_isTag (ih h.2)

theorem IsElement.isContent (h : IsElement events) : IsContent events := by
  cases h with
  | emptyTag tag => exact .emptyTag tag .nil
  | pair tag content => exact .element tag content .nil

theorem hasSectionOutside_append {before after : List Event} :
    HasSectionOutside depth (before ++ after) ↔
      HasSectionOutside depth before ∨ HasSectionOutside (before.foldl Event.deepen depth) after := by
  constructor
  · rintro ⟨first, content, last, eq, outside⟩
    rcases List.append_eq_append_iff.1 eq with ⟨between, rfl, rfl⟩ | ⟨between, rfl, left⟩
    · rw [List.foldl_append] at outside
      exact .inr ⟨between, content, last, rfl, outside⟩
    · cases between with
      | nil =>
          rw [List.append_nil]
          exact .inr ⟨[], content, last, left.symm, outside⟩
      | cons here between =>
          cases left
          exact .inl ⟨first, content, between, rfl, outside⟩
  · rintro (⟨first, content, last, rfl, outside⟩ | ⟨first, content, last, rfl, outside⟩)
    · exact ⟨first, content, last ++ after, by simp, outside⟩
    · exact ⟨before ++ first, content, last, by simp, by rw [List.foldl_append, outside]⟩

theorem hasSectionOutside_cons :
    HasSectionOutside depth (event :: events) ↔
      (∃ content, event = .cdata content) ∧ depth = 0 ∨ HasSectionOutside (event.deepen depth) events := by
  constructor
  · rintro ⟨before, content, after, eq, outside⟩
    cases before with
    | nil => cases eq; exact .inl ⟨⟨content, rfl⟩, outside⟩
    | cons first before => cases eq; exact .inr ⟨before, content, after, rfl, outside⟩
  · rintro (⟨⟨content, rfl⟩, outside⟩ | ⟨before, content, after, rfl, outside⟩)
    · exact ⟨[], content, events, rfl, outside⟩
    · exact ⟨event :: before, content, after, rfl, outside⟩

theorem not_hasSectionOutside_nil : ¬HasSectionOutside depth [] := by
  rintro ⟨before, content, after, eq, -⟩
  simp at eq

theorem not_hasSectionOutside_of_isContent (h : IsContent events) (inside : 0 < depth) :
    ¬HasSectionOutside depth events := by
  induction h generalizing depth with
  | nil => exact not_hasSectionOutside_nil
  | item noTag _ ih =>
      rw [hasSectionOutside_cons, Event.deepen_of_not_isTag noTag]
      exact not_or.2 ⟨fun here => inside.ne' here.2, ih inside⟩
  | emptyTag tag _ ih =>
      rw [hasSectionOutside_cons]
      exact not_or.2 ⟨fun here => inside.ne' here.2, ih inside⟩
  | @element inner rest tag content _ innerIh restIh =>
      have closed : (Event.closing tag.name).deepen (depth + 1) = depth := rfl
      rw [hasSectionOutside_cons, Event.deepen, hasSectionOutside_append, foldl_deepen_of_isContent content,
        hasSectionOutside_cons, closed]
      exact not_or.2 ⟨fun here => inside.ne' here.2,
        not_or.2 ⟨innerIh (Nat.succ_pos depth), not_or.2 ⟨fun here => Nat.succ_ne_zero _ here.2, restIh inside⟩⟩⟩

theorem not_hasSectionOutside_of_isElement (h : IsElement events) : ¬HasSectionOutside 0 events := by
  cases h with
  | emptyTag tag =>
      rw [hasSectionOutside_cons]
      exact not_or.2 ⟨nofun, not_hasSectionOutside_nil⟩
  | pair tag content =>
      have closing : ¬HasSectionOutside 1 [.closing tag.name] := by
        rw [hasSectionOutside_cons]
        exact not_or.2 ⟨nofun, not_hasSectionOutside_nil⟩
      rw [hasSectionOutside_cons, Event.deepen, hasSectionOutside_append, foldl_deepen_of_isContent content]
      exact not_or.2 ⟨nofun, not_or.2 ⟨not_hasSectionOutside_of_isContent content Nat.one_pos, closing⟩⟩

/-- Outside of the root, there is layout only exactly when there is no character section. -/
theorem forall_isLayout_iff (h : ∀ event ∈ events, event.IsOutside) :
    (∀ event ∈ events, event.IsLayout) ↔ ¬HasSectionOutside 0 events := by
  induction events with
  | nil => exact iff_of_true (List.forall_mem_nil _) not_hasSectionOutside_nil
  | cons event events ih =>
      rw [List.forall_mem_cons] at h
      rw [List.forall_mem_cons, hasSectionOutside_cons, Event.deepen_of_not_isTag h.1.not_isTag, not_or, ih h.2]
      refine and_congr_left' ?_
      constructor
      · rintro (aside | ⟨text, rfl, -⟩) ⟨⟨content, eq⟩, -⟩
        · cases eq
          exact aside
        · cases eq
      · intro noSection
        exact h.1.resolve_right fun here => noSection ⟨here, rfl⟩

theorem isDocument_isLayout_iff :
    IsDocument Event.IsLayout events ↔ IsDocument Event.IsOutside events ∧ ¬HasSectionOutside 0 events := by
  have around {before element after : List Event} (first : ∀ event ∈ before, event.IsOutside)
      (whole : IsElement element) (last : ∀ event ∈ after, event.IsOutside) :
      ¬HasSectionOutside 0 (before ++ (element ++ after)) ↔
        (∀ event ∈ before, event.IsLayout) ∧ ∀ event ∈ after, event.IsLayout := by
    rw [hasSectionOutside_append, foldl_deepen_of_isContent (isContent_of_outside first), hasSectionOutside_append,
      foldl_deepen_of_isContent whole.isContent, not_or, not_or, forall_isLayout_iff first, forall_isLayout_iff last,
      and_iff_right (not_hasSectionOutside_of_isElement whole)]
  constructor
  · rintro ⟨before, element, after, rfl, first, whole, last⟩
    have firstOutside : ∀ event ∈ before, event.IsOutside := fun event h => .inl (first event h)
    have lastOutside : ∀ event ∈ after, event.IsOutside := fun event h => .inl (last event h)
    exact ⟨⟨before, element, after, rfl, firstOutside, whole, lastOutside⟩,
      (around firstOutside whole lastOutside).2 ⟨first, last⟩⟩
  · rintro ⟨⟨before, element, after, rfl, first, whole, last⟩, noSection⟩
    obtain ⟨firstLayout, lastLayout⟩ := (around first whole last).1 noSection
    exact ⟨before, element, after, rfl, firstLayout, whole, lastLayout⟩

end Sections

/-! ## Depth -/

namespace OpenDocument

variable {p q : OpenDocument} {events : List Event}

theorem length_opened_close (e : Element) (opened : List Element) (root : Option Element) :
    (close e opened root).opened.length = opened.length := by
  cases opened <;> rfl

theorem length_opened_addText (p : OpenDocument) (text : String) :
    (p.addText text).opened.length = p.opened.length := by
  unfold addText
  split
  · next eq => rw [eq, List.length_cons, List.length_cons]
  · rfl

theorem length_opened_of_next {event : Event} (h : p.next event = .ok q) :
    q.opened.length = event.deepen p.opened.length := by
  cases takes_of_next h with
  | opening root read => rfl
  | emptyTag root read => exact length_opened_close _ p.opened p.root
  | closing opened =>
      rw [length_opened_close, opened]
      rfl
  | text placed => exact length_opened_addText p _
  | cdata content => exact length_opened_addText p content
  | aside aside => exact (Event.deepen_of_not_isTag aside.not_isTag _).symm

theorem length_opened_of_foldlM (h : events.foldlM next p = .ok q) :
    q.opened.length = events.foldl Event.deepen p.opened.length := by
  induction events generalizing p with
  | nil => cases h; rfl
  | cons event events ih =>
      obtain ⟨m, step, run⟩ := Traced.bind_eq_ok.1 (List.foldlM_cons.symm.trans h)
      rw [ih run, length_opened_of_next step, List.foldl_cons]

/-- What follows can be exchanged for what does the same to every document with as many open elements. -/
theorem finishReading_congr {before after after' : List Event} {fault : Option SyntaxFault}
    (same : ∀ q : OpenDocument, q.opened.length = depth before →
      q.finishReading ⟨after, fault⟩ = q.finishReading ⟨after', fault⟩) :
    start.finishReading ⟨before ++ after, fault⟩ = start.finishReading ⟨before ++ after', fault⟩ := by
  rw [finishReading_append, finishReading_append]
  cases run : before.foldlM next start with
  | error found => rfl
  | ok q => exact same q (length_opened_of_foldlM run)

end OpenDocument

/-! ## Documents -/

namespace Element

/-- Whatever is read of a document: it becomes an element when there is no fault in it, all tags and texts could be
read, and it is one element with nothing around it that may not stand there. -/
theorem exists_ofReading_iff (reading : Reading) :
    (∃ root, ofReading reading = .ok root) ↔
      reading.fault = none ∧ (∀ event ∈ reading.events, event.Decodes) ∧
        IsDocument Event.IsOutside reading.events := by
  obtain ⟨events, fault⟩ := reading
  rw [OpenDocument.ofReading_eq]
  cases fault with
  | none =>
      rw [eq_self, true_and]
      constructor
      · intro accepted
        have decodes := OpenDocument.decodes_of_accepts accepted
        exact ⟨decodes, (OpenDocument.accepts_start decodes).1 accepted⟩
      · exact fun ⟨decodes, whole⟩ => (OpenDocument.accepts_start decodes).2 whole
  | some fault =>
      refine iff_of_false ?_ fun h => nomatch h.1
      rintro ⟨root, eq⟩
      obtain ⟨p, -, broken⟩ := Traced.bind_eq_ok.1 eq
      cases broken

/-- A character section outside of the root is passed over. -/
theorem ofReading_section {before : List Event} (outside : depth before = 0) (content : String) (after : List Event)
    (fault : Option SyntaxFault) :
    ofReading ⟨before ++ .cdata content :: after, fault⟩ = ofReading ⟨before ++ after, fault⟩ := by
  rw [OpenDocument.ofReading_eq, OpenDocument.ofReading_eq]
  apply OpenDocument.finishReading_congr
  intro q opened
  rw [outside, List.length_eq_zero_iff] at opened
  rw [OpenDocument.finishReading_cons, OpenDocument.next_outside opened (.inr ⟨content, rfl⟩)]
  rfl

/-- A document is accepted when its markup is without fault, its tags and texts can be read, and it is one element
with nothing around it but layout and character sections. The sections outside of the root are passed over; with layout
alone around the root, these are the accepted documents that have no such section. -/
theorem parse_single_root (document : String) :
    let reading := Reading.ofText document.toList
    ((∃ root, parse document = .ok root) ↔
        reading.fault = none ∧ (∀ event ∈ reading.events, event.Decodes) ∧
          IsDocument Event.IsOutside reading.events) ∧
      ((∃ root, parse document = .ok root) ∧ ¬HasSectionOutside 0 reading.events ↔
        reading.fault = none ∧ (∀ event ∈ reading.events, event.Decodes) ∧
          IsDocument Event.IsLayout reading.events) ∧
      ∀ before content after, reading.events = before ++ .cdata content :: after → depth before = 0 →
        parse document = ofReading ⟨before ++ after, reading.fault⟩ := by
  intro reading
  have accepted : (∃ root, parse document = .ok root) ↔ _ := exists_ofReading_iff reading
  refine ⟨accepted, ?_, ?_⟩
  · rw [accepted, isDocument_isLayout_iff, and_assoc, and_assoc]
  · intro before content after eq outside
    have dropped := ofReading_section outside content after reading.fault
    rw [← eq] at dropped
    exact dropped

/-- Text is refused before the root, but not a character section. -/
theorem parse_single_root_section :
    let document := "<![CDATA[junk]]><a/>"
    let reading := Reading.ofText document.toList
    reading.fault = none ∧ (∀ event ∈ reading.events, event.Decodes) ∧ parse document = .ok { name := "a" } ∧
      ¬IsDocument Event.IsLayout reading.events ∧ parse "junk<a/>" = .error .textOutside := by
  intro document reading
  have read : reading = ⟨[.cdata "junk", .emptyTag ⟨"a", .ok []⟩], none⟩ := by decide +kernel
  have text : parse "junk<a/>" = .error .textOutside := by decide +kernel
  have accepted : parse document = .ok { name := "a" } := by decide +kernel
  rw [read]
  refine ⟨rfl, List.forall_mem_cons.2 ⟨trivial, List.forall_mem_singleton.2 ⟨[], rfl⟩⟩, accepted, ?_, text⟩
  rw [isDocument_isLayout_iff]
  exact fun whole => whole.2 ⟨[], "junk", [.emptyTag ⟨"a", .ok []⟩], rfl, rfl⟩

end Element

end LayoutTech.Xml
