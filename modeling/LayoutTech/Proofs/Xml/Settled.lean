import LayoutTech.Proofs.Xml.RoundTrip
import LayoutTech.Warning

/-!
# Elements that were read

Whatever a document looks like, in the element that is read from it the keys of each tag differ from each other, and
the text of an element with children is empty or not blank as a whole: each element is settled when its tag closes.
-/

namespace LayoutTech.Xml

/-! ## Keys -/

def HasDistinctKeys (attributes : List (String × String)) : Prop := (attributes.map Prod.fst).Nodup

namespace Attributes

theorem new_of_one {total : Nat} {seen : List (List Char × Nat)} {key rest left : List Char}
    {pair : String × String} (h : one total seen key rest = .ok (pair, left)) :
    seen.lookup key = none ∧ pair.1 = String.ofList key := by
  simp only [one] at h
  split at h
  · split at h
    · cases h
    · next new =>
        split at h
        · cases h
          exact ⟨new, rfl⟩
        · cases h
  · cases h

/-- The keys differ from each other, and from those before them. -/
theorem distinct_of_readFrom {total : Nat} {seen : List (List Char × Nat)} {cs : List Char}
    {pairs : List (String × String)} (h : readFrom total seen cs = .ok pairs) :
    HasDistinctKeys pairs ∧ ∀ pair ∈ pairs, seen.lookup pair.1.toList = none := by
  fun_induction readFrom total seen cs generalizing pairs with
  | case1 => cases h; exact ⟨List.nodup_nil, List.forall_mem_nil _⟩
  | case2 => cases h
  | case3 seen cs c after _ key rest pair left first =>
      rename_i ih
      obtain ⟨others, read, eq⟩ := Traced.bind_eq_ok.1 h
      cases eq
      obtain ⟨distinct, later⟩ := ih read
      obtain ⟨new, name⟩ := new_of_one first
      have other : ∀ p ∈ others, p.1 ≠ pair.1 ∧ seen.lookup p.1.toList = none := by
        intro p hp
        have free := later p hp
        rw [List.lookup_cons] at free
        split at free
        · cases free
        · next ne =>
            refine ⟨fun same => ?_, free⟩
            rw [same, name, String.toList_ofList] at ne
            simp at ne
      constructor
      · rw [HasDistinctKeys, List.map_cons, List.nodup_cons]
        refine ⟨fun mem => ?_, distinct⟩
        obtain ⟨p, hp, same⟩ := List.mem_map.1 mem
        exact (other p hp).1 same
      · rw [List.forall_mem_cons, name, String.toList_ofList]
        exact ⟨new, fun p hp => (other p hp).2⟩

end Attributes

/-! ## Tags -/

/-- If a tag has attributes at all, their keys differ from each other. -/
def Tag.IsDistinct (tag : Tag) : Prop := ∀ attributes, tag.attributes = .ok attributes → HasDistinctKeys attributes

def Event.IsDistinct : Event → Prop
  | .opening tag => tag.IsDistinct
  | .emptyTag tag => tag.IsDistinct
  | _ => True

namespace Reading

theorem isDistinct_tagOf (inside : List Char) : (tagOf inside).2.IsDistinct :=
  fun _ read => (Attributes.distinct_of_readFrom read).1

section Steps

variable {total : Nat} {opened : List (List Char)} {cs : List Char} {s : Step}

theorem isDistinct_of_closing (h : closing total opened cs = .ok s) : s.event.IsDistinct := by
  simp only [closing] at h
  split at h
  · cases h
  · split at h
    · cases h
      trivial
    · cases h

theorem isDistinct_of_instruction (h : instruction total opened cs = .ok s) : s.event.IsDistinct := by
  simp only [instruction] at h
  split at h
  · cases h
  · cases h
    split <;> trivial

theorem isDistinct_of_bangEvent {construct : Construct} {body : List Char} {event : Event}
    (h : bangEvent construct body = .ok event) : event.IsDistinct := by
  unfold bangEvent at h
  split at h <;> split at h
  · cases h; trivial
  · cases h
  · cases h; trivial
  · cases h
  · split at h
    · cases h
    · cases h; trivial
  · cases h

theorem isDistinct_of_bang (h : bang total opened cs = .ok s) : s.event.IsDistinct := by
  simp only [bang] at h
  split at h
  · cases h
  · split at h
    · cases h
    · split at h
      · cases h
      · split at h
        · next event => cases h; exact isDistinct_of_bangEvent event
        · cases h

theorem isDistinct_of_tag (h : tag total opened cs = .ok s) : s.event.IsDistinct := by
  simp only [tag] at h
  split at h
  · cases h
  · split at h
    · cases h
      exact isDistinct_tagOf _
    · cases h
      exact isDistinct_tagOf _

theorem isDistinct_of_step {c : Char} (h : step total opened c cs = .ok s) : s.event.IsDistinct := by
  simp only [step] at h
  split at h
  · unfold markup at h
    split at h
    · exact isDistinct_of_bang h
    · exact isDistinct_of_closing h
    · exact isDistinct_of_instruction h
    · exact isDistinct_of_tag h
  · cases h
    trivial

end Steps

theorem isDistinct_of_mem_readFrom (total : Nat) (opened : List (List Char)) (cs : List Char) :
    ∀ event ∈ (readFrom total opened cs).events, event.IsDistinct := by
  fun_induction readFrom total opened cs with
  | case1 => exact List.forall_mem_nil _
  | case2 => exact List.forall_mem_nil _
  | case3 => exact List.forall_mem_nil _
  | case4 opened c cs _ s read left ih => exact List.forall_mem_cons.2 ⟨isDistinct_of_step read, ih⟩

end Reading

/-! ## Elements -/

/-- The keys differ from each other, and the text is not layout. -/
def Element.IsSettled (e : Element) : Prop := HasDistinctKeys e.attributes ∧ Style.compact.Keeps e

namespace OpenDocument

theorem keeps_settled (e : Element) : Style.compact.Keeps (settled e) := by
  unfold settled
  split
  · exact .inr (.inl rfl)
  · next kept =>
      simp only [Bool.and_eq_true, Bool.not_eq_true', List.isEmpty_eq_false_iff, not_and] at kept
      by_cases leaf : e.children = []
      · exact .inl leaf
      · exact .inr (.inr (by simpa [isBlankText_iff, Text.AllBlank] using kept leaf))

/-- What is known of an element whose tag has not closed yet. -/
def IsSound (e : Element) : Prop := HasDistinctKeys e.attributes ∧ ∀ c ∈ e.children, c.Everywhere Element.IsSettled

/-- What is known of a document that is being put together. -/
structure Sound (p : OpenDocument) : Prop where
  opened : ∀ e ∈ p.opened, IsSound e
  root : ∀ e ∈ p.root, e.Everywhere Element.IsSettled

variable {p q : OpenDocument} {e : Element}

theorem sound_start : start.Sound := ⟨List.forall_mem_nil _, fun _ h => nomatch h⟩

theorem everywhere_settled (h : IsSound e) : (settled e).Everywhere Element.IsSettled := by
  have same : (settled e).attributes = e.attributes ∧ (settled e).children = e.children := by
    unfold settled
    split <;> exact ⟨rfl, rfl⟩
  refine .mk ⟨?_, keeps_settled e⟩ ?_
  · rw [same.1]
    exact h.1
  · rw [same.2]
    exact h.2

theorem sound_close {opened : List Element} {root : Option Element} (h : IsSound e) (outer : Sound ⟨opened, root⟩) :
    Sound (close e opened root) := by
  have closed := everywhere_settled h
  cases opened with
  | nil => exact ⟨List.forall_mem_nil _, fun f hf => Option.some.inj hf ▸ closed⟩
  | cons around rest =>
      have inside := List.forall_mem_cons.1 outer.opened
      refine ⟨List.forall_mem_cons.2 ⟨⟨inside.1.1, ?_⟩, inside.2⟩, outer.root⟩
      rw [List.forall_mem_append, List.forall_mem_singleton]
      exact ⟨inside.1.2, closed⟩

theorem Sound.addText (h : p.Sound) (text : String) : (p.addText text).Sound := by
  obtain ⟨opened, root⟩ := p
  cases opened with
  | nil => exact h
  | cons e rest =>
      have inside := List.forall_mem_cons.1 h.opened
      exact ⟨List.forall_mem_cons.2 ⟨⟨inside.1.1, inside.1.2⟩, inside.2⟩, h.root⟩

theorem Sound.next {event : Event} (h : p.Sound) (distinct : event.IsDistinct) (step : p.next event = .ok q) :
    q.Sound := by
  cases takes_of_next step with
  | opening root read =>
      exact ⟨List.forall_mem_cons.2 ⟨⟨distinct _ read, List.forall_mem_nil _⟩, h.opened⟩, h.root⟩
  | emptyTag root read => exact sound_close ⟨distinct _ read, List.forall_mem_nil _⟩ h
  | closing opened =>
      have inside := List.forall_mem_cons.1 (opened ▸ h.opened)
      exact sound_close inside.1 ⟨inside.2, h.root⟩
  | text placed => exact h.addText _
  | cdata content => exact h.addText content
  | aside aside => exact h

theorem Sound.foldlM {events : List Event} (h : p.Sound) (distinct : ∀ event ∈ events, event.IsDistinct)
    (run : events.foldlM OpenDocument.next p = .ok q) : q.Sound := by
  induction events generalizing p with
  | nil => cases run; exact h
  | cons event events ih =>
      rw [List.forall_mem_cons] at distinct
      obtain ⟨next, step, rest⟩ := Traced.bind_eq_ok.1 (List.foldlM_cons.symm.trans run)
      exact ih (h.next distinct.1 step) distinct.2 rest

end OpenDocument

/-! ## Documents -/

namespace Element

variable {document : String} {e : Element}

/-- Every element of a tree that was read is settled. -/
theorem everywhere_isSettled_of_parse (h : parse document = .ok e) : e.Everywhere IsSettled := by
  have distinct := Reading.isDistinct_of_mem_readFrom
    (Text.byteLength (Reading.withoutMark document.toList)) [] (Reading.withoutMark document.toList)
  unfold parse ofReading at h
  split at h
  · obtain ⟨last, run, done⟩ := Traced.bind_eq_ok.1 h
    have sound := OpenDocument.sound_start.foldlM distinct run
    unfold OpenDocument.finish at done
    split at done
    · cases done
    · next root => cases done; exact sound.root e root
    · cases done
  · obtain ⟨last, -, eq⟩ := Traced.bind_eq_ok.1 h
    cases eq

/-- The name and the keys are clean. -/
def HasCleanNames (e : Element) : Prop := IsClean e.name ∧ ∀ pair ∈ e.attributes, IsClean pair.1

instance : DecidablePred HasCleanNames := fun _ => inferInstanceAs (Decidable (_ ∧ _))

theorem survives_of_isSettled (clean : e.Everywhere HasCleanNames) (settled : e.Everywhere IsSettled) :
    e.Survives .compact :=
  (clean.and settled).imp fun _ ⟨⟨name, keys⟩, distinct, keeps⟩ => ⟨⟨name, keys, distinct⟩, keeps⟩

/-- The compact document of what a document holds. -/
def compacted (document : String) : Except Fault String := do
  let e ← parse document
  pure (e.toDocument .compact)

/-- In what was read, every element is settled. When its names are clean, it is read again from its compact document,
whatever the first document looked like, and a document that was compacted is its own compact document. -/
theorem compacted_again (h : parse document = .ok e) :
    (e.Everywhere fun d => HasDistinctKeys d.attributes ∧
        (d.children = [] ∨ d.text = "" ∨ ∃ c ∈ d.text.toList, ¬Text.isBlank c)) ∧
      (e.Everywhere HasCleanNames →
        parse (e.toDocument .compact) = .ok e ∧
          ∀ written, compacted document = .ok written → compacted written = .ok written) := by
  have settled := everywhere_isSettled_of_parse h
  refine ⟨settled, fun clean => ?_⟩
  have again : parse (e.toDocument .compact) = .ok e := (survives_of_isSettled clean settled).parse_eq
  refine ⟨again, fun written compact => ?_⟩
  have same : written = e.toDocument .compact := by
    rw [compacted, h] at compact
    exact (Except.ok.inj compact).symm
  rw [same, compacted, again]
  rfl

theorem compacted_again_lvs :
    let document := "<?xml version='1.0'?>\n<!-- decks -->\n<lvs  mode = 'a &amp; b'>\n" ++
      "  <deck>x<![CDATA[<y>]]>&#33;</deck>\n  <empty></empty>\n</lvs>\n"
    let written := "<?xml version=\"1.0\" encoding=\"utf-8\"?>" ++
      "<lvs mode=\"a &amp; b\"><deck>x&lt;y&gt;!</deck><empty/></lvs>"
    let e : Element := ⟨"lvs", [("mode", "a & b")], "", [⟨"deck", [], "x<y>!", []⟩, ⟨"empty", [], "", []⟩]⟩
    parse document = .ok e ∧ parse written = .ok e ∧ compacted document = .ok written ∧
      compacted written = .ok written := by
  intro document written e
  have read : parse document = .ok e := by decide +kernel
  have text : written = e.toDocument .compact := by decide +kernel
  have compact : compacted document = .ok written := by
    rw [compacted, read, text]
    rfl
  obtain ⟨again, fixed⟩ := (compacted_again read).2 (by decide)
  exact ⟨read, text ▸ again, compact, fixed written compact⟩

end Element

end LayoutTech.Xml
