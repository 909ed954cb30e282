import LayoutTech.Xml.Attribute

/-!
# Events

A document is read as a row of events: tags, text, and what does not count. Reading checks that a
closing tag has the name of the innermost open one; that the whole is one element is not its matter.
What is wrong inside a tag or a text is kept in the event.
-/

namespace LayoutTech.Xml

/-- The name and the attributes of a tag that opens an element. -/
structure Tag where
  name : String
  attributes : Except AttributeFault (List (String × String))

inductive Event where
  | opening (tag : Tag)
  | closing (name : String)
  | emptyTag (tag : Tag)
  | text (content : Except EntityFault String)
  | cdata (content : String)
  | comment
  | instruction
  | declaration
  | doctype

/-- A construct that the end of the document may cut off. -/
inductive Construct where
  | declaration
  | bang
  | comment
  | cdata
  | doctype
  | element
deriving DecidableEq, Repr

def Construct.name : Construct → String
  | .declaration => "XmlDecl"
  | .bang => "Bang"
  | .comment => "Comment"
  | .cdata => "CData"
  | .doctype => "DOCTYPE"
  | .element => "Element"

inductive MarkupFault where
  | unmatchedClosing (expected found : String)
  | cutOff (construct : Construct)
  | strayBang (byte : Char)
  | emptyDoctype
deriving DecidableEq, Repr

def MarkupFault.message : MarkupFault → String
  | .unmatchedClosing expected found => s!"Expecting </{expected}> found </{found}>"
  | .cutOff construct => "Unexpected EOF during reading " ++ construct.name
  | .strayBang byte =>
    "Only Comment (`--`), CDATA (`[CDATA[`) and DOCTYPE (`DOCTYPE`) nodes can start with a '!', but symbol " ++
      s!"`{byte}` found"
  | .emptyDoctype => "DOCTYPE declaration must not be empty"

/-- A fault in the markup and where it was found, in bytes from the start. -/
structure SyntaxFault where
  position : Nat
  fault : MarkupFault
deriving DecidableEq, Repr

/-- The events of a document up to its end or to the first fault in its markup. -/
structure Reading where
  events : List Event
  fault : Option SyntaxFault

namespace Reading

/-- What a step of reading leaves: an event, the open elements, innermost first, and the rest. -/
structure Step where
  event : Event
  opened : List (List Char)
  rest : List Char

/-- The text before the first `>`, and what follows it; without a `>`, the whole text. -/
def cutAtClose (cs : List Char) : List Char × List Char :=
  (cs.takeWhile (· != '>'), (cs.dropWhile (· != '>')).drop 1)

/-- The text before the first `>` at which the text before it, read backwards, satisfies the test. -/
def cutWhere (closes : List Char → Bool) (before : List Char) : List Char → Option (List Char × List Char)
  | [] => none
  | c :: cs =>
    if c = '>' ∧ closes before then some (before.reverse, cs) else cutWhere closes (c :: before) cs

/-- The inside of a tag, up to the first `>` that is not in quotes. -/
def cutTag (quote : Option Char) : List Char → Option (List Char × List Char)
  | [] => none
  | c :: cs =>
    let go (quote : Option Char) := (cutTag quote cs).map fun (inside, rest) => (c :: inside, rest)
    match quote with
    | some q => go (if c = q then none else quote)
    | none =>
      if c = '>' then some ([], cs)
      else go (if c = '"' ∨ c = '\'' then some c else none)

/-- The name of a closing tag: blanks at its end do not count, unless there is nothing else. -/
def closingName (body : List Char) : List Char :=
  let name := (body.reverse.dropWhile isMarkupBlank).reverse
  if name.isEmpty then body else name

/-- A closing tag; `cs` follows the `/`. -/
def closing (total : Nat) (opened : List (List Char)) (cs : List Char) : Except SyntaxFault Step :=
  let (body, rest) := cutAtClose cs
  let position := total - Text.byteLength rest - Text.byteLength ('/' :: body)
  match opened with
  | [] => .error ⟨position, .unmatchedClosing "" (String.ofList body)⟩
  | name :: outer =>
    if closingName body = name then .ok ⟨.closing (String.ofList name), outer, rest⟩
    else .error ⟨position, .unmatchedClosing (String.ofList name) (String.ofList (closingName body))⟩

/-- A declaration is an instruction with the name `xml`. -/
def isDeclaration : List Char → Bool
  | 'x' :: 'm' :: 'l' :: c :: _ :: _ => isMarkupBlank c
  | _ => false

/-- An instruction; `cs` follows the `?`. -/
def instruction (total : Nat) (opened : List (List Char)) (cs : List Char) : Except SyntaxFault Step :=
  let (body, rest) := cutAtClose cs
  if body.length < 2 ∨ body.getLast? ≠ some '?' then
    .error ⟨total - Text.byteLength rest - Text.byteLength ('?' :: body), .cutOff .declaration⟩
  else .ok ⟨if isDeclaration body then .declaration else .instruction, opened, rest⟩

/-- The text begins with the word, in either case of letters. -/
def startsWith (word cs : List Char) : Bool := (cs.take word.length).map Char.toUpper == word

/-- A comment can end here: `--` stands before, and not as part of the start. -/
def closesComment : List Char → Bool
  | '-' :: '-' :: _ :: _ :: _ :: _ => true
  | _ => false

/-- Character data can end here. -/
def closesCdata : List Char → Bool
  | ']' :: ']' :: _ => true
  | _ => false

/-- A document type can end here: every `<` in it is closed. -/
def closesDoctype (before : List Char) : Bool := before.count '<' == before.count '>'

/-- The event of a construct after `<!`, if the construct begins as it has to. -/
def bangEvent : Construct → List Char → Except MarkupFault Event
  | .comment, body => if startsWith "!--".toList body then .ok .comment else .error (.cutOff .comment)
  | .cdata, body =>
    if startsWith "![CDATA[".toList body then .ok (.cdata (String.ofList ((body.drop 8).dropLast.dropLast)))
    else .error (.cutOff .cdata)
  | _, body =>
    if startsWith "!DOCTYPE".toList body then
      if (body.drop 8).all isMarkupBlank then .error .emptyDoctype else .ok .doctype
    else .error (.cutOff .doctype)

/-- The construct that the character after `<!` begins, and where it ends. -/
def bangConstruct? (c : Char) : Option (Construct × (List Char → Bool)) :=
  if c = '-' then some (.comment, closesComment)
  else if c = '[' then some (.cdata, closesCdata)
  else if c = 'D' ∨ c = 'd' then some (.doctype, closesDoctype)
  else none

/-- A comment, character data or a document type; `cs` follows the `<!`. -/
def bang (total : Nat) (opened : List (List Char)) (cs : List Char) : Except SyntaxFault Step :=
  let start := total - Text.byteLength cs - 1
  match cs with
  | [] => .error ⟨start, .cutOff .bang⟩
  | c :: _ =>
    match bangConstruct? c with
    | none => .error ⟨start, .strayBang (Text.firstByte c)⟩
    | some (construct, closes) =>
      match cutWhere closes ['!'] cs with
      | none => .error ⟨start, .cutOff construct⟩
      | some (body, rest) =>
        match bangEvent construct body with
        | .ok event => .ok ⟨event, opened, rest⟩
        | .error fault => .error ⟨total - Text.byteLength rest, fault⟩

/-- The tag whose inside this is: the name goes up to the first blank. -/
def tagOf (inside : List Char) : List Char × Tag :=
  let name := inside.takeWhile fun c => !isMarkupBlank c
  let left := inside.dropWhile fun c => !isMarkupBlank c
  (name, ⟨String.ofList name, Attributes.read (Text.byteLength inside) left⟩)

/-- A tag that opens an element, or is one; `cs` follows the `<`. -/
def tag (total : Nat) (opened : List (List Char)) (cs : List Char) : Except SyntaxFault Step :=
  match cutTag none cs with
  | none => .error ⟨total - Text.byteLength cs, .cutOff .element⟩
  | some (inside, rest) =>
    if inside.getLast? = some '/' then .ok ⟨.emptyTag (tagOf inside.dropLast).2, opened, rest⟩
    else
      let (name, tag) := tagOf inside
      .ok ⟨.opening tag, name :: opened, rest⟩

def markup (total : Nat) (opened : List (List Char)) : List Char → Except SyntaxFault Step
  | '!' :: cs => bang total opened cs
  | '/' :: cs => closing total opened cs
  | '?' :: cs => instruction total opened cs
  | cs => tag total opened cs

/-- The text or the markup at the start of what is left. -/
def step (total : Nat) (opened : List (List Char)) (c : Char) (cs : List Char) : Except SyntaxFault Step :=
  if c = '<' then markup total opened cs
  else
    let content := (Entity.decode (c :: cs.takeWhile (· != '<'))).map String.ofList
    .ok ⟨.text content, opened, cs.dropWhile (· != '<')⟩

theorem length_cutAtClose (cs : List Char) : (cutAtClose cs).2.length ≤ cs.length := by
  have := (List.dropWhile_suffix (· != '>') (l := cs)).length_le
  simp only [cutAtClose, List.length_drop]
  omega

theorem length_cutWhere {closes : List Char → Bool} {before cs body rest : List Char}
    (h : cutWhere closes before cs = some (body, rest)) : rest.length < cs.length := by
  induction cs generalizing before with
  | nil => simp [cutWhere] at h
  | cons c cs ih =>
    simp only [cutWhere] at h
    split at h
    · simp only [Option.some.injEq, Prod.mk.injEq] at h
      simp [h.2]
    · exact Nat.lt_succ_of_lt (ih h)

theorem length_cutTag {quote : Option Char} {cs inside rest : List Char}
    (h : cutTag quote cs = some (inside, rest)) : rest.length < cs.length := by
  induction cs generalizing quote inside with
  | nil => simp [cutTag] at h
  | cons c cs ih =>
    simp only [cutTag] at h
    have step {q : Option Char}
        (h : (cutTag q cs).map (fun (inside, rest) => (c :: inside, rest)) = some (inside, rest)) :
        rest.length < (c :: cs).length := by
      obtain ⟨⟨i, r⟩, hi, he⟩ := Option.map_eq_some_iff.1 h
      injection he with _ he
      subst he
      exact Nat.lt_succ_of_lt (ih hi)
    split at h
    · exact step h
    · split at h
      · simp only [Option.some.injEq, Prod.mk.injEq] at h
        simp [h.2]
      · exact step h

theorem length_closing {total : Nat} {opened : List (List Char)} {cs : List Char} {s : Step}
    (h : closing total opened cs = .ok s) : s.rest.length ≤ cs.length := by
  simp only [closing] at h
  split at h
  · contradiction
  · split at h
    · injection h with h
      subst h
      exact length_cutAtClose cs
    · contradiction

theorem length_instruction {total : Nat} {opened : List (List Char)} {cs : List Char} {s : Step}
    (h : instruction total opened cs = .ok s) : s.rest.length ≤ cs.length := by
  simp only [instruction] at h
  split at h
  · contradiction
  · injection h with h
    subst h
    exact length_cutAtClose cs

theorem length_bang {total : Nat} {opened : List (List Char)} {cs : List Char} {s : Step}
    (h : bang total opened cs = .ok s) : s.rest.length ≤ cs.length := by
  simp only [bang] at h
  split at h
  · contradiction
  · split at h
    · contradiction
    · split at h
      · contradiction
      · next hc =>
        split at h
        · injection h with h
          subst h
          exact Nat.le_of_lt (length_cutWhere hc)
        · contradiction

theorem length_tag {total : Nat} {opened : List (List Char)} {cs : List Char} {s : Step}
    (h : tag total opened cs = .ok s) : s.rest.length ≤ cs.length := by
  simp only [tag] at h
  split at h
  · contradiction
  · next hc =>
    split at h <;>
    · injection h with h
      subst h
      exact Nat.le_of_lt (length_cutTag hc)

/-- Every step takes something away from the text. -/
theorem length_step {total : Nat} {opened : List (List Char)} {c : Char} {cs : List Char} {s : Step}
    (h : step total opened c cs = .ok s) : s.rest.length < (c :: cs).length := by
  rw [List.length_cons, Nat.lt_succ_iff]
  simp only [step] at h
  split at h
  · unfold markup at h
    split at h
    · exact Nat.le_succ_of_le (length_bang h)
    · exact Nat.le_succ_of_le (length_closing h)
    · exact Nat.le_succ_of_le (length_instruction h)
    · exact length_tag h
  · injection h with h
    subst h
    exact (List.dropWhile_suffix _).length_le

/-- The events of the last part of a document of `total` bytes. A `<` at the very end is left out. -/
def readFrom (total : Nat) (opened : List (List Char)) (cs : List Char) : Reading :=
  match cs with
  | [] => ⟨[], none⟩
  | c :: cs =>
    if c = '<' ∧ cs = [] then ⟨[], none⟩
    else
      match _h : step total opened c cs with
      | .error fault => ⟨[], some fault⟩
      | .ok s =>
        let left := readFrom total s.opened s.rest
        ⟨s.event :: left.events, left.fault⟩
  termination_by cs.length
  decreasing_by exact length_step _h

def withoutMark : List Char → List Char
  | c :: cs => if c = '\ufeff' then cs else c :: cs
  | [] => []

def ofText (cs : List Char) : Reading :=
  readFrom (Text.byteLength (withoutMark cs)) [] (withoutMark cs)

end Reading

end LayoutTech.Xml
