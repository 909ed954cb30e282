import LayoutTech.Yaml.Token

/-!
# Nodes

A node is a scalar, a sequence or a mapping, or an alias, which stands for a node with an anchor. Nodes are
read from tokens; whatever reads hands back the tokens it has left over, and that they are fewer.
-/

namespace LayoutTech.Yaml

/-- What is said about a node before its content; `Name` is what anchors are known by. -/
structure Properties (Name : Type) where
  mark : Mark
  anchor : Option Name := none
  tag : Option String := none

inductive Node (Name : Type) where
  | scalar (properties : Properties Name) (style : ScalarStyle) (text : String)
  | sequence (properties : Properties Name) (items : List (Node Name))
  | mapping (properties : Properties Name) (entries : List (Node Name × Node Name))
  | alias (mark : Mark) (target : Name)

instance {Name : Type} : Inhabited (Node Name) := ⟨.scalar { mark := {} } .plain ""⟩

/-- A scalar where nothing is written. -/
def Node.absent {Name : Type} (mark : Mark) : Node Name := .scalar { mark } .plain ""

/-- What was read from some tokens, and fewer than `size` that are left. -/
structure Taken (size : Nat) (α : Type) where
  value : α
  rest : List Token
  shorter : rest.length < size

namespace Taken

/-- The same, measured against more tokens. -/
def widen {α : Type} {size more : Nat} (t : Taken size α) (h : size ≤ more) : Taken more α :=
  ⟨t.value, t.rest, Nat.lt_of_lt_of_le t.shorter h⟩

def map {α β : Type} {size : Nat} (f : α → β) (t : Taken size α) : Taken size β := ⟨f t.value, t.rest, t.shorter⟩

end Taken

abbrev Handles := List (String × String)

def TagText.resolve (handles : Handles) (t : TagText) (mark : Mark) : Except SyntaxFault String :=
  if t.handle.isEmpty then .ok t.suffix
  else match handles.lookup t.handle with
    | some expansion => .ok (expansion ++ t.suffix)
    | none => .error ⟨.undefinedTagHandle, mark⟩

/-- The anchor and the tag before a node, if there is any of them. -/
def properties? (handles : Handles) :
    (ts : List Token) → Except SyntaxFault (Option (Taken ts.length (Properties String)))
  | ⟨.anchor name, mark, _⟩ :: ⟨.tag text, _, _⟩ :: rest => do
    let tag ← text.resolve handles mark
    pure (some ⟨⟨mark, some name, some tag⟩, rest, by simp only [List.length_cons]; omega⟩)
  | ⟨.anchor name, mark, _⟩ :: rest => pure (some ⟨⟨mark, some name, none⟩, rest, Nat.lt_succ_self _⟩)
  | ⟨.tag text, mark, _⟩ :: ⟨.anchor name, _, _⟩ :: rest => do
    let tag ← text.resolve handles mark
    pure (some ⟨⟨mark, some name, some tag⟩, rest, by simp only [List.length_cons]; omega⟩)
  | ⟨.tag text, mark, _⟩ :: rest => do
    let tag ← text.resolve handles mark
    pure (some ⟨⟨mark, none, some tag⟩, rest, Nat.lt_succ_self _⟩)
  | _ => pure none

def startOf (ts : List Token) : Mark := (ts.head?.map Token.start).getD {}

/-- A token that cannot follow the `-` of an entry. -/
def Symbol.endsItem : Symbol → Bool
  | .entry | .blockEnd => true
  | _ => false

/-- A token that cannot start a key or a value of a block mapping. -/
def Symbol.endsField : Symbol → Bool
  | .key | .value | .blockEnd => true
  | _ => false

/-- A token that cannot follow the `-` of an entry that is not indented. -/
def Symbol.endsFlatItem (s : Symbol) : Bool := s.endsItem || s.endsField

/-- A token that cannot start a value between brackets. -/
def Symbol.endsFlowValue : Symbol → Bool
  | .flowEntry | .flowSequenceEnd | .flowMappingEnd => true
  | _ => false

/-- A token that cannot start a key between brackets. -/
def Symbol.endsFlowKey (s : Symbol) : Bool := s = .value || s.endsFlowValue

/-- Where a node stands: between brackets, or outside of them; and there, whether the entries of a sequence
may be as little indented as what they belong to. -/
inductive Position where
  | flow
  | block
  | field
deriving DecidableEq

namespace Node

mutual

def read (handles : Handles) (position : Position) (ts : List Token) :
    Except SyntaxFault (Taken ts.length (Node String)) :=
  match ts with
  | ⟨.alias name, mark, _⟩ :: rest => .ok ⟨.alias mark name, rest, Nat.lt_succ_self _⟩
  | ts => do
    match ← properties? handles ts with
    | some p =>
      have := p.shorter
      match ← content handles position p.value p.rest with
      | some node => pure (node.widen (Nat.le_of_lt this))
      | none => pure (p.map fun properties => .scalar properties .plain "")
    | none =>
      match ← content handles position { mark := startOf ts } ts with
      | some node => pure node
      | none => throw ⟨.content, startOf ts⟩
  termination_by (ts.length, 1)

def content (handles : Handles) (position : Position) (p : Properties String) (ts : List Token) :
    Except SyntaxFault (Option (Taken ts.length (Node String))) :=
  match ts with
  | [] => .ok none
  | t :: rest =>
    let full (node : Taken rest.length (Node String)) : Taken (t :: rest).length (Node String) :=
      node.widen (Nat.le_succ _)
    match t.symbol with
    | .scalar style text =>
      let p := if p.tag = some "!" then { p with tag := none } else p
      .ok (some ⟨.scalar p style text, rest, Nat.lt_succ_self _⟩)
    | .flowSequenceStart => do pure (some (full ((← flowItems handles rest).map (.sequence p))))
    | .flowMappingStart => do pure (some (full ((← flowFields handles rest).map (.mapping p))))
    | .sequenceStart =>
      if position = .flow then .ok none
      else do pure (some (full ((← items handles rest).map (.sequence p))))
    | .mappingStart =>
      if position = .flow then .ok none
      else do pure (some (full ((← fields handles rest).map (.mapping p))))
    | .entry =>
      if position = .field then do pure (some ((← flatItems handles t.stop rest).map (.sequence p)))
      else .ok none
    | _ => .ok none
  termination_by (ts.length, 0)

/-- A node, or an absent one where a token stands that ends it. -/
def readUnless (handles : Handles) (ends : Symbol → Bool) (position : Position) (absentAt : Mark)
    (ts : List Token) : Except SyntaxFault (Taken (ts.length + 1) (Node String)) :=
  match ts with
  | [] => .error ⟨.content, {}⟩
  | t :: rest =>
    if ends t.symbol then .ok ⟨absent absentAt, t :: rest, Nat.lt_succ_self _⟩
    else do pure ((← read handles position (t :: rest)).widen (Nat.le_succ _))
  termination_by (ts.length, 2)

def items (handles : Handles) (ts : List Token) :
    Except SyntaxFault (Taken ts.length (List (Node String))) :=
  match ts with
  | ⟨.entry, _, stop⟩ :: rest => do
    let item ← readUnless handles Symbol.endsItem .block stop rest
    have := item.shorter
    let more ← items handles item.rest
    pure ((more.map (item.value :: ·)).widen (by simp only [List.length_cons]; omega))
  | ⟨.blockEnd, _, _⟩ :: rest => .ok ⟨[], rest, Nat.lt_succ_self _⟩
  | ts => .error ⟨.endOfCollection, startOf ts⟩
  termination_by (ts.length, 0)

/-- The entries of a block sequence that is not indented, after the first `-`. -/
def flatItems (handles : Handles) (stop : Mark) (ts : List Token) :
    Except SyntaxFault (Taken (ts.length + 1) (List (Node String))) := do
  let item ← readUnless handles Symbol.endsFlatItem .block stop ts
  have := item.shorter
  match h : item.rest with
  | ⟨.entry, _, stop⟩ :: rest =>
    have : rest.length + 1 < ts.length + 1 := by rw [h] at this; exact this
    let more ← flatItems handles stop rest
    pure ((more.map (item.value :: ·)).widen (Nat.le_of_lt this))
  | rest => pure ⟨[item.value], rest, h ▸ this⟩
  termination_by (ts.length, 3)

def fields (handles : Handles) (ts : List Token) :
    Except SyntaxFault (Taken ts.length (List (Node String × Node String))) :=
  match ts with
  | ⟨.key, _, stop⟩ :: rest => do
    let key ← readUnless handles Symbol.endsField .field stop rest
    have := key.shorter
    let value ← fieldValue handles key.rest
    have := value.shorter
    let more ← fields handles value.rest
    pure ((more.map ((key.value, value.value) :: ·)).widen (by simp only [List.length_cons]; omega))
  | ⟨.blockEnd, _, _⟩ :: rest => .ok ⟨[], rest, Nat.lt_succ_self _⟩
  | ts => .error ⟨.endOfCollection, startOf ts⟩
  termination_by (ts.length, 0)

def fieldValue (handles : Handles) (ts : List Token) :
    Except SyntaxFault (Taken (ts.length + 1) (Node String)) :=
  match ts with
  | ⟨.value, _, stop⟩ :: rest => do
    pure ((← readUnless handles Symbol.endsField .field stop rest).widen (Nat.le_succ _))
  | ts => .ok ⟨absent (startOf ts), ts, Nat.lt_succ_self _⟩
  termination_by (ts.length, 0)

/-- The entries of a sequence in brackets, where one may start. -/
def flowItems (handles : Handles) (ts : List Token) :
    Except SyntaxFault (Taken ts.length (List (Node String))) :=
  match ts with
  | ⟨.flowSequenceEnd, _, _⟩ :: rest => .ok ⟨[], rest, Nat.lt_succ_self _⟩
  | ⟨.key, mark, _⟩ :: rest => do
    let key ← loneKey handles rest
    have := key.shorter
    let value ← flowValue handles key.rest
    have := value.shorter
    let more ← moreFlowItems handles value.rest
    pure ((more.map (.mapping { mark } [(key.value, value.value)] :: ·)).widen
      (by simp only [List.length_cons]; omega))
  | ts => do
    let item ← read handles .flow ts
    have := item.shorter
    let more ← moreFlowItems handles item.rest
    pure ((more.map (item.value :: ·)).widen (Nat.le_of_lt this))
  termination_by (ts.length, 3)

/-- The key of a mapping that is an entry in brackets. Where it is absent, the token in its place is passed
over. -/
def loneKey (handles : Handles) (ts : List Token) :
    Except SyntaxFault (Taken (ts.length + 1) (Node String)) :=
  match ts with
  | t :: rest =>
    if t.symbol.endsFlowKey && t.symbol ≠ .flowMappingEnd then
      .ok ⟨absent t.stop, rest, by simp only [List.length_cons]; omega⟩
    else do pure ((← read handles .flow (t :: rest)).widen (Nat.le_succ _))
  | [] => .error ⟨.content, {}⟩
  termination_by (ts.length, 3)

/-- The entries of a sequence in brackets, after one. -/
def moreFlowItems (handles : Handles) (ts : List Token) :
    Except SyntaxFault (Taken ts.length (List (Node String))) :=
  match ts with
  | ⟨.flowSequenceEnd, _, _⟩ :: rest => .ok ⟨[], rest, Nat.lt_succ_self _⟩
  | ⟨.flowEntry, _, _⟩ :: rest => do pure ((← flowItems handles rest).widen (Nat.le_succ _))
  | ts => .error ⟨.endOfCollection, startOf ts⟩
  termination_by (ts.length, 0)

/-- The fields of a mapping in brackets, where one may start. -/
def flowFields (handles : Handles) (ts : List Token) :
    Except SyntaxFault (Taken ts.length (List (Node String × Node String))) :=
  match ts with
  | ⟨.flowMappingEnd, _, _⟩ :: rest => .ok ⟨[], rest, Nat.lt_succ_self _⟩
  | ⟨.key, _, _⟩ :: rest => do
    let key ← readUnless handles Symbol.endsFlowKey .flow (startOf rest) rest
    have := key.shorter
    let value ← flowValue handles key.rest
    have := value.shorter
    let more ← moreFlowFields handles value.rest
    pure ((more.map ((key.value, value.value) :: ·)).widen (by simp only [List.length_cons]; omega))
  | ts => do
    let key ← read handles .flow ts
    have := key.shorter
    let more ← moreFlowFields handles key.rest
    pure ((more.map ((key.value, absent (startOf key.rest)) :: ·)).widen (Nat.le_of_lt this))
  termination_by (ts.length, 3)

def flowValue (handles : Handles) (ts : List Token) :
    Except SyntaxFault (Taken (ts.length + 1) (Node String)) :=
  match ts with
  | ⟨.value, _, _⟩ :: rest => do
    pure ((← readUnless handles Symbol.endsFlowValue .flow (startOf rest) rest).widen (Nat.le_succ _))
  | ts => .ok ⟨absent (startOf ts), ts, Nat.lt_succ_self _⟩
  termination_by (ts.length, 0)

/-- The fields of a mapping in brackets, after one. -/
def moreFlowFields (handles : Handles) (ts : List Token) :
    Except SyntaxFault (Taken ts.length (List (Node String × Node String))) :=
  match ts with
  | ⟨.flowMappingEnd, _, _⟩ :: rest => .ok ⟨[], rest, Nat.lt_succ_self _⟩
  | ⟨.flowEntry, _, _⟩ :: rest => do pure ((← flowFields handles rest).widen (Nat.le_succ _))
  | ts => .error ⟨.endOfCollection, startOf ts⟩
  termination_by (ts.length, 0)

end

end Node

end LayoutTech.Yaml
