import LayoutTech.Xml.Entity

/-!
# Attributes

Inside a tag, after its name, stand keys with values in quotes. A key goes up to the next blank or
`=`; keys differ from each other; between two attributes no blank is needed.
-/

namespace LayoutTech.Xml

/-- The blanks of the markup: space, tab and the two line ends. -/
def isMarkupBlank (c : Char) : Bool := c == ' ' || c == '\t' || c == '\r' || c == '\n'

/-- Why the inside of a tag is no row of attributes. Positions count bytes from the start of the tag's
name. -/
inductive AttributeFault where
  | noEquals (position : Nat)
  | noValue (position : Nat)
  | notInQuotes (position : Nat)
  | notClosed (position : Nat) (quote : Char)
  | repeated (position previous : Nat)
  | badValue (fault : EntityFault)
deriving DecidableEq, Repr

def AttributeFault.message : AttributeFault → String
  | .noEquals position =>
    s!"Invalid attribute: position {position}: attribute key must be directly followed by `=` or space"
  | .noValue position => s!"Invalid attribute: position {position}: `=` must be followed by an attribute value"
  | .notInQuotes position =>
    s!"Invalid attribute: position {position}: attribute value must be enclosed in `\"` or `'`"
  | .notClosed position quote =>
    s!"Invalid attribute: position {position}: missing closing quote `{quote}` in attribute value"
  | .repeated position previous =>
    s!"Invalid attribute: position {position}: duplicated attribute, previous declaration at position {previous}"
  | .badValue fault => s!"Invalid attribute value: " ++ fault.message

namespace Attributes

def insideKey (c : Char) : Bool := c != '=' && !isMarkupBlank c

def value (total : Nat) (cs : List Char) : Except AttributeFault (List Char × List Char) :=
  match cs with
  | [] => .error (.noValue total)
  | quote :: inside =>
    if quote = '"' ∨ quote = '\'' then
      match inside.dropWhile (· != quote) with
      | _ :: rest =>
        match Entity.decode (inside.takeWhile (· != quote)) with
        | .ok content => .ok (content, rest)
        | .error fault => .error (.badValue fault)
      | [] => .error (.notClosed total quote)
    else .error (.notInQuotes (total - Text.byteLength cs))

theorem length_value {total : Nat} {cs content rest : List Char} (h : value total cs = .ok (content, rest)) :
    rest.length < cs.length := by
  unfold value at h
  split at h
  · contradiction
  · next quote inside =>
    split at h
    · split at h
      · next eq =>
        split at h
        · injection h with h
          injection h with _ h
          subst h
          have := (List.dropWhile_suffix (· != quote) (l := inside)).length_le
          rw [eq] at this
          simp only [List.length_cons] at this ⊢
          omega
        · contradiction
      · contradiction
    · contradiction

/-- The first attribute at the start of the text, where the text begins with its key, and what follows
it. `seen` holds the keys before it with their positions. -/
def one (total : Nat) (seen : List (List Char × Nat)) (key rest : List Char) :
    Except AttributeFault ((String × String) × List Char) :=
  let position := total - Text.byteLength (key ++ rest)
  match rest.dropWhile isMarkupBlank with
  | '=' :: after =>
    match seen.lookup key with
    | some previous => .error (.repeated position previous)
    | none =>
      match value total (after.dropWhile isMarkupBlank) with
      | .ok (content, left) => .ok ((String.ofList key, String.ofList content), left)
      | .error fault => .error fault
  | left => .error (.noEquals (total - Text.byteLength left))

theorem length_one {total : Nat} {seen : List (List Char × Nat)} {key rest left : List Char}
    {pair : String × String} (h : one total seen key rest = .ok (pair, left)) :
    left.length < rest.length := by
  simp only [one] at h
  split at h
  · next after eq =>
    split at h
    · contradiction
    · split at h
      · next content tail hv =>
        injection h with h
        injection h with _ h
        subst h
        have h₁ := length_value hv
        have h₂ := (List.dropWhile_suffix isMarkupBlank (l := after)).length_le
        have h₃ := (List.dropWhile_suffix isMarkupBlank (l := rest)).length_le
        rw [eq] at h₃
        simp only [List.length_cons] at h₃
        omega
      · contradiction
  · contradiction

/-- The attributes in the last part of the inside of a tag. -/
def readFrom (total : Nat) (seen : List (List Char × Nat)) (cs : List Char) :
    Except AttributeFault (List (String × String)) :=
  match _hd : cs.dropWhile isMarkupBlank with
  | [] => .ok []
  | c :: after =>
    let key := c :: after.takeWhile insideKey
    let rest := after.dropWhile insideKey
    match _ho : one total seen key rest with
    | .error fault => .error fault
    | .ok (pair, left) => do
      let pairs ← readFrom total ((key, total - Text.byteLength (c :: after)) :: seen) left
      pure (pair :: pairs)
  termination_by cs.length
  decreasing_by
    have h₁ := length_one _ho
    have h₂ := (List.dropWhile_suffix insideKey (l := after)).length_le
    have h₃ := (List.dropWhile_suffix isMarkupBlank (l := cs)).length_le
    rw [_hd] at h₃
    simp only [List.length_cons] at h₃
    simp only [rest] at h₁
    omega

/-- The attributes in a tag whose inside, from the name on, has `total` bytes; `cs` follows the name. -/
def read (total : Nat) (cs : List Char) : Except AttributeFault (List (String × String)) :=
  readFrom total [] cs

end Attributes

end LayoutTech.Xml
