import LayoutTech.Number.Decimal
import LayoutTech.Number.Digits
import LayoutTech.Yaml.Token

/-!
# What scalars mean

A plain scalar is a null, a boolean or a number if it is written like one, and a text otherwise. A quoted
scalar is a text. A tag can ask for one of these, or leave it to the scalar.
-/

namespace LayoutTech.Yaml

inductive Atom where
  | null
  | bool (value : Bool)
  | int (value : Int)
  | float (value : Binary64)
  | text (value : String)
deriving DecidableEq

namespace Atom

def isOneOf (cs : List Char) (words : List String) : Bool := words.any (·.toList == cs)

def isNull (cs : List Char) : Bool := isOneOf cs ["null", "Null", "NULL", "~"]

def bool? (cs : List Char) : Option Bool :=
  if isOneOf cs ["true", "True", "TRUE"] then some true
  else if isOneOf cs ["false", "False", "FALSE"] then some false
  else none

/-- The sign at the start, if there is one, and the rest. -/
def signOf : List Char → Option Char × List Char
  | '+' :: cs => (some '+', cs)
  | '-' :: cs => (some '-', cs)
  | cs => (none, cs)

/-- Digits that start with a zero but are not just that: they are not taken as a number. -/
def isPaddedDigits (cs : List Char) : Bool :=
  match (signOf cs).2 with
  | '0' :: d :: ds => (d :: ds).all Char.isDigit
  | _ => false

/-- The number that digits write, in the number system that their start names. -/
def magnitude? : List Char → Option Nat
  | '0' :: 'x' :: ds => Digits.number? 16 ds
  | '0' :: 'o' :: ds => Digits.number? 8 ds
  | '0' :: 'b' :: ds => Digits.number? 2 ds
  | ds => Digits.number? 10 ds

def int? (cs : List Char) : Option Int :=
  if isPaddedDigits cs then none
  else
    let (sign, ds) := signOf cs
    (magnitude? ds).bind fun n =>
      if sign = some '-' then if n ≤ Nat.pow 2 127 then some (-Int.ofNat n) else none
      else if n < Nat.pow 2 128 then some (Int.ofNat n) else none

/-- A number that need not be whole: a finite numeral, or a name of a value that has none. -/
def float? (cs : List Char) : Option Binary64 :=
  let (sign, ds) := signOf cs
  if isOneOf ds [".inf", ".Inf", ".INF"] then some (.infinite (sign = some '-'))
  else if isOneOf cs [".nan", ".NaN", ".NAN"] then some .nan
  else if sign = some '+' && (signOf ds).1.isSome then none
  else (Binary64.ofText? cs).bind fun x => if x.isFinite then some x else none

def ofPlain (text : String) : Atom :=
  let cs := text.toList
  if cs.isEmpty || isNull cs then .null
  else match bool? cs, int? cs with
    | some b, _ => .bool b
    | none, some n => .int n
    | none, none =>
      if isPaddedDigits cs then .text text
      else match float? cs with
        | some x => .float x
        | none => .text text

/-- The number fits into 64 bits, with a sign if it needs one. -/
def isSmall : Int → Bool
  | .ofNat n => n < Nat.pow 2 64
  | .negSucc n => n < Nat.pow 2 63

end Atom

/-- The tags of the common schema start so. -/
def commonTag (name : String) : String := "tag:yaml.org,2002:" ++ name

/-- The name of a tag of its own kind, one that starts with `!`. -/
def ownTag? (tag : Option String) : Option String :=
  match tag.map String.toList with
  | some ('!' :: name) => some (String.ofList name)
  | _ => none

/-- What a scalar means; a tag of the common schema may not fit its text. -/
def Atom.ofScalar? (tag : Option String) (style : ScalarStyle) (text : String) : Option Atom :=
  let cs := text.toList
  if tag = some (commonTag "bool") then (bool? cs).map .bool
  else if tag = some (commonTag "int") then (int? cs).map .int
  else if tag = some (commonTag "float") then (float? cs).map .float
  else if tag = some (commonTag "null") then if isNull cs then some .null else none
  else if style = .plain && (tag.isNone || (ownTag? tag).isSome) then some (ofPlain text)
  else some (.text text)

end LayoutTech.Yaml
