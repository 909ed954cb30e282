import LayoutTech.Text
import LayoutTech.Text.Quoted

/-!
# Entities

Five characters have names that stand for them in text and attribute values, and every character can
be given by its number. Writing names these five and nothing else.
-/

namespace LayoutTech.Xml

/-- Why a text with entities has no content. Ranges count bytes from the start of the text. -/
inductive EntityFault where
  | unterminated (start stop : Nat)
  | unknown (start stop : Nat) (name : List Char)
  | null (start stop : Nat)
  | tooManyHexDigits
  | tooManyDigits
  | badHexDigit (c : Char)
  | badDigit (c : Char)
  | noSuchCharacter (code : Nat)
deriving DecidableEq, Repr

def EntityFault.message : EntityFault → String
  | .unterminated start stop =>
    s!"Error while escaping character at range {start}..{stop}: Cannot find ';' after '&'"
  | .unknown start stop name =>
    s!"Error while escaping character at range {start}..{stop}: Unrecognized escape symbol: " ++
      Text.quoted name
  | .null start stop =>
    s!"Error while escaping character at range {start}..{stop}: Null character entity not allowed"
  | .tooManyHexDigits => "Cannot convert hexadecimal to utf8"
  | .tooManyDigits => "Cannot convert decimal to utf8"
  | .badHexDigit c => s!"'{c}' is not a valid hexadecimal character"
  | .badDigit c => s!"'{c}' is not a valid decimal character"
  | .noSuchCharacter code => s!"'{code}' is not a valid codepoint"

namespace Entity

/-- The characters that have names, with their names. -/
def named : List (Char × List Char) :=
  [('<', "lt".toList), ('>', "gt".toList), ('&', "amp".toList), ('\'', "apos".toList), ('"', "quot".toList)]

def nameOf? (c : Char) : Option (List Char) := named.lookup c

def ofName? (name : List Char) : Option Char := (named.find? (·.2 == name)).map Prod.fst

/-- The text with an entity for every character that has a name. -/
def encode : List Char → List Char
  | [] => []
  | c :: cs =>
    match nameOf? c with
    | some name => '&' :: name ++ ';' :: encode cs
    | none => c :: encode cs

def hexDigit? (c : Char) : Option Nat :=
  if '0' ≤ c ∧ c ≤ '9' then some (c.toNat - '0'.toNat)
  else if 'a' ≤ c ∧ c ≤ 'f' then some (c.toNat - 'a'.toNat + 10)
  else if 'A' ≤ c ∧ c ≤ 'F' then some (c.toNat - 'A'.toNat + 10)
  else none

def digit? (c : Char) : Option Nat :=
  if '0' ≤ c ∧ c ≤ '9' then some (c.toNat - '0'.toNat) else none

/-- The number that the digits stand for; no digits stand for zero. -/
def number (base : Nat) (value? : Char → Option Nat) (bad : Char → EntityFault) (digits : List Char) :
    Except EntityFault Nat :=
  digits.foldlM (fun n c => match value? c with
    | some d => .ok (base * n + d)
    | none => .error (bad (Text.firstByte c))) 0

/-- The number of a character, decimal or after an `x` hexadecimal. -/
def code : List Char → Except EntityFault Nat
  | 'x' :: digits =>
    if Text.byteLength digits > 6 then .error .tooManyHexDigits
    else number 16 hexDigit? .badHexDigit digits
  | digits =>
    if Text.byteLength digits > 7 then .error .tooManyDigits
    else number 10 digit? .badDigit digits

/-- The character of this number, for an entity in the given range. -/
def ofCode (start stop n : Nat) : Except EntityFault Char :=
  if n = 0 then .error (.null start stop)
  else if n.isValidChar then .ok (Char.ofNat n)
  else .error (.noSuchCharacter n)

/-- The character that an entity stands for: `body` is what is between `&` and `;`. -/
def decodeOne (start stop : Nat) (body : List Char) : Except EntityFault Char :=
  match body with
  | '#' :: digits => code digits >>= ofCode start stop
  | name => match ofName? name with
    | some c => .ok c
    | none => .error (.unknown (start + 1) stop name)

/-- Goes on until an entity ends or another one begins. -/
def insideEntity (c : Char) : Bool := c != ';' && c != '&'

/-- The content of the last part of a text of `total` bytes. -/
def decodeFrom (total : Nat) : List Char → Except EntityFault (List Char)
  | [] => .ok []
  | c :: cs =>
    if c = '&' then
      let start := total - Text.byteLength (c :: cs)
      let body := cs.takeWhile insideEntity
      match h : cs.dropWhile insideEntity with
      | ';' :: rest => do
        let d ← decodeOne start (start + 1 + Text.byteLength body) body
        let ds ← decodeFrom total rest
        pure (d :: ds)
      | _ => .error (.unterminated start total)
    else do
      let ds ← decodeFrom total cs
      pure (c :: ds)
  termination_by cs => cs.length
  decreasing_by
    · have := (List.dropWhile_suffix insideEntity (l := cs)).length_le
      simp_all; omega
    · simp

def decode (cs : List Char) : Except EntityFault (List Char) := decodeFrom (Text.byteLength cs) cs

end Entity

end LayoutTech.Xml
