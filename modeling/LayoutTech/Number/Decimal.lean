import LayoutTech.Number.Binary64

/-!
# Decimal numerals

A numeral is an optional sign, then digits with at most one point and an optional exponent, or the
name of a value that has no digits. It stands for the binary number nearest to it.
-/

namespace LayoutTech

/-- The number `digits · 10 ^ exponent`. -/
structure Decimal where
  digits : Nat
  exponent : Int
deriving DecidableEq, Repr

namespace Decimal

/-- Powers of ten past this one are beyond the finite numbers, and its inverse is below half of the
least unit. -/
def range : Nat := 400

/-- The nearest binary number. A power of ten far outside the range is not computed. -/
def toBinary (negative : Bool) (d : Decimal) : Binary64 :=
  match d.exponent with
  | .ofNat e =>
    if range < e ∧ d.digits ≠ 0 then .infinite negative
    else .ofFraction negative (d.digits * Nat.pow 10 (min e range)) 1
  | .negSucc e =>
    if range + d.digits.log2 < e + 1 then .ofFraction negative 0 1
    else .ofFraction negative d.digits (Nat.pow 10 (e + 1))

def ofDigits (ds : List Char) : Nat := ds.foldl (fun n d => 10 * n + (d.toNat - '0'.toNat)) 0

def whole? (cs : List Char) : Option Nat :=
  if !cs.isEmpty && cs.all Char.isDigit then some (ofDigits cs) else none

/-- What may follow the digits: nothing, or an exponent. -/
def exponent? : List Char → Option Int
  | [] => some 0
  | c :: cs =>
    if c = 'e' ∨ c = 'E' then
      match cs with
      | '+' :: ds => (whole? ds).map Int.ofNat
      | '-' :: ds => (whole? ds).map fun n => -Int.ofNat n
      | ds => (whole? ds).map Int.ofNat
    else none

/-- The digits before a point, the digits after it, and what follows them. -/
def cutAtPoint (cs : List Char) : List Char × List Char × List Char :=
  let rest := cs.dropWhile Char.isDigit
  match rest with
  | '.' :: after => (cs.takeWhile Char.isDigit, after.takeWhile Char.isDigit, after.dropWhile Char.isDigit)
  | _ => (cs.takeWhile Char.isDigit, [], rest)

/-- The numeral without a sign; a point needs a digit on one of its sides. -/
def ofText? (cs : List Char) : Option Decimal :=
  let (before, after, rest) := cutAtPoint cs
  if before.isEmpty && after.isEmpty then none
  else (exponent? rest).map fun e => ⟨ofDigits (before ++ after), e - after.length⟩

end Decimal

namespace Binary64

/-- The number without a sign: a name in either case of letters, or a decimal numeral. -/
def ofUnsigned? (negative : Bool) (cs : List Char) : Option Binary64 :=
  let name := cs.map Char.toLower
  if name = "inf".toList ∨ name = "infinity".toList then some (.infinite negative)
  else if name = "nan".toList then some .nan
  else (Decimal.ofText? cs).map (Decimal.toBinary negative)

def ofText? : List Char → Option Binary64
  | '-' :: cs => ofUnsigned? true cs
  | '+' :: cs => ofUnsigned? false cs
  | cs => ofUnsigned? false cs

def ofString? (s : String) : Option Binary64 := ofText? s.toList

end Binary64

end LayoutTech
