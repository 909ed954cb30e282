import LayoutTech.Number.Decimal

/-!
# The shortest numeral

A finite number is written with the fewest digits that read back as the same number, and of these
numerals the nearest to it. Every digit is written: there is never an exponent.
-/

namespace LayoutTech

namespace Binary64

def readsBackAs (units : Nat) (d : Decimal) : Bool :=
  match d.toBinary false with
  | .finite _ found _ => found == units
  | _ => false

/-- The magnitude in steps of `10 ^ -400`, cut to a whole number of them. -/
def fineSteps (units : Nat) : Nat := units * Nat.pow 10 Decimal.range / unitsPerOne

/-- The decimal with this many digits, of the two next to the magnitude, that reads back as it. Where
both do it is the nearer one, and the larger one where they are equally near. -/
def neighbour? (units count : Nat) : Option Decimal :=
  let steps := fineSteps units
  let dropped := (Nat.toDigits 10 steps).length - count
  let exponent : Int := (dropped : Int) - Decimal.range
  let below : Decimal := ⟨steps / Nat.pow 10 dropped, exponent⟩
  let above : Decimal := ⟨steps / Nat.pow 10 dropped + 1, exponent⟩
  let belowFirst :=
    2 * (units * Nat.pow 10 Decimal.range) < (2 * below.digits + 1) * Nat.pow 10 dropped * unitsPerOne
  (if belowFirst then [below, above] else [above, below]).find? (readsBackAs units)

/-- The magnitude with all of its decimal digits. -/
def allDigits (units : Nat) : Decimal := ⟨units * Nat.pow 5 1074, -1074⟩

/-- The decimal with the fewest digits that reads back as the magnitude. -/
def shortest (units : Nat) : Decimal :=
  ((List.range 17).findSome? fun n => neighbour? units (n + 1)).getD (allDigits units)

end Binary64

namespace Decimal

/-- The row without the zeros it ends in. -/
def dropTrailingZeros (ds : List Char) : List Char := (ds.reverse.dropWhile (· == '0')).reverse

/-- All digits of the decimal, with a point before the last `places` of them; zeros that the value does
not need are left out. -/
def withPoint (ds : List Char) (places : Nat) : List Char :=
  let padded := List.replicate (places + 1 - ds.length) '0' ++ ds
  let fraction := dropTrailingZeros (padded.drop (padded.length - places))
  padded.take (padded.length - places) ++ if fraction.isEmpty then [] else '.' :: fraction

def toText (d : Decimal) : List Char :=
  match d.exponent with
  | .ofNat e => Nat.toDigits 10 (d.digits * Nat.pow 10 e)
  | .negSucc e => withPoint (Nat.toDigits 10 d.digits) (e + 1)

end Decimal

namespace Binary64

def toText : Binary64 → List Char
  | .nan => "NaN".toList
  | .infinite negative => (if negative then "-inf" else "inf").toList
  | .finite negative units _ =>
    (if negative then ['-'] else []) ++ if units = 0 then ['0'] else (shortest units).toText

instance : ToString Binary64 := ⟨fun x => String.ofList x.toText⟩

end Binary64

end LayoutTech
