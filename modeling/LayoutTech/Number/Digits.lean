/-!
# Digits

Rows of digits in a number system of up to sixteen digits.
-/

namespace LayoutTech.Digits

/-- The value of a digit; letters count on from nine. -/
def value? (c : Char) : Option Nat :=
  if c.isDigit then some (c.toNat - '0'.toNat)
  else if 'a' ≤ c && c ≤ 'f' then some (c.toNat - 'a'.toNat + 10)
  else if 'A' ≤ c && c ≤ 'F' then some (c.toNat - 'A'.toNat + 10)
  else none

def extend? (radix n : Nat) (c : Char) : Option Nat :=
  (value? c).bind fun digit => if digit < radix then some (n * radix + digit) else none

/-- The number that a row of digits writes; there has to be a digit. -/
def number? (radix : Nat) (digits : List Char) : Option Nat :=
  if digits.isEmpty then none else digits.foldlM (extend? radix) 0

end LayoutTech.Digits
