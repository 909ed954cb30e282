/-!
# Binary numbers of 64 bits

Every finite number of the format is a whole number of least units, 2⁻¹⁰⁷⁴, with at most 53
significant binary digits. Magnitudes are kept in these units, so that comparing and subtracting are
comparing and subtracting natural numbers, and rounding a fraction is one division.
-/

namespace LayoutTech

namespace Binary64

def unitsPerOne : Nat := Nat.pow 2 1074

/-- The least magnitude, in units, that is beyond the finite numbers: 2¹⁰²⁴. -/
def bound : Nat := Nat.pow 2 2098

/-- A magnitude in units that the format holds: 53 significant digits, below the bound. -/
def Representable (units : Nat) : Prop :=
  units < bound ∧ ∃ digits shift, digits < Nat.pow 2 53 ∧ units = digits * Nat.pow 2 shift

theorem pow_two_pos (n : Nat) : 0 < Nat.pow 2 n := Nat.two_pow_pos n

theorem bound_pos : 0 < bound := by
  unfold bound
  generalize 2098 = n
  exact pow_two_pos n

theorem representable_zero : Representable 0 :=
  ⟨bound_pos, 0, 0, by decide, by simp⟩

end Binary64

/-- A number of the format. Zero has two signs; there is one value that is no number. -/
inductive Binary64 where
  | nan
  | infinite (negative : Bool)
  | finite (negative : Bool) (units : Nat) (held : Binary64.Representable units)
deriving DecidableEq

namespace Binary64

def zero : Binary64 := .finite false 0 representable_zero

instance : Inhabited Binary64 := ⟨zero⟩

/-- The quotient rounded to the nearest whole number, a half to the even neighbour. -/
def divideToEven (num den : Nat) : Nat :=
  let q := num / den
  let twice := 2 * (num % den)
  if twice < den then q else if den < twice then q + 1 else q + q % 2

/-- The place of the last digit kept when a magnitude of this many whole units is rounded. -/
def lastPlace (units : Nat) : Nat := units.log2 - 52

/-- The fraction `num / den` in units, rounded to 53 significant digits. -/
def roundedUnits (num den : Nat) : Nat :=
  let place := lastPlace (num * unitsPerOne / den)
  divideToEven (num * unitsPerOne) (den * Nat.pow 2 place) * Nat.pow 2 place

theorem divideToEven_le (num den : Nat) : divideToEven num den ≤ num / den + 1 := by
  simp only [divideToEven]
  split
  · omega
  · split <;> omega

theorem lt_two_pow_lastPlace (units : Nat) : units < Nat.pow 2 53 * Nat.pow 2 (lastPlace units) := by
  rw [Nat.pow_eq, Nat.pow_eq, ← Nat.pow_add]
  rcases Nat.eq_zero_or_pos units with rfl | h
  · exact Nat.two_pow_pos _
  · exact Nat.lt_of_lt_of_le Nat.lt_log2_self
      (Nat.pow_le_pow_right (by decide) (by unfold lastPlace; omega))

/-- The rounded digits fill 53 places, or are the next power of two. -/
theorem divideToEven_le_two_pow (num den : Nat) :
    divideToEven (num * unitsPerOne) (den * Nat.pow 2 (lastPlace (num * unitsPerOne / den))) ≤ Nat.pow 2 53 := by
  refine Nat.le_trans (divideToEven_le _ _) ?_
  rw [← Nat.div_div_eq_div_mul]
  generalize num * unitsPerOne / den = units
  have h := lt_two_pow_lastPlace units
  rw [Nat.mul_comm] at h
  exact Nat.div_lt_of_lt_mul h

theorem representable_roundedUnits {num den : Nat} (h : roundedUnits num den < bound) :
    Representable (roundedUnits num den) := by
  refine ⟨h, ?_⟩
  rcases Nat.lt_or_eq_of_le (divideToEven_le_two_pow num den) with hd | hd
  · exact ⟨_, _, hd, rfl⟩
  · refine ⟨Nat.pow 2 52, lastPlace (num * unitsPerOne / den) + 1, by decide, ?_⟩
    simp only [roundedUnits, hd]
    simp only [Nat.pow_eq, ← Nat.pow_add]
    congr 1
    omega

/-- The number nearest to `num / den`, with the sign; beyond the bound it is infinite. -/
def ofFraction (negative : Bool) (num den : Nat) : Binary64 :=
  if h : roundedUnits num den < bound then
    .finite negative (roundedUnits num den) (representable_roundedUnits h)
  else .infinite negative

/-- The value in units, for a finite number. -/
def signedUnits? : Binary64 → Option Int
  | .finite false units _ => some units
  | .finite true units _ => some (-units)
  | _ => none

def isFinite : Binary64 → Bool
  | .finite .. => true
  | _ => false

def isPositive : Binary64 → Bool
  | .finite negative units _ => !negative && units != 0
  | .infinite negative => !negative
  | .nan => false

/-- Equality of values: both zeros are equal, and what is no number is not equal to itself. -/
def sameValue : Binary64 → Binary64 → Bool
  | .infinite a, .infinite b => a == b
  | .finite na a _, .finite nb b _ => a == b && (na == nb || a == 0)
  | _, _ => false

/-- The magnitude of the difference, rounded to the format. -/
def distance : Binary64 → Binary64 → Binary64
  | .finite na a _, .finite nb b _ =>
    if na = nb then ofFraction false (a - b + (b - a)) unitsPerOne
    else ofFraction false (a + b) unitsPerOne
  | .finite .., .infinite _ => .infinite false
  | .infinite _, .finite .. => .infinite false
  | .infinite a, .infinite b => if a = b then .nan else .infinite false
  | _, _ => .nan

theorem sameValue_self {a : Binary64} (h : a.isFinite) : a.sameValue a := by
  cases a with
  | nan => cases h
  | infinite _ => cases h
  | finite negative units held => simp [sameValue]

/-- The distance to a zero does not depend on its sign. -/
theorem distance_congr {a b : Binary64} (h : a.sameValue b) (v : Binary64) : v.distance a = v.distance b := by
  cases a with
  | nan => cases b <;> cases h
  | infinite na =>
    cases b with
    | nan => cases h
    | infinite nb => rw [beq_iff_eq.1 h]
    | finite => cases h
  | finite na a heldA =>
    cases b with
    | nan => cases h
    | infinite => cases h
    | finite nb b heldB =>
      simp only [sameValue, Bool.and_eq_true, Bool.or_eq_true, beq_iff_eq] at h
      obtain ⟨rfl, rfl | rfl⟩ := h
      · rfl
      · cases v with
        | nan => rfl
        | infinite => rfl
        | finite => simp [distance]

/-- The first magnitude is less than the second; the signs are not looked at. -/
def magnitudeLess : Binary64 → Binary64 → Bool
  | .finite _ a _, .finite _ b _ => a < b
  | .finite .., .infinite _ => true
  | _, _ => false

end Binary64

end LayoutTech
