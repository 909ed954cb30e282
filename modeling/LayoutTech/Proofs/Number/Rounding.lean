import LayoutTech.Number.Shortest

/-!
# Rounding

Rounding a fraction looks at its value alone, and a number of the format is rounded to itself. So a
decimal stands for the fraction that it writes, also where its powers of ten are not computed, and the
shortest decimal of a number stands for that number.
-/

namespace LayoutTech.Binary64

/-! ## Fractions -/

theorem divideToEven_mul_left {k : Nat} (hk : 0 < k) (num den : Nat) :
    divideToEven (k * num) (k * den) = divideToEven num den := by
  have twice (a : Nat) : 2 * (k * a) = k * (2 * a) := Nat.mul_left_comm 2 k a
  simp only [divideToEven, Nat.mul_div_mul_left _ _ hk, Nat.mul_mod_mul_left, twice,
    Nat.mul_lt_mul_left hk]

theorem divideToEven_mul_self (q : Nat) {den : Nat} (hd : 0 < den) : divideToEven (q * den) den = q := by
  simp only [divideToEven, Nat.mul_mod_left, Nat.mul_zero, hd, if_true, Nat.mul_div_cancel _ hd]

theorem roundedUnits_mul_left {k : Nat} (hk : 0 < k) (num den : Nat) :
    roundedUnits (k * num) (k * den) = roundedUnits num den := by
  simp only [roundedUnits, Nat.mul_assoc, Nat.mul_div_mul_left _ _ hk, divideToEven_mul_left hk]

theorem ofFraction_congr {num den num' den' : Nat} (h : roundedUnits num den = roundedUnits num' den')
    (negative : Bool) : ofFraction negative num den = ofFraction negative num' den' := by
  simp only [ofFraction, h]

theorem ofFraction_mul_left (negative : Bool) {k : Nat} (hk : 0 < k) (num den : Nat) :
    ofFraction negative (k * num) (k * den) = ofFraction negative num den :=
  ofFraction_congr (roundedUnits_mul_left hk num den) negative

/-- A fraction below half of the least unit is rounded to zero. -/
theorem roundedUnits_of_small {num den : Nat} (h : 2 * (num * unitsPerOne) < den) : roundedUnits num den = 0 := by
  have small : num * unitsPerOne < den := by omega
  have place : lastPlace 0 = 0 := rfl
  simp only [roundedUnits, Nat.div_eq_of_lt small, place, Nat.pow_eq, Nat.pow_zero, Nat.mul_one, divideToEven,
    Nat.mod_eq_of_lt small, h, if_true]

/-! ## Numbers of the format -/

theorem two_pow_lastPlace_dvd {units : Nat} (h : Representable units) : Nat.pow 2 (lastPlace units) ∣ units := by
  obtain ⟨-, digits, shift, few, rfl⟩ := h
  rcases Nat.eq_zero_or_pos digits with rfl | pos
  · simp
  · have log : (digits * Nat.pow 2 shift).log2 < 53 + shift := by
      rw [Nat.log2_lt (Nat.mul_ne_zero (Nat.ne_of_gt pos) (Nat.ne_of_gt (pow_two_pos shift))), Nat.pow_add]
      exact Nat.mul_lt_mul_of_pos_right few (pow_two_pos shift)
    have place : lastPlace (digits * Nat.pow 2 shift) ≤ shift := by
      unfold lastPlace
      omega
    exact Nat.dvd_trans (Nat.pow_dvd_pow 2 place) (Nat.dvd_mul_left _ _)

/-- A fraction with the value of a number of the format is rounded to that number. -/
theorem roundedUnits_of_exact {units num den : Nat} (held : Representable units) (hd : 0 < den)
    (exact : num * unitsPerOne = den * units) : roundedUnits num den = units := by
  obtain ⟨q, eq⟩ := two_pow_lastPlace_dvd held
  have pos := pow_two_pos (lastPlace units)
  have quotient : num * unitsPerOne / den = units := by rw [exact, Nat.mul_div_cancel_left _ hd]
  simp only [roundedUnits]
  rw [quotient, exact, divideToEven_mul_left hd]
  generalize Nat.pow 2 (lastPlace units) = p at eq pos
  rw [eq, Nat.mul_comm p q, divideToEven_mul_self q pos]

theorem ofFraction_of_exact {units num den : Nat} (held : Representable units) (hd : 0 < den)
    (exact : num * unitsPerOne = den * units) (negative : Bool) :
    ofFraction negative num den = .finite negative units held := by
  have eq := roundedUnits_of_exact held hd exact
  unfold ofFraction
  split
  · simp only [eq]
  · next h => exact absurd (eq ▸ held.1) h

theorem roundedUnits_of_ofFraction {num den units : Nat} {negative sign : Bool} {held : Representable units}
    (h : ofFraction negative num den = .finite sign units held) : roundedUnits num den = units := by
  unfold ofFraction at h
  split at h
  · exact (finite.inj h).2
  · contradiction

/-- The sign takes no part in rounding. -/
theorem ofFraction_sign {num den units : Nat} {sign : Bool} {held : Representable units}
    (h : ofFraction false num den = .finite sign units held) (negative : Bool) :
    ofFraction negative num den = .finite negative units held := by
  obtain rfl := roundedUnits_of_ofFraction h
  exact dif_pos held.1

end LayoutTech.Binary64

namespace LayoutTech.Decimal

open Binary64

/-! ## Decimals -/

theorem pow_ten_pos (n : Nat) : 0 < Nat.pow 10 n := Nat.pow_pos (by decide)

theorem two_mul_two_pow_le {n m : Nat} (h : n + 1 ≤ 3 * m) : 2 * Nat.pow 2 n ≤ Nat.pow 10 m := by
  calc 2 * Nat.pow 2 n
    _ = Nat.pow 2 (n + 1) := Nat.mul_comm _ _
    _ ≤ Nat.pow 2 (3 * m) := Nat.pow_le_pow_right (by decide) h
    _ = Nat.pow 8 m := Nat.pow_mul 2 3 m
    _ ≤ Nat.pow 10 m := Nat.pow_le_pow_left (by decide) m

theorem two_mul_unitsPerOne_le : 2 * unitsPerOne ≤ Nat.pow 10 range := by
  have exponents : 1074 + 1 ≤ 3 * 400 := by decide
  unfold unitsPerOne range
  generalize 1074 = n at exponents
  generalize 400 = m at exponents
  exact two_mul_two_pow_le exponents

/-- Where a negative power of ten is not computed, the fraction is rounded to zero. -/
theorem small_of_range {digits places : Nat} (h : range + digits.log2 < places) :
    2 * (digits * unitsPerOne) < Nat.pow 10 places := by
  have base := two_mul_unitsPerOne_le
  generalize range = r at h base
  generalize unitsPerOne = one at base
  have digits_lt : digits < Nat.pow 10 (digits.log2 + 1) :=
    Nat.lt_of_lt_of_le Nat.lt_log2_self (Nat.pow_le_pow_left (by decide) _)
  calc 2 * (digits * one)
    _ = 2 * one * digits := by rw [Nat.mul_assoc, Nat.mul_comm digits]
    _ ≤ Nat.pow 10 r * digits := Nat.mul_le_mul_right _ base
    _ < Nat.pow 10 r * Nat.pow 10 (digits.log2 + 1) := Nat.mul_lt_mul_of_pos_left digits_lt (pow_ten_pos _)
    _ = Nat.pow 10 (r + (digits.log2 + 1)) := (Nat.pow_add 10 _ _).symm
    _ ≤ Nat.pow 10 places := Nat.pow_le_pow_right (by decide) (by omega)

theorem toBinary_ofNat (negative : Bool) (digits e : Nat) :
    toBinary negative ⟨digits, .ofNat e⟩ =
      if range < e ∧ digits ≠ 0 then .infinite negative
      else ofFraction negative (digits * Nat.pow 10 (min e range)) 1 :=
  rfl

theorem toBinary_negSucc (negative : Bool) (digits e : Nat) :
    toBinary negative ⟨digits, .negSucc e⟩ =
      if range + digits.log2 < e + 1 then ofFraction negative 0 1
      else ofFraction negative digits (Nat.pow 10 (e + 1)) :=
  rfl

theorem toBinary_of_exponent (negative : Bool) {digits e : Nat} (h : digits = 0 ∨ e ≤ range) :
    toBinary negative ⟨digits, .ofNat e⟩ = ofFraction negative (digits * Nat.pow 10 e) 1 := by
  rw [toBinary_ofNat]
  rcases h with rfl | h
  · simp only [ne_eq, not_true, and_false, if_false, Nat.zero_mul]
  · rw [if_neg (fun far => Nat.not_lt.2 h far.1), Nat.min_eq_left h]

/-- Every decimal without a positive power of ten stands for the fraction that it writes. -/
theorem toBinary_of_places (negative : Bool) (digits places : Nat) :
    toBinary negative ⟨digits, -(places : Int)⟩ = ofFraction negative digits (Nat.pow 10 places) := by
  cases places with
  | zero =>
      have one : digits * Nat.pow 10 0 = digits := Nat.mul_one digits
      have whole := toBinary_of_exponent negative (.inr (Nat.zero_le range) : digits = 0 ∨ 0 ≤ range)
      rwa [one] at whole
  | succ e =>
      have zero : 2 * (0 * unitsPerOne) < 1 := by rw [Nat.zero_mul]; decide
      have exponent : -((e + 1 : Nat) : Int) = .negSucc e := rfl
      rw [exponent, toBinary_negSucc]
      split
      · next far =>
        exact ofFraction_congr (by rw [roundedUnits_of_small (small_of_range far), roundedUnits_of_small zero]) _
      · rfl

/-- A positive power of ten in a decimal that stands for a finite number is computed. -/
theorem le_range_of_finite {negative sign : Bool} {digits e units : Nat} {held : Representable units}
    (h : toBinary negative ⟨digits, .ofNat e⟩ = .finite sign units held) : digits = 0 ∨ e ≤ range := by
  rw [toBinary_ofNat] at h
  split at h
  · contradiction
  · next near =>
    by_cases zero : digits = 0
    · exact .inl zero
    · exact .inr (Nat.not_lt.1 fun far => near ⟨far, zero⟩)

end LayoutTech.Decimal

namespace LayoutTech.Binary64

/-! ## The shortest decimal -/

theorem toBinary_of_readsBackAs {units : Nat} (held : Representable units) {d : Decimal}
    (h : readsBackAs units d) : ∃ sign, d.toBinary false = .finite sign units held := by
  unfold readsBackAs at h
  cases hd : d.toBinary false with
  | nan => rw [hd] at h; contradiction
  | infinite sign => rw [hd] at h; contradiction
  | finite sign found held' =>
      rw [hd] at h
      obtain rfl : found = units := eq_of_beq h
      exact ⟨sign, rfl⟩

theorem readsBackAs_of_neighbour? {units count : Nat} {d : Decimal} (h : neighbour? units count = some d) :
    readsBackAs units d := by
  unfold neighbour? at h
  exact List.find?_some h

theorem toBinary_allDigits {units : Nat} (held : Representable units) :
    (allDigits units).toBinary false = .finite false units held := by
  have decimal : allDigits units = ⟨units * Nat.pow 5 1074, -((1074 : Nat) : Int)⟩ := rfl
  have one : unitsPerOne = Nat.pow 2 1074 := by
    delta unitsPerOne
    exact Eq.refl _
  rw [decimal]
  -- With a variable for the number of places no power is ever evaluated.
  generalize 1074 = n at one
  have ten : Nat.pow 10 n = Nat.pow 5 n * Nat.pow 2 n := Nat.mul_pow 5 2 n
  rw [Decimal.toBinary_of_places]
  apply ofFraction_of_exact held (Decimal.pow_ten_pos n)
  rw [one, ten, Nat.mul_assoc, Nat.mul_comm units]

/-- The shortest decimal of a number stands for it. -/
theorem toBinary_shortest {units : Nat} (held : Representable units) :
    ∃ sign, (shortest units).toBinary false = .finite sign units held := by
  unfold shortest
  cases h : (List.range 17).findSome? fun n => neighbour? units (n + 1) with
  | none => exact ⟨false, toBinary_allDigits held⟩
  | some d =>
      obtain ⟨n, -, found⟩ := List.exists_of_findSome?_eq_some h
      exact toBinary_of_readsBackAs held (readsBackAs_of_neighbour? found)

end LayoutTech.Binary64
