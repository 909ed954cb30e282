import LayoutTech.Proofs.Number.Rounding
import LayoutTech.Proofs.Text.Cutting

/-!
# Numerals

The numeral of a number is read back as the number, its sign included, and so are the words for what is not finite.
-/

namespace LayoutTech.Decimal

/-! ## Rows of digits -/

theorem ofDigits_eq (ds : List Char) : ofDigits ds = Nat.ofDigitChars 10 ds 0 := rfl

theorem ofDigits_toDigits (n : Nat) : ofDigits (Nat.toDigits 10 n) = n := Nat.ofDigitChars_ten_toDigits

theorem ofDigits_zeros_append (count : Nat) (ds : List Char) :
    ofDigits (List.replicate count '0' ++ ds) = ofDigits ds := by
  rw [ofDigits_eq, Nat.ofDigitChars_append, Nat.ofDigitChars_replicate_zero, Nat.mul_zero, ← ofDigits_eq]

theorem ofDigits_append_zeros (ds : List Char) (count : Nat) :
    ofDigits (ds ++ List.replicate count '0') = Nat.pow 10 count * ofDigits ds := by
  rw [ofDigits_eq, Nat.ofDigitChars_append, Nat.ofDigitChars_replicate_zero, ← ofDigits_eq, Nat.pow_eq]

theorem isDigit_toDigits (n : Nat) : ∀ c ∈ Nat.toDigits 10 n, c.isDigit := fun _ hc =>
  Nat.isDigit_of_mem_toDigits (by decide) (by decide) hc

/-- What is dropped at the end of a row is a row of zeros. -/
theorem exists_dropTrailingZeros (ds : List Char) :
    ∃ count, ds = dropTrailingZeros ds ++ List.replicate count '0' := by
  let zeros := ds.reverse.takeWhile (· == '0')
  have all : zeros = List.replicate zeros.length '0' :=
    List.eq_replicate_iff.2 ⟨rfl, fun c hc => by simpa using List.mem_takeWhile_imp hc⟩
  refine ⟨zeros.length, ?_⟩
  calc ds
    _ = (zeros ++ ds.reverse.dropWhile (· == '0')).reverse := by
      rw [List.takeWhile_append_dropWhile, List.reverse_reverse]
    _ = dropTrailingZeros ds ++ zeros.reverse := List.reverse_append
    _ = dropTrailingZeros ds ++ List.replicate zeros.length '0' := by
      rw [all, List.reverse_replicate, List.length_replicate]

/-! ## Reading a numeral without an exponent -/

section Reading

variable {before after : List Char}

theorem ofText?_whole (hb : ∀ c ∈ before, c.isDigit) (ne : before ≠ []) :
    ofText? before = some ⟨ofDigits before, -((0 : Nat) : Int)⟩ := by
  have taken : before.takeWhile Char.isDigit = before := by
    simpa using Text.takeWhile_until hb (by simp : ∀ c ∈ ([] : List Char).head?, ¬Char.isDigit c)
  have dropped : before.dropWhile Char.isDigit = [] := List.dropWhile_eq_nil_iff.2 hb
  simp [ofText?, cutAtPoint, taken, dropped, ne, exponent?]

theorem ofText?_point (hb : ∀ c ∈ before, c.isDigit) (ha : ∀ c ∈ after, c.isDigit) (ne : before ≠ []) :
    ofText? (before ++ '.' :: after) = some ⟨ofDigits (before ++ after), -(after.length : Int)⟩ := by
  have stop : ¬Char.isDigit '.' := by decide
  have taken : after.takeWhile Char.isDigit = after := by
    simpa using Text.takeWhile_until ha (by simp : ∀ c ∈ ([] : List Char).head?, ¬Char.isDigit c)
  have dropped : after.dropWhile Char.isDigit = [] := List.dropWhile_eq_nil_iff.2 ha
  simp [ofText?, cutAtPoint, Text.takeWhile_stop hb stop, Text.dropWhile_stop hb stop, taken, dropped, ne,
    exponent?]

end Reading

/-- The text is a row of digits, or two rows with a point between them. -/
inductive IsPositional : List Char → Prop
  | whole {before : List Char} : before ≠ [] → (∀ c ∈ before, c.isDigit) → IsPositional before
  | point {before after : List Char} : before ≠ [] → (∀ c ∈ before, c.isDigit) → (∀ c ∈ after, c.isDigit) →
      IsPositional (before ++ '.' :: after)

/-- A text with a point has at least one digit before it. The zeros that it drops at the end count in the
value only. -/
theorem exists_withPoint {ds : List Char} (digits : ∀ c ∈ ds, c.isDigit) (places : Nat) :
    ∃ before fraction dropped,
      withPoint ds places = (before ++ if fraction.isEmpty then [] else '.' :: fraction) ∧ before ≠ [] ∧
        (∀ c ∈ before ++ fraction, c.isDigit) ∧ places = dropped + fraction.length ∧
        ofDigits ds = Nat.pow 10 dropped * ofDigits (before ++ fraction) := by
  let padded := List.replicate (places + 1 - ds.length) '0' ++ ds
  let before := padded.take (padded.length - places)
  let tail := padded.drop (padded.length - places)
  obtain ⟨dropped, split⟩ := exists_dropTrailingZeros tail
  have whole : before ++ dropTrailingZeros tail ++ List.replicate dropped '0' = padded := by
    rw [List.append_assoc, ← split, List.take_append_drop]
  have long : places < padded.length := by
    simp only [padded, List.length_append, List.length_replicate]
    omega
  have tailLength : tail.length = places := by
    simp only [tail, List.length_drop]
    omega
  refine ⟨before, dropTrailingZeros tail, dropped, rfl, ?_, ?_, ?_, ?_⟩
  · refine List.ne_nil_of_length_pos ?_
    simp only [before, List.length_take]
    omega
  · intro c hc
    rcases List.mem_append.1 (whole ▸ List.mem_append_left _ hc) with hc | hc
    · obtain rfl := (List.mem_replicate.1 hc).2
      decide
    · exact digits c hc
  · rw [← tailLength, split, List.length_append, List.length_replicate, Nat.add_comm, ← split]
  · rw [← ofDigits_append_zeros, whole, ofDigits_zeros_append]

theorem withPoint_spec {ds : List Char} (digits : ∀ c ∈ ds, c.isDigit) (places : Nat) :
    IsPositional (withPoint ds places) ∧
      ∃ n used dropped, ofText? (withPoint ds places) = some ⟨n, -((used : Nat) : Int)⟩ ∧
        places = dropped + used ∧ ofDigits ds = Nat.pow 10 dropped * n := by
  obtain ⟨before, fraction, dropped, text, ne, all, length, value⟩ := exists_withPoint digits places
  rw [List.forall_mem_append] at all
  rw [text]
  cases fraction with
  | nil =>
      rw [List.append_nil] at value
      rw [List.isEmpty_nil, if_pos rfl, List.append_nil]
      exact ⟨.whole ne all.1, _, 0, dropped, ofText?_whole all.1 ne, length, value⟩
  | cons c cs =>
      rw [List.isEmpty_cons, if_neg (by decide)]
      exact ⟨.point ne all.1 all.2, _, _, dropped, ofText?_point all.1 all.2 ne, length, value⟩

/-- The text of a decimal that stands for a finite number is read as a decimal that stands for the same
number, under either sign. -/
theorem toText_spec {d : Decimal} {sign : Bool} {units : Nat} {held : Binary64.Representable units}
    (h : d.toBinary false = .finite sign units held) :
    IsPositional d.toText ∧
      ∃ e, ofText? d.toText = some e ∧ ∀ negative, e.toBinary negative = .finite negative units held := by
  obtain ⟨digits, exponent⟩ := d
  cases exponent with
  | ofNat e =>
      have all := isDigit_toDigits (digits * Nat.pow 10 e)
      have ne : Nat.toDigits 10 (digits * Nat.pow 10 e) ≠ [] := Nat.toDigits_ne_nil
      have text : toText ⟨digits, .ofNat e⟩ = Nat.toDigits 10 (digits * Nat.pow 10 e) := rfl
      rw [text]
      refine ⟨.whole ne all, _, ofText?_whole all ne, fun negative => ?_⟩
      rw [toBinary_of_exponent _ (le_range_of_finite h)] at h
      rw [toBinary_of_places, ofDigits_toDigits]
      exact Binary64.ofFraction_sign h negative
  | negSucc e =>
      have exponent : Int.negSucc e = -((e + 1 : Nat) : Int) := rfl
      obtain ⟨positional, n, used, dropped, read, places, value⟩ :=
        withPoint_spec (isDigit_toDigits digits) (e + 1)
      have power : Nat.pow 10 (dropped + used) = Nat.pow 10 dropped * Nat.pow 10 used := Nat.pow_add 10 _ _
      rw [ofDigits_toDigits] at value
      refine ⟨positional, _, read, fun negative => ?_⟩
      rw [exponent, toBinary_of_places, places, value, power, Binary64.ofFraction_mul_left _ (pow_ten_pos _)] at h
      rw [toBinary_of_places]
      exact Binary64.ofFraction_sign h negative

/-! ## What a numeral is made of -/

theorem IsPositional.exists_cons {cs : List Char} (h : IsPositional cs) : ∃ c rest, cs = c :: rest ∧ c.isDigit := by
  cases h with
  | whole ne digits =>
      obtain ⟨c, rest, rfl⟩ := List.exists_cons_of_ne_nil ne
      exact ⟨c, rest, rfl, digits c List.mem_cons_self⟩
  | point ne digits _ =>
      obtain ⟨c, rest, rfl⟩ := List.exists_cons_of_ne_nil ne
      exact ⟨c, _, rfl, digits c List.mem_cons_self⟩

theorem IsPositional.mem {cs : List Char} (h : IsPositional cs) {c : Char} (hc : c ∈ cs) :
    c.isDigit ∨ c = '.' := by
  cases h with
  | whole _ digits => exact .inl (digits c hc)
  | point _ before after =>
      rcases List.mem_append.1 hc with hc | hc
      · exact .inl (before c hc)
      · rcases List.mem_cons.1 hc with rfl | hc
        · exact .inr rfl
        · exact .inl (after c hc)

theorem toLower_of_isDigit {c : Char} (h : c.isDigit) : c.toLower = c := by
  simp only [Char.isDigit, Bool.and_eq_true, decide_eq_true_eq, UInt32.le_iff_toNat_le] at h
  unfold Char.toLower
  split
  · next upper =>
    simp only [ge_iff_le, UInt32.le_iff_toNat_le] at upper
    exact absurd (Nat.le_trans upper.1 h.2) (by decide)
  · rfl

theorem not_isBlank_of_isDigit {c : Char} (h : c.isDigit) : ¬Text.isBlank c := by
  have zero : '0'.val.toNat = 48 := rfl
  have nine : '9'.val.toNat = 57 := rfl
  simp only [Char.isDigit, Bool.and_eq_true, decide_eq_true_eq, ge_iff_le, UInt32.le_iff_toNat_le] at h
  simp only [Text.isBlank, Bool.or_eq_true, Bool.and_eq_true, decide_eq_true_eq, beq_iff_eq,
    UInt32.le_iff_toNat_le, ← UInt32.toNat_inj, UInt32.reduceToNat]
  omega

end LayoutTech.Decimal

namespace LayoutTech.Binary64

open Decimal

theorem ofUnsigned?_of_positional {cs : List Char} (h : IsPositional cs) (negative : Bool) :
    ofUnsigned? negative cs = (Decimal.ofText? cs).map (Decimal.toBinary negative) := by
  obtain ⟨c, rest, rfl, digit⟩ := h.exists_cons
  have i : c ≠ 'i' := by rintro rfl; contradiction
  have n : c ≠ 'n' := by rintro rfl; contradiction
  have inf : "inf".toList = ['i', 'n', 'f'] := rfl
  have infinity : "infinity".toList = ['i', 'n', 'f', 'i', 'n', 'i', 't', 'y'] := rfl
  have nan : "nan".toList = ['n', 'a', 'n'] := rfl
  simp only [ofUnsigned?, List.map_cons, toLower_of_isDigit digit, inf, infinity, nan, List.cons.injEq, i, n,
    false_and, or_self, if_false]

theorem ofText?_of_positional {cs : List Char} (h : IsPositional cs) : ofText? cs = ofUnsigned? false cs := by
  obtain ⟨c, rest, rfl, digit⟩ := h.exists_cons
  unfold ofText?
  split
  · next eq => rw [(List.cons.inj eq).1] at digit; contradiction
  · next eq => rw [(List.cons.inj eq).1] at digit; contradiction
  · rfl

/-- The numeral without its sign. -/
theorem positional_magnitude {units : Nat} (held : Representable units) :
    let cs := if units = 0 then ['0'] else (shortest units).toText
    IsPositional cs ∧ ∀ negative, ofUnsigned? negative cs = some (.finite negative units held) := by
  intro cs
  have spec : IsPositional cs ∧
      ∃ e, Decimal.ofText? cs = some e ∧ ∀ negative, e.toBinary negative = .finite negative units held := by
    by_cases zero : units = 0
    · subst zero
      have all : ∀ c ∈ ['0'], c.isDigit := List.forall_mem_singleton.2 rfl
      have ne : ['0'] ≠ [] := List.cons_ne_nil _ _
      refine ⟨.whole ne all, _, ofText?_whole all ne, fun negative => ?_⟩
      rw [toBinary_of_places]
      exact ofFraction_of_exact held (pow_ten_pos 0) (Nat.zero_mul _) negative
    · obtain ⟨sign, shortest⟩ := toBinary_shortest held
      simp only [cs, if_neg zero]
      exact toText_spec shortest
  obtain ⟨positional, e, read, value⟩ := spec
  refine ⟨positional, fun negative => ?_⟩
  rw [ofUnsigned?_of_positional positional, read, Option.map_some, value]

/-- The numeral of a number, finite or not, is read back as the number. -/
theorem ofText?_toText (x : Binary64) : ofText? x.toText = some x := by
  cases x with
  | nan => rfl
  | infinite negative => cases negative <;> rfl
  | finite negative units held =>
      obtain ⟨positional, read⟩ := positional_magnitude held
      cases negative with
      | false => exact (ofText?_of_positional positional).trans (read false)
      | true => exact read true

/-- A numeral is made of digits, a point, a sign, and the letters of the words for what is not finite. -/
theorem mem_toText {x : Binary64} {c : Char} (hc : c ∈ x.toText) : c.isDigit ∨ c ∈ ".-NaNinf".toList := by
  cases x with
  | nan =>
      have letters : "NaN".toList ⊆ ".-NaNinf".toList := by decide
      exact .inr (letters hc)
  | infinite negative =>
      have letters : (if negative then "-inf" else "inf").toList ⊆ ".-NaNinf".toList := by
        cases negative <;> decide
      exact .inr (letters hc)
  | finite negative units held =>
      obtain ⟨positional, -⟩ := positional_magnitude held
      rcases List.mem_append.1 hc with hc | hc
      · cases negative with
        | false => contradiction
        | true => obtain rfl := List.mem_singleton.1 hc; exact .inr (by decide)
      · rcases positional.mem hc with digit | rfl
        · exact .inl digit
        · exact .inr (by decide)

theorem not_isBlank_toText (x : Binary64) : ∀ c ∈ x.toText, ¬Text.isBlank c := by
  have others : ".-NaNinf".toList.all (!Text.isBlank ·) := by decide
  intro c hc
  rcases mem_toText hc with digit | other
  · exact not_isBlank_of_isDigit digit
  · simpa using List.all_eq_true.1 others c other

theorem toText_ne_nil (x : Binary64) : x.toText ≠ [] := by
  intro nil
  have read := ofText?_toText x
  rw [nil] at read
  contradiction

end LayoutTech.Binary64
