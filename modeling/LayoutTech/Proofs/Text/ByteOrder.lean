import Mathlib.Data.List.Lex
import Mathlib.Tactic.SplitIfs

/-!
# Order of bytes

Texts are compared character by character. Comparing their bytes in UTF-8 gives the same order: of two characters the
greater one has the greater byte at the first place where their bytes differ.
-/

namespace LayoutTech.Text

/-- The bytes of a text in UTF-8. -/
def bytes (s : String) : List UInt8 := s.toUTF8.data.toList

theorem bytes_eq (s : String) : bytes s = s.toList.flatMap String.utf8EncodeChar := by
  rw [bytes, String.toUTF8, ← String.utf8Encode_toList, List.utf8Encode, List.toList_data_toByteArray]

/-! ## Characters -/

theorem ofNat_lt_iff {n m : Nat} (hn : n < 256) (hm : m < 256) : UInt8.ofNat n < UInt8.ofNat m ↔ n < m := by
  rw [UInt8.lt_iff_toNat_lt, UInt8.toNat_ofNat', UInt8.toNat_ofNat', Nat.mod_eq_of_lt hn, Nat.mod_eq_of_lt hm]

theorem ofNat_eq_iff {n m : Nat} (hn : n < 256) (hm : m < 256) : UInt8.ofNat n = UInt8.ofNat m ↔ n = m := by
  rw [← UInt8.toNat_inj, UInt8.toNat_ofNat', UInt8.toNat_ofNat', Nat.mod_eq_of_lt hn, Nat.mod_eq_of_lt hm]

theorem lastDigit_lt {v w : Nat} (h : v < w) : v / 64 < w / 64 ∨ v / 64 = w / 64 ∧ v % 64 < w % 64 := by
  omega

/-- Numbers are compared by their digits to the base 64, the first one before the others. -/
theorem digits_lt {v w : Nat} (h : v < w) :
    v / 262144 < w / 262144 ∨ v / 262144 = w / 262144 ∧ (v / 4096 % 64 < w / 4096 % 64 ∨
      v / 4096 % 64 = w / 4096 % 64 ∧ (v / 64 % 64 < w / 64 % 64 ∨ v / 64 % 64 = w / 64 % 64 ∧ v % 64 < w % 64)) := by
  have twice (n : Nat) : n / 4096 = n / 64 / 64 := (Nat.div_div_eq_div_mul n 64 64).symm
  have thrice (n : Nat) : n / 262144 = n / 64 / 64 / 64 := by
    rw [Nat.div_div_eq_div_mul, Nat.div_div_eq_div_mul]
  rw [twice, twice, thrice, thrice]
  rcases lastDigit_lt h with h | ⟨same, h⟩
  · rcases lastDigit_lt h with h | ⟨same, h⟩
    · rcases lastDigit_lt h with h | ⟨same, h⟩
      · exact .inl h
      · exact .inr ⟨same, .inl h⟩
    · rw [same]
      exact .inr ⟨rfl, .inr ⟨rfl, .inl h⟩⟩
  · rw [same]
    exact .inr ⟨rfl, .inr ⟨rfl, .inr ⟨rfl, h⟩⟩⟩

theorem toNat_val_lt (c : Char) : c.val.toNat < 1114112 := by
  rcases c.valid with h | h <;> omega

/-- The bytes of the lesser character come first, whatever follows. -/
theorem utf8EncodeChar_lt {c d : Char} (h : c < d) (rest rest' : List UInt8) :
    List.Lex (· < ·) (String.utf8EncodeChar c ++ rest) (String.utf8EncodeChar d ++ rest') := by
  have lt : c.val.toNat < d.val.toNat := h
  have boundC := toNat_val_lt c
  have boundD := toNat_val_lt d
  simp only [String.utf8EncodeChar]
  generalize c.val.toNat = v at *
  generalize d.val.toNat = w at *
  have digits := digits_lt lt
  have first (n : Nat) : n < 1114112 → n / 262144 % 8 = n / 262144 := by omega
  -- A longer row of bytes begins with a greater byte; rows of one length are compared digit by digit.
  split_ifs <;>
    simp (disch := omega) only [first, List.cons_append, List.nil_append, List.cons_lex_cons_iff, ofNat_lt_iff,
      ofNat_eq_iff] <;>
    omega

/-! ## Texts -/

theorem utf8EncodeChar_ne_nil (c : Char) : String.utf8EncodeChar c ≠ [] := by
  apply List.ne_nil_of_length_pos
  rw [String.length_utf8EncodeChar]
  exact c.utf8Size_pos

theorem bytes_lt {s t : String} (h : s < t) : List.Lex (· < ·) (bytes s) (bytes t) := by
  have lex : List.Lex (· < ·) s.toList t.toList := h
  rw [bytes_eq, bytes_eq]
  generalize s.toList = cs at *
  generalize t.toList = ds at *
  induction lex with
  | @nil c cs =>
      obtain ⟨b, bs, eq⟩ := List.exists_cons_of_ne_nil (utf8EncodeChar_ne_nil c)
      rw [List.flatMap_nil, List.flatMap_cons, eq]
      exact .nil
  | rel lt => exact utf8EncodeChar_lt lt _ _
  | @cons c cs ds _ ih => exact List.Lex.append_left _ ih _

end LayoutTech.Text
