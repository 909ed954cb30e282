import Mathlib.Data.List.TakeWhile
import LayoutTech.Text

/-!
# Cutting texts

A text is cut where a character stops the part before it. Trimming leaves nothing of a blank text,
and all of a text with no blank at either end.
-/

namespace LayoutTech.Text

/-! ## Up to a stop -/

section Stop

variable {p : Char → Bool} {cs rest : List Char} {stop : Char}

theorem takeWhile_until (h : ∀ c ∈ cs, p c) (hr : ∀ c ∈ rest.head?, ¬p c) : (cs ++ rest).takeWhile p = cs := by
  rw [List.takeWhile_append_of_pos h]
  cases rest with
  | nil => simp
  | cons c rest => rw [List.takeWhile_cons_of_neg (hr c rfl), List.append_nil]

theorem dropWhile_of_head (h : ∀ c ∈ cs.head?, ¬p c) : cs.dropWhile p = cs := by
  cases cs with
  | nil => rfl
  | cons c cs => exact List.dropWhile_cons_of_neg (h c rfl)

theorem dropWhile_until (h : ∀ c ∈ cs, p c) (hr : ∀ c ∈ rest.head?, ¬p c) : (cs ++ rest).dropWhile p = rest := by
  rw [List.dropWhile_append_of_pos h, dropWhile_of_head hr]

theorem takeWhile_stop (h : ∀ c ∈ cs, p c) (hs : ¬p stop) (rest : List Char) :
    (cs ++ stop :: rest).takeWhile p = cs :=
  takeWhile_until h fun _ hc => Option.some.inj hc ▸ hs

theorem dropWhile_stop (h : ∀ c ∈ cs, p c) (hs : ¬p stop) (rest : List Char) :
    (cs ++ stop :: rest).dropWhile p = stop :: rest :=
  dropWhile_until h fun _ hc => Option.some.inj hc ▸ hs

end Stop

theorem notMem_of_mem_splitOn {sep : Char} {cs piece : List Char} (h : piece ∈ cs.splitOn sep) : sep ∉ piece := by
  induction cs generalizing piece with
  | nil =>
      obtain rfl := List.mem_singleton.1 h
      exact List.not_mem_nil
  | cons c cs ih =>
      rw [List.splitOn_cons_eq_if_modifyHead] at h
      split at h
      · rcases List.mem_cons.1 h with rfl | h
        · exact List.not_mem_nil
        · exact ih h
      · next ne =>
          obtain ⟨first, rest, eq⟩ := List.exists_cons_of_ne_nil (List.splitOn_ne_nil sep cs)
          rw [eq] at h ih
          rw [List.modifyHead_cons] at h
          rcases List.mem_cons.1 h with rfl | h
          · rw [List.mem_cons, not_or]
            exact ⟨fun same => ne (beq_iff_eq.2 same.symm), ih List.mem_cons_self⟩
          · exact ih (List.mem_cons_of_mem _ h)

/-! ## Trimming -/

theorem AllBlank.nil : AllBlank [] := fun _ h => nomatch h

theorem AllBlank.append {cs ds : List Char} (hc : AllBlank cs) (hd : AllBlank ds) : AllBlank (cs ++ ds) :=
  List.forall_mem_append.2 ⟨hc, hd⟩

theorem trimEnd_eq_nil {cs : List Char} : trimEnd cs = [] ↔ AllBlank cs := by
  simp only [trimEnd, List.reverse_eq_nil_iff, List.dropWhile_eq_nil_iff, List.mem_reverse, AllBlank]

theorem AllBlank.of_dropWhile {cs : List Char} (h : AllBlank (cs.dropWhile isBlank)) : AllBlank cs := by
  induction cs with
  | nil => exact h
  | cons c cs ih =>
      by_cases hc : isBlank c
      · rw [List.dropWhile_cons_of_pos hc] at h
        exact List.forall_mem_cons.2 ⟨hc, ih h⟩
      · rwa [List.dropWhile_cons_of_neg hc] at h

theorem trim_eq_nil {cs : List Char} : trim cs = [] ↔ AllBlank cs := by
  rw [trim, trimEnd_eq_nil]
  constructor
  · exact AllBlank.of_dropWhile
  · intro h c hc
    exact h c ((List.dropWhile_suffix _).subset hc)

theorem trimStart_of_head {cs : List Char} (h : ∀ c ∈ cs.head?, ¬isBlank c) : trimStart cs = cs :=
  dropWhile_of_head h

theorem trimEnd_of_last {cs : List Char} (h : ∀ c ∈ cs.getLast?, ¬isBlank c) : trimEnd cs = cs := by
  have head : ∀ c ∈ cs.reverse.head?, ¬isBlank c := by rwa [List.head?_reverse]
  rw [trimEnd, dropWhile_of_head head, List.reverse_reverse]

theorem trim_of_ends {cs : List Char} (head : ∀ c ∈ cs.head?, ¬isBlank c)
    (last : ∀ c ∈ cs.getLast?, ¬isBlank c) : trim cs = cs := by
  rw [trim, trimStart_of_head head, trimEnd_of_last last]

theorem trim_of_no_blank {cs : List Char} (h : ∀ c ∈ cs, ¬isBlank c) : trim cs = cs :=
  trim_of_ends (fun c hc => h c (List.mem_of_mem_head? hc)) (fun c hc => h c (List.mem_of_mem_getLast? hc))

theorem not_isBlank_of_mem_head? {cs : List Char} {c : Char} (h : c ∈ (cs.dropWhile isBlank).head?) :
    ¬isBlank c := by
  have first := List.head?_dropWhile_not isBlank cs
  rw [Option.mem_def.1 h] at first
  simpa using first

theorem isPrefix_trimEnd (cs : List Char) : trimEnd cs <+: cs := by
  rw [trimEnd, ← List.reverse_suffix, List.reverse_reverse]
  exact List.dropWhile_suffix _

theorem not_isBlank_head?_trim {cs : List Char} {c : Char} (h : c ∈ (trim cs).head?) : ¬isBlank c := by
  obtain ⟨rest, eq⟩ := isPrefix_trimEnd (trimStart cs)
  have first : c ∈ (trimStart cs).head? := by
    rw [← eq, List.head?_append, ← trim, Option.mem_def.1 h]
    rfl
  exact not_isBlank_of_mem_head? first

theorem not_isBlank_getLast?_trim {cs : List Char} {c : Char} (h : c ∈ (trim cs).getLast?) : ¬isBlank c := by
  rw [trim, trimEnd, List.getLast?_reverse] at h
  exact not_isBlank_of_mem_head? h

theorem exists_blank_trimStart (cs : List Char) : ∃ blanks, AllBlank blanks ∧ cs = blanks ++ trimStart cs :=
  ⟨cs.takeWhile isBlank, fun _ hc => List.mem_takeWhile_imp hc, List.takeWhile_append_dropWhile.symm⟩

theorem exists_trimEnd_blank (cs : List Char) : ∃ blanks, AllBlank blanks ∧ cs = trimEnd cs ++ blanks := by
  obtain ⟨blanks, blank, eq⟩ := exists_blank_trimStart cs.reverse
  refine ⟨blanks.reverse, fun c hc => blank c (List.mem_reverse.1 hc), ?_⟩
  rw [trimEnd, ← List.reverse_append, ← trimStart, ← eq, List.reverse_reverse]

theorem trim_trim (cs : List Char) : trim (trim cs) = trim cs :=
  trim_of_ends (fun _ => not_isBlank_head?_trim) (fun _ => not_isBlank_getLast?_trim)

theorem trim_eq_self_iff {cs : List Char} :
    trim cs = cs ↔ (∀ c ∈ cs.head?, ¬isBlank c) ∧ ∀ c ∈ cs.getLast?, ¬isBlank c := by
  constructor
  · intro h
    rw [← h]
    exact ⟨fun _ => not_isBlank_head?_trim, fun _ => not_isBlank_getLast?_trim⟩
  · rintro ⟨head, last⟩
    exact trim_of_ends head last

theorem trim_subset (cs : List Char) : trim cs ⊆ cs :=
  List.Subset.trans (isPrefix_trimEnd _).subset (List.dropWhile_suffix _).subset

/-! ## Blanks around a text -/

section Blanks

variable {cs blanks : List Char}

theorem trimStart_append_of_blank (h : AllBlank blanks) (cs : List Char) : trimStart (blanks ++ cs) = trimStart cs :=
  List.dropWhile_append_of_pos h

/-- What follows a text that does not begin with a blank does not change how it begins. -/
theorem trimStart_append_of_head {rest : List Char} (h : ∀ c ∈ rest.head?, ¬isBlank c) :
    trimStart (cs ++ rest) = trimStart cs ++ rest := by
  rw [trimStart, trimStart, List.dropWhile_append, dropWhile_of_head h]
  cases cs.dropWhile isBlank <;> rfl

theorem trimEnd_append_of_blank (h : AllBlank blanks) (cs : List Char) : trimEnd (cs ++ blanks) = trimEnd cs := by
  have blank : ∀ c ∈ blanks.reverse, isBlank c := fun c hc => h c (List.mem_reverse.1 hc)
  rw [trimEnd, List.reverse_append, List.dropWhile_append_of_pos blank, trimEnd]

theorem trim_append_left (h : AllBlank blanks) (cs : List Char) : trim (blanks ++ cs) = trim cs := by
  rw [trim, trimStart_append_of_blank h, trim]

theorem trim_append_right (h : AllBlank blanks) (cs : List Char) : trim (cs ++ blanks) = trim cs := by
  by_cases all : AllBlank cs
  · rw [trim_eq_nil.2 all, trim_eq_nil.2 (all.append h)]
  · have filled : ¬(cs.dropWhile isBlank).isEmpty := by
      rw [List.isEmpty_iff, List.dropWhile_eq_nil_iff]
      exact all
    have start : trimStart (cs ++ blanks) = trimStart cs ++ blanks := by
      rw [trimStart, List.dropWhile_append, if_neg filled, trimStart]
    rw [trim, start, trimEnd_append_of_blank h, trim]

end Blanks

end LayoutTech.Text

namespace LayoutTech

theorem isBlankText_iff {s : String} : isBlankText s = true ↔ Text.AllBlank s.toList := by
  rw [isBlankText, List.isEmpty_iff, Text.trim_eq_nil]

@[simp] theorem isBlankText_empty : isBlankText "" = true := rfl

end LayoutTech
