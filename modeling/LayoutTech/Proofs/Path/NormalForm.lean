import Mathlib.Data.List.Basic
import Mathlib.Data.List.Induction
import LayoutTech.Path
import LayoutTech.Proofs.Text.Cutting

/-!
# Normal forms of paths

The text of a normal form has that normal form again: its steps are those up that have no name to fold, and then the
names. Step by step the buffer holds the text of the normal form, and its depth is the number of the names, so that no
step up takes a `..` away. Going on from a place along a relative path leads where its normal form leads from there.
-/

namespace LayoutTech.Path

/-! ## Steps of a text -/

/-- A piece that counts, and goes down. -/
def IsName (piece : List Char) : Prop := piece ≠ [] ∧ piece ≠ ['.'] ∧ piece ≠ ['.', '.'] ∧ '/' ∉ piece

instance : DecidablePred IsName := fun _ => inferInstanceAs (Decidable (_ ∧ _))

variable {base path piece name : List Char} {names pieces : List (List Char)}

theorem ofPiece?_of_isName (h : IsName name) : Step.ofPiece? name = some (.down name) := by
  simp [Step.ofPiece?, h.1, h.2.1, h.2.2.1]

theorem isName_of_mem_steps (h : .down name ∈ steps path) : IsName name := by
  obtain ⟨piece, mem, eq⟩ := List.mem_filterMap.1 h
  have slash := Text.notMem_of_mem_splitOn mem
  unfold Step.ofPiece? at eq
  split at eq
  · cases eq
  · split at eq
    · cases eq
    · simp_all [IsName]

theorem steps_append_slash (before after : List Char) :
    steps (before ++ '/' :: after) = steps before ++ steps after := by
  rw [steps, List.splitOn_append_cons_self, List.filterMap_append]
  rfl

theorem steps_intercalate (h : ∀ piece ∈ pieces, '/' ∉ piece) :
    steps (['/'].intercalate pieces) = pieces.filterMap Step.ofPiece? := by
  cases pieces with
  | nil => rfl
  | cons piece rest => rw [steps, List.splitOn_intercalate _ h (List.cons_ne_nil _ _)]

theorem isRooted_intercalate (h : ∀ piece ∈ pieces, piece ≠ [] ∧ '/' ∉ piece) :
    isRooted (['/'].intercalate pieces) = false := by
  cases pieces with
  | nil => rfl
  | cons piece rest =>
      obtain ⟨filled, slash⟩ := h piece List.mem_cons_self
      cases piece with
      | nil => exact absurd rfl filled
      | cons c cs =>
          rw [List.mem_cons, not_or] at slash
          have other : c ≠ '/' := Ne.symm slash.1
          simp [List.intercalate_cons_cons_left, isRooted, other]

theorem filterMap_ofPiece?_names (h : ∀ name ∈ names, IsName name) :
    names.filterMap Step.ofPiece? = names.map .down := by
  induction names with
  | nil => rfl
  | cons name rest ih =>
      rw [List.forall_mem_cons] at h
      rw [List.filterMap_cons, ofPiece?_of_isName h.1, ih h.2]
      rfl

theorem isRooted_of_notMem (slash : '/' ∉ path) : isRooted path = false := by
  cases path with
  | nil => rfl
  | cons c cs =>
      rw [List.mem_cons, not_or] at slash
      simpa [isRooted] using Ne.symm slash.1

theorem isRooted_append (h : base ≠ []) (rest : List Char) : isRooted (base ++ rest) = isRooted base := by
  cases base with
  | nil => exact absurd rfl h
  | cons c cs => rfl

theorem isRooted_join (hb : base ≠ []) (relative : isRooted path = false) :
    isRooted (join base path) = isRooted base := by
  simp only [join, relative, List.isEmpty_iff, hb, Bool.or_eq_true, Bool.false_eq_true, or_self, if_false]
  split <;> exact isRooted_append hb _

theorem steps_join (hb : base ≠ []) (relative : isRooted path = false) :
    steps (join base path) = steps base ++ steps path := by
  simp only [join, relative, List.isEmpty_iff, hb, Bool.or_eq_true, Bool.false_eq_true, or_self, if_false]
  split
  · next last =>
      obtain ⟨before, rfl⟩ := List.getLast?_eq_some_iff.1 last
      have nothing : steps [] = [] := rfl
      rw [List.append_assoc, List.singleton_append, steps_append_slash, steps_append_slash, nothing, List.append_nil]
  · exact steps_append_slash base path

namespace Normal

variable {p q : Normal} {s : Step}

/-! ## Walking -/

/-- The steps that lead to the place. -/
def trail (p : Normal) : List Step := List.replicate p.ups .up ++ p.names.map .down

theorem rooted_walk (p : Normal) (s : Step) : (p.walk s).rooted = p.rooted := by
  cases s with
  | down name => rfl
  | up => simp only [walk]; split <;> (try split) <;> rfl

theorem rooted_foldl_walk (p : Normal) (ss : List Step) : (ss.foldl walk p).rooted = p.rooted := by
  induction ss generalizing p with
  | nil => rfl
  | cons s ss ih => exact (ih _).trans (rooted_walk p s)

/-- The place with these names below the given one. -/
def below (p : Normal) (names : List (List Char)) : Normal := ⟨p.rooted, p.ups, p.names ++ names⟩

theorem rooted_below (p : Normal) (names : List (List Char)) : (p.below names).rooted = p.rooted := rfl

theorem foldl_walk_downs (p : Normal) (names : List (List Char)) :
    (names.map .down).foldl walk p = p.below names := by
  induction names generalizing p with
  | nil => simp [below]
  | cons name rest ih => simp [walk, below, ih]

/-- Going up takes names away, and then leads out of a relative place. -/
theorem foldl_walk_ups (count ups : Nat) (names : List (List Char)) :
    (List.replicate count .up).foldl walk ⟨false, ups, names⟩ =
      ⟨false, ups + (count - names.length), names.take (names.length - count)⟩ := by
  induction count with
  | zero => simp
  | succ count ih =>
      rw [List.replicate_succ', List.foldl_append, ih, List.foldl_cons, List.foldl_nil, walk]
      by_cases left : count < names.length
      · have some : (names.take (names.length - count)).isEmpty = false := by
          rw [List.isEmpty_eq_false_iff, ← List.length_pos_iff, List.length_take]
          omega
        have fewer : (names.take (names.length - count)).dropLast = names.take (names.length - (count + 1)) := by
          rw [List.dropLast_eq_take, List.take_take, List.length_take]
          congr 1
          omega
        have ups : count + 1 - names.length = count - names.length := by omega
        simp [some, fewer, ups]
      · have nothing : names.length - count = 0 := by omega
        have nothing' : names.length - (count + 1) = 0 := by omega
        have ups : count + 1 - names.length = count - names.length + 1 := by omega
        simp [nothing, nothing', ups, Nat.add_assoc]

/-! ## Normal forms -/

/-- Only names are left, and a path from the root has nothing to go up from. -/
structure IsReduced (p : Normal) : Prop where
  named : ∀ name ∈ p.names, IsName name
  rooted : p.rooted = true → p.ups = 0

theorem IsReduced.walk (h : p.IsReduced) (named : ∀ name, s = .down name → IsName name) : (p.walk s).IsReduced := by
  cases s with
  | down name =>
      refine ⟨?_, h.rooted⟩
      simp only [Normal.walk, List.forall_mem_append, List.forall_mem_singleton]
      exact ⟨h.named, named name rfl⟩
  | up =>
      simp only [Normal.walk]
      split
      · exact ⟨fun name mem => h.named name (List.dropLast_subset _ mem), h.rooted⟩
      · split
        · exact h
        · next relative => exact ⟨h.named, fun rooted => absurd rooted relative⟩

theorem IsReduced.foldl_walk (h : p.IsReduced) {ss : List Step} (named : ∀ name, .down name ∈ ss → IsName name) :
    (ss.foldl Normal.walk p).IsReduced := by
  induction ss generalizing p with
  | nil => exact h
  | cons s ss ih =>
      apply ih
      · exact h.walk fun name eq => named name (eq ▸ List.mem_cons_self)
      · exact fun name mem => named name (List.mem_cons_of_mem _ mem)

theorem piece_of_mem_pieces (h : p.IsReduced) : ∀ piece ∈ p.pieces, piece ≠ [] ∧ '/' ∉ piece := by
  intro piece mem
  rcases List.mem_append.1 mem with mem | mem
  · rw [(List.mem_replicate.1 mem).2]
    decide
  · exact ⟨(h.named piece mem).1, (h.named piece mem).2.2.2⟩

theorem filterMap_ofPiece?_pieces (h : p.IsReduced) : p.pieces.filterMap Step.ofPiece? = p.trail := by
  have up : Step.ofPiece? ['.', '.'] = some .up := rfl
  rw [pieces, List.filterMap_append, filterMap_ofPiece?_names h.named, List.filterMap_replicate_of_some up, trail]

theorem steps_toText (h : p.IsReduced) : steps p.toText = p.trail := by
  have text : steps (['/'].intercalate p.pieces) = p.trail := by
    rw [steps_intercalate fun piece mem => (piece_of_mem_pieces h piece mem).2, filterMap_ofPiece?_pieces h]
  unfold toText
  cases p.rooted with
  | false => exact text
  | true => exact (steps_append_slash [] _).trans text

theorem isRooted_toText (h : p.IsReduced) : isRooted p.toText = p.rooted := by
  unfold toText
  cases p.rooted with
  | false => exact isRooted_intercalate (piece_of_mem_pieces h)
  | true => rfl

theorem foldl_walk_trail (h : p.IsReduced) : p.trail.foldl Normal.walk (.start p.rooted) = p := by
  rw [trail, List.foldl_append, foldl_walk_downs]
  obtain ⟨rooted, ups, names⟩ := p
  cases rooted with
  | false => simp [start, foldl_walk_ups, below]
  | true =>
      obtain rfl : ups = 0 := h.rooted rfl
      rfl

/-- Going on along a relative path is going on along its normal form. -/
theorem foldl_walk_trail_walk (relative : p.rooted = false) (q : Normal) (s : Step) :
    (p.walk s).trail.foldl Normal.walk q = (p.trail.foldl Normal.walk q).walk s := by
  obtain ⟨rooted, ups, names⟩ := p
  obtain rfl : rooted = false := relative
  cases s with
  | down name => simp [trail, Normal.walk]
  | up =>
      cases names using List.reverseRecOn with
      | nil => simp [trail, Normal.walk, List.replicate_succ']
      | append_singleton before last => simp [trail, Normal.walk]

end Normal

/-! ## The buffer -/

theorem intercalate_concat (filled : pieces ≠ []) (piece : List Char) :
    ['/'].intercalate (pieces ++ [piece]) = ['/'].intercalate pieces ++ '/' :: piece := by
  induction pieces with
  | nil => exact absurd rfl filled
  | cons first rest ih =>
      by_cases last : rest = []
      · subst last
        simp [List.intercalate_cons_cons]
      · have more : rest ++ [piece] ≠ [] := List.append_ne_nil_of_left_ne_nil last _
        rw [List.cons_append, List.intercalate_cons_of_ne_nil more, ih last, List.intercalate_cons_of_ne_nil last,
          List.append_assoc, List.append_assoc, List.append_assoc]

theorem getLast?_intercalate (h : ∀ piece ∈ pieces, piece ≠ [] ∧ '/' ∉ piece) :
    (['/'].intercalate pieces).getLast? ≠ some '/' := by
  intro last
  obtain ⟨before, text⟩ := List.getLast?_eq_some_iff.1 last
  have filled : pieces ≠ [] := by
    rintro rfl
    cases last
  have split := List.splitOn_intercalate '/' (fun piece mem => (h piece mem).2) filled
  rw [text, List.splitOn_append_cons_self] at split
  have empty : [] ∈ pieces := split ▸ List.mem_append_right _ List.mem_cons_self
  exact (h [] empty).1 rfl

theorem intercalate_ne_nil (filled : pieces ≠ []) (h : ∀ piece ∈ pieces, piece ≠ [] ∧ '/' ∉ piece) :
    ['/'].intercalate pieces ≠ [] := by
  cases pieces with
  | nil => exact absurd rfl filled
  | cons first rest =>
      cases first with
      | nil => exact absurd rfl (h [] List.mem_cons_self).1
      | cons c cs =>
          rw [List.intercalate_cons_cons_left]
          exact List.cons_ne_nil _ _

/-- The text of the pieces, below the root or not. -/
def textOf (rooted : Bool) (pieces : List (List Char)) : List Char :=
  (if rooted then ['/'] else []) ++ ['/'].intercalate pieces

theorem textOf_concat (rooted : Bool) (filled : pieces ≠ []) (piece : List Char) :
    textOf rooted (pieces ++ [piece]) = textOf rooted pieces ++ '/' :: piece := by
  rw [textOf, intercalate_concat filled, textOf, List.append_assoc]

/-- What stands before a piece, read from the end. -/
theorem dropWhile_reverse_append (filled : name ≠ []) (slash : '/' ∉ name) (before : List Char) :
    ((name.reverse ++ before).dropWhile (· == '/')).dropWhile (· != '/') = before.dropWhile (· != '/') := by
  have inside : ∀ c ∈ name.reverse, (c != '/') = true := by
    intro c mem
    rw [bne_iff_ne]
    exact fun eq => slash (eq ▸ List.mem_reverse.1 mem)
  have head : ∀ c ∈ (name.reverse ++ before).head?, ¬(c == '/') = true := by
    intro c mem
    rw [List.head?_append_of_ne_nil _ (List.reverse_ne_nil_iff.2 filled)] at mem
    simpa using inside c (List.mem_of_mem_head? mem)
  rw [Text.dropWhile_of_head head, List.dropWhile_append_of_pos inside]

section Pieces

variable (h : ∀ piece ∈ pieces, piece ≠ [] ∧ '/' ∉ piece) (rooted : Bool)
include h

/-- A text with a piece in it is not the root, and does not end in a `/`. -/
theorem textOf_filled (filled : pieces ≠ []) :
    textOf rooted pieces ≠ [] ∧ (textOf rooted pieces).getLast? ≠ some '/' := by
  have text := intercalate_ne_nil filled h
  rw [textOf, List.getLast?_append_of_ne_nil _ text]
  exact ⟨List.append_ne_nil_of_right_ne_nil _ text, getLast?_intercalate h⟩

theorem join_textOf (relative : isRooted piece = false) :
    join (textOf rooted pieces) piece = textOf rooted (pieces ++ [piece]) := by
  by_cases filled : pieces = []
  · subst filled
    cases rooted <;> simp [join, textOf, relative]
  · obtain ⟨text, last⟩ := textOf_filled h rooted filled
    rw [textOf_concat rooted filled]
    simp only [join, relative, List.isEmpty_iff, text, last, Bool.or_eq_true, Bool.false_eq_true, or_self, if_false]

/-- The last piece is cut off with the `/` before it, but for that of the root. -/
theorem cutLast_textOf (filled : name ≠ []) (slash : '/' ∉ name) :
    Buffer.cutLast (textOf rooted (pieces ++ [name])) = textOf rooted pieces := by
  have cut := dropWhile_reverse_append filled slash
  by_cases none : pieces = []
  · subst none
    have alone := cut []
    rw [List.append_nil] at alone
    cases rooted with
    | false => simp [Buffer.cutLast, textOf, alone, isRooted_of_notMem slash]
    | true =>
        have root : isRooted ('/' :: name) = true := rfl
        simp [Buffer.cutLast, textOf, cut, root]
  · obtain ⟨text, last⟩ := textOf_filled h rooted none
    have stays : (textOf rooted pieces).reverse.dropWhile (· == '/') = (textOf rooted pieces).reverse := by
      apply Text.dropWhile_of_head
      intro c mem eq
      rw [List.head?_reverse] at mem
      exact last (eq_of_beq eq ▸ mem)
    rw [textOf_concat rooted none, Buffer.cutLast]
    simp [cut, stays, text]

end Pieces

namespace Normal

variable {p : Normal} {s : Step}

/-- The buffer that holds the text of the normal form, with all of its names to take away. -/
def buffer (p : Normal) : Buffer := ⟨p.toText, p.names.length⟩

theorem pieces_concat (rooted : Bool) (ups : Nat) (before : List (List Char)) (last : List Char) :
    Normal.pieces ⟨rooted, ups, before ++ [last]⟩ = Normal.pieces ⟨rooted, ups, before⟩ ++ [last] :=
  (List.append_assoc ..).symm

theorem buffer_walk_down (h : p.IsReduced) (named : IsName name) :
    p.buffer.walk (.down name) = (p.walk (.down name)).buffer := by
  have joined := join_textOf (piece_of_mem_pieces h) p.rooted (isRooted_of_notMem named.2.2.2)
  rw [← pieces_concat] at joined
  rw [Buffer.walk, buffer, buffer, Buffer.mk.injEq]
  exact ⟨joined, by simp [walk]⟩

theorem buffer_walk_up (h : p.IsReduced) : p.buffer.walk .up = (p.walk .up).buffer := by
  have whole := piece_of_mem_pieces h
  obtain ⟨rooted, ups, names⟩ := p
  cases names using List.reverseRecOn with
  | nil =>
      have depth : ¬0 < (buffer ⟨rooted, ups, []⟩).depth := Nat.lt_irrefl 0
      have place : isRooted (buffer ⟨rooted, ups, []⟩).text = rooted := isRooted_toText h
      rw [Buffer.walk, if_neg depth, place]
      cases rooted with
      | true => rfl
      | false =>
          have dots : isRooted ['.', '.'] = false := rfl
          have joined := join_textOf whole false dots
          have climbed : pieces ⟨false, ups, []⟩ ++ [['.', '.']] = pieces ⟨false, ups + 1, []⟩ := by
            simp [pieces, List.replicate_succ']
          rw [climbed] at joined
          exact congrArg (Buffer.mk · 0) joined
  | append_singleton before last =>
      -- The depth is that of the names, so that no `..` is ever cut off.
      have depth : 0 < (buffer ⟨rooted, ups, before ++ [last]⟩).depth := by simp [buffer]
      have folded : walk ⟨rooted, ups, before ++ [last]⟩ .up = ⟨rooted, ups, before⟩ := by simp [walk]
      rw [pieces_concat, List.forall_mem_append, List.forall_mem_singleton] at whole
      obtain ⟨shorter, filled, slash⟩ := whole
      have cut : Buffer.cutLast (toText ⟨rooted, ups, before ++ [last]⟩) = toText ⟨rooted, ups, before⟩ := by
        rw [toText, pieces_concat]
        exact cutLast_textOf shorter rooted filled slash
      rw [Buffer.walk, if_pos depth, folded, buffer, buffer, Buffer.mk.injEq]
      exact ⟨cut, by simp⟩

/-- A step in the buffer is a step of the normal form. -/
theorem buffer_walk (h : p.IsReduced) (named : ∀ name, s = .down name → IsName name) :
    p.buffer.walk s = (p.walk s).buffer := by
  cases s with
  | down name => exact buffer_walk_down h (named name rfl)
  | up => exact buffer_walk_up h

theorem buffer_foldl_walk (h : p.IsReduced) {ss : List Step} (named : ∀ name, .down name ∈ ss → IsName name) :
    ss.foldl Buffer.walk p.buffer = (ss.foldl Normal.walk p).buffer := by
  induction ss generalizing p with
  | nil => rfl
  | cons s ss ih =>
      have here : ∀ name, s = .down name → IsName name := fun name eq => named name (eq ▸ List.mem_cons_self)
      rw [List.foldl_cons, List.foldl_cons, buffer_walk h here]
      exact ih (h.walk here) fun name mem => named name (List.mem_cons_of_mem _ mem)

end Normal

/-! ## The normal form of a text -/

theorem rooted_normal (path : List Char) : (normal path).rooted = isRooted path := Normal.rooted_foldl_walk _ _

theorem Normal.isReduced_start (rooted : Bool) : (start rooted).IsReduced := ⟨List.forall_mem_nil _, fun _ => rfl⟩

theorem isReduced_normal (path : List Char) : (normal path).IsReduced :=
  (Normal.isReduced_start _).foldl_walk fun _ => isName_of_mem_steps

/-- What the buffer holds in the end is the text of the normal form. -/
theorem normalize_eq (path : List Char) : normalize path = (normal path).toText := by
  have start : Buffer.start (isRooted path) = (Normal.start (isRooted path)).buffer := by
    cases isRooted path <;> rfl
  rw [normalize, start, Normal.buffer_foldl_walk (Normal.isReduced_start _) fun _ => isName_of_mem_steps]
  rfl

theorem normal_toText {p : Normal} (h : p.IsReduced) : normal p.toText = p := by
  rw [normal, Normal.steps_toText h, Normal.isRooted_toText h, Normal.foldl_walk_trail h]

theorem normal_normalize (path : List Char) : normal (normalize path) = normal path := by
  rw [normalize_eq, normal_toText (isReduced_normal path)]

theorem normalize_eq_iff {other : List Char} : normalize path = normalize other ↔ normal path = normal other := by
  refine ⟨fun same => ?_, fun same => ?_⟩
  · rw [← normal_normalize path, same, normal_normalize]
  · rw [normalize_eq, normalize_eq, same]

theorem normalize_normalize (path : List Char) : normalize (normalize path) = normalize path :=
  normalize_eq_iff.2 (normal_normalize path)

theorem steps_normalize (path : List Char) : steps (normalize path) = (normal path).trail := by
  rw [normalize_eq, Normal.steps_toText (isReduced_normal path)]

/-- A relative path leads from any place where its normal form leads. -/
theorem foldl_walk_steps (relative : isRooted path = false) (q : Normal) :
    (steps path).foldl Normal.walk q = (normal path).trail.foldl Normal.walk q := by
  have along (ss : List Step) (p : Normal) (hp : p.rooted = false) :
      (ss.foldl Normal.walk p).trail.foldl Normal.walk q = ss.foldl Normal.walk (p.trail.foldl Normal.walk q) := by
    induction ss generalizing p with
    | nil => rfl
    | cons s ss ih =>
        rw [List.foldl_cons, ih _ ((Normal.rooted_walk p s).trans hp), Normal.foldl_walk_trail_walk hp]
        rfl
  rw [normal, along _ _ relative]
  rfl

theorem normal_join (relative : isRooted path = false) :
    normal (join base path) = (steps path).foldl Normal.walk (normal base) := by
  by_cases hb : base = []
  · have itself : join base path = path := by simp [join, hb]
    rw [itself, hb, normal, relative]
    rfl
  · rw [normal, steps_join hb relative, isRooted_join hb relative, List.foldl_append]
    rfl

end LayoutTech.Path
