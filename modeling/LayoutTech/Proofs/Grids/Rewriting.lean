import LayoutTech.Proofs.Grids

/-!
# Grid lists written again and again

A list that was read, or made from finite values, keeps its values when it is written and read, however often, and
keeps a mark. The mark goes to the first entry that is near the strong default, so it can only move to the front; it
stays when that entry has the value of the strong default, and otherwise it never comes back.
-/

namespace LayoutTech

namespace Binary64

theorem distance_comm (a b : Binary64) : a.distance b = b.distance a := by
  cases a with
  | nan => cases b <;> rfl
  | infinite na =>
      cases b with
      | infinite nb => simp [distance, eq_comm]
      | _ => rfl
  | finite na a _ =>
      cases b with
      | finite nb b _ => simp only [distance, eq_comm (a := na), Nat.add_comm a, Nat.add_comm (a - b)]
      | _ => rfl

theorem distance_self {a b : Binary64} (ha : a.isFinite) (hb : b.isFinite) : a.distance a = b.distance b := by
  cases a <;> cases b <;> simp_all [distance, isFinite]

theorem sameValue_congr {a b : Binary64} (h : a.sameValue b) (v : Binary64) : v.sameValue a = v.sameValue b := by
  cases a <;> cases b <;> cases v <;> simp_all [sameValue]
  grind

end Binary64

namespace Grids

/-! ## Where a list comes from -/

/-- The list was read from a text, or made from finite values and any strong default. -/
inductive Obtained : Grids → Prop
  | read {text : List Char} {g : Grids} (h : (ofText text).result = .ok g) : Obtained g
  | made {values : List Binary64} (finite : ∀ v ∈ values, v.isFinite) (value : Binary64) :
      Obtained (withDefault values value)

/-- The values are finite, and one of them is the strong default, if there is one. -/
structure Sound (g : Grids) : Prop where
  finite : ∀ v ∈ g.values, v.isFinite
  listed : ∀ d ∈ g.strongDefault, d ∈ g.values

theorem isFinite_of_ofPiece {text piece : List Char} {e : Entry} (h : Entry.ofPiece text piece = .ok e) :
    e.value.isFinite := by
  simp only [Entry.ofPiece] at h
  split at h
  · cases h
  · split at h
    · next finite => cases h; exact finite
    · cases h

theorem isFinite_of_readEntries {text : List Char} {seen : Bool} {pieces : List (List Char)} {es : List Entry}
    (h : (readEntries text seen pieces).result = .ok es) : ∀ e ∈ es, e.value.isFinite := by
  induction pieces generalizing seen es with
  | nil =>
      cases h
      exact List.forall_mem_nil _
  | cons piece pieces ih =>
      rw [result_readEntries_cons] at h
      obtain ⟨entry, first, h⟩ := Traced.bind_eq_ok.1 h
      obtain ⟨entries, rest, h⟩ := Traced.bind_eq_ok.1 h
      cases h
      exact List.forall_mem_cons.2 ⟨isFinite_of_ofPiece first, ih rest⟩

theorem sound_ofEntries {es : List Entry} (finite : ∀ e ∈ es, e.value.isFinite) : (ofEntries es).Sound where
  finite := List.forall_mem_map.2 finite
  listed d hd := by
    obtain ⟨e, found, rfl⟩ := Option.map_eq_some_iff.1 hd
    exact List.mem_map_of_mem (List.mem_of_find?_eq_some found)

theorem Obtained.sound {g : Grids} (h : g.Obtained) : g.Sound := by
  cases h with
  | read h =>
      unfold ofText at h
      split at h
      · cases h
        exact ⟨List.forall_mem_nil _, fun d hd => absurd hd (Option.not_mem_none d)⟩
      · obtain ⟨entries, rest, h⟩ := Traced.result_bind_eq_ok.1 h
        cases h
        exact sound_ofEntries (isFinite_of_readEntries rest)
  | made finite value =>
      refine ⟨finite, fun d (found : List.find? (near · value) _ = some d) => ?_⟩
      exact List.mem_of_find?_eq_some found

/-! ## Where the mark goes -/

variable {g next : Grids} {values : List Binary64} {a b d v : Binary64}

theorem near_comm (a b : Binary64) : near a b = near b a := by
  rw [near, near, Binary64.distance_comm]

theorem near_self (finite : d.isFinite) : near d d := by
  have zero : near .zero .zero := by decide +kernel
  rwa [near, Binary64.distance_self finite (show Binary64.zero.isFinite from rfl)]

theorem near_of_sameValue (finite : a.isFinite) (h : a.sameValue b) : near a b := by
  rw [← near_congr h]
  exact near_self finite

/-- How many values stand before the first one that has the value of the given one. -/
def place (d : Binary64) (values : List Binary64) : Nat := values.findIdx (·.sameValue d)

theorem place_congr (h : a.sameValue b) (values : List Binary64) : place a values = place b values := by
  simp only [place, Binary64.sameValue_congr h]

/-- The first value near a value does not stand behind it, and in the same place only when it has its value. -/
theorem place_first (finite : ∀ v ∈ values, v.isFinite) (first : values.find? (near · d) = some v) :
    place v values ≤ place d values ∧ (place v values = place d values → v.sameValue d) := by
  induction values with
  | nil => cases first
  | cons w values ih =>
      rw [List.forall_mem_cons] at finite
      rw [List.find?_cons] at first
      cases close : near w d with
      | true =>
          rw [close] at first
          obtain rfl : w = v := Option.some.inj first
          have front : place w (w :: values) = 0 := by
            rw [place, List.findIdx_cons, Binary64.sameValue_self finite.1, cond_true]
          rw [front, eq_comm (a := 0)]
          refine ⟨Nat.zero_le _, fun here => ?_⟩
          cases same : w.sameValue d with
          | true => rfl
          | false => rw [place, List.findIdx_cons, same, cond_false] at here; cases here
      | false =>
          simp only [close] at first
          have found : near v d := List.find?_some (p := (near · d)) first
          have other : w.sameValue d = false := by
            rw [← Bool.not_eq_true]
            intro same
            rw [near_of_sameValue finite.1 same] at close
            cases close
          have other' : w.sameValue v = false := by
            rw [← Bool.not_eq_true]
            intro same
            rw [near_comm, near_congr same, near_comm, found] at close
            cases close
          simpa only [place, List.findIdx_cons, other, other', cond_false, Nat.add_le_add_iff_right,
            Nat.add_right_cancel_iff] using ih finite.2 first

/-! ## Rounds of writing and reading -/

/-- The list after it was written and read so many times. -/
def rewritten : Nat → Grids → Except Fault Grids
  | 0, g => .ok g
  | n + 1, g => (ofText g.toText).result >>= rewritten n

theorem Sound.marked (h : g.Sound) : g.marked.Sound where
  finite := h.finite
  listed d hd := by
    obtain ⟨e, -, found⟩ := Option.bind_eq_some_iff.1 hd
    exact List.mem_of_find?_eq_some found

/-- A mark stays in the list when it is written, and goes to the first entry near the strong default. -/
theorem Sound.exists_first (h : g.Sound) (hd : d ∈ g.strongDefault) :
    ∃ v, g.values.find? (near · d) = some v ∧ g.marked.strongDefault = some v := by
  have mem := h.listed d hd
  have found : (g.values.find? (near · d)).isSome :=
    List.find?_isSome.2 ⟨d, mem, near_self (h.finite d mem)⟩
  obtain ⟨v, first⟩ := Option.isSome_iff_exists.1 found
  refine ⟨v, first, ?_⟩
  rw [Grids.marked, Option.mem_def.1 hd, Option.bind_some, first]

/-- The values stay, a mark stays a mark, and it does not move back. -/
structure Follows (g next : Grids) : Prop where
  sound : next.Sound
  values : next.values = g.values
  kept : next.strongDefault.isSome = g.strongDefault.isSome
  forward : ∀ d ∈ g.strongDefault, ∀ e ∈ next.strongDefault, place e g.values ≤ place d g.values

theorem Sound.follows_marked (h : g.Sound) : g.Follows g.marked where
  sound := h.marked
  values := rfl
  kept := by
    cases eq : g.strongDefault with
    | none => rw [Grids.marked, eq]; rfl
    | some d =>
        obtain ⟨v, -, now⟩ := h.exists_first eq
        rw [now]
        rfl
  forward d hd e he := by
    obtain ⟨v, first, now⟩ := h.exists_first hd
    obtain rfl : v = e := Option.some.inj (now.symm.trans he)
    exact (place_first h.finite first).1

theorem Follows.trans {mid : Grids} (first : g.Follows mid) (then' : mid.Follows next) : g.Follows next where
  sound := then'.sound
  values := then'.values.trans first.values
  kept := then'.kept.trans first.kept
  forward d hd e he := by
    obtain ⟨v, hv⟩ := Option.isSome_iff_exists.1 (first.kept.trans (Option.isSome_of_mem hd))
    have back := then'.forward v hv e he
    rw [first.values] at back
    exact Nat.le_trans back (first.forward d hd v hv)

theorem rewritten_succ (finite : ∀ v ∈ g.values, v.isFinite) (n : Nat) :
    rewritten (n + 1) g = rewritten n g.marked := by
  rw [rewritten, ofText_toText g finite]
  rfl

theorem Sound.exists_rewritten (h : g.Sound) (n : Nat) : ∃ next, rewritten n g = .ok next ∧ g.Follows next := by
  induction n generalizing g with
  | zero => exact ⟨g, rfl, h, rfl, rfl, fun d hd e he => by rw [Option.mem_unique hd he]⟩
  | succ n ih =>
      obtain ⟨next, run, follows⟩ := ih h.marked
      exact ⟨next, by rw [rewritten_succ h.finite, run], h.follows_marked.trans follows⟩

theorem Sound.same_self (h : g.Sound) : g.same g := by
  simp only [same, beq_self_eq_true, all_sameValue_self h.finite, Bool.true_and]
  cases eq : g.strongDefault with
  | none => rfl
  | some d => exact Binary64.sameValue_self (h.finite d (h.listed d eq))

/-! ## Marks that stay -/

theorem Portable.marked_marked (h : g.Portable) : g.marked.marked = g.marked := by
  have again := ofText_toText g.marked h.finite
  rw [h.toText_marked, ofText_toText g h.finite] at again
  exact (Except.ok.inj again).symm

theorem Portable.rewritten_succ (h : g.Portable) (n : Nat) : rewritten (n + 1) g = .ok g.marked := by
  induction n generalizing g with
  | zero => exact Grids.rewritten_succ h.finite 0
  | succ n ih => rw [Grids.rewritten_succ h.finite, ih h.marked, h.marked_marked]

/-! ## Marks that move -/

theorem sameValue_of_same (h : next.same g) (he : a ∈ next.strongDefault) (hd : d ∈ g.strongDefault) :
    a.sameValue d := by
  rw [Option.mem_def] at he hd
  rw [same, he, hd, Bool.and_eq_true] at h
  exact h.2

/-- When the first entry near the strong default has another value, it stands before the strong default. -/
theorem Sound.moves (h : g.Sound) (stuck : ¬g.Portable) :
    ∃ d ∈ g.strongDefault, ∀ v ∈ g.marked.strongDefault, place v g.values < place d g.values := by
  cases eq : g.strongDefault with
  | none => exact absurd ⟨h.finite, fun d hd => by rw [eq] at hd; cases hd⟩ stuck
  | some d =>
      obtain ⟨v, first, now⟩ := h.exists_first eq
      obtain ⟨before, here⟩ := place_first h.finite first
      refine ⟨d, rfl, fun w hw => ?_⟩
      obtain rfl : v = w := Option.mem_unique now hw
      refine Nat.lt_of_le_of_ne before fun level => stuck ⟨h.finite, fun e he => ?_⟩
      obtain rfl : d = e := Option.mem_unique eq he
      exact ⟨v, first, here level⟩

theorem Sound.not_same (h : g.Sound) (stuck : ¬g.Portable) (after : g.marked.Follows next) : ¬next.same g := by
  intro same
  obtain ⟨d, hd, moved⟩ := h.moves stuck
  have follows := h.follows_marked.trans after
  obtain ⟨v, hv⟩ := Option.isSome_iff_exists.1 (h.follows_marked.kept.trans (Option.isSome_of_mem hd))
  obtain ⟨e, he⟩ := Option.isSome_iff_exists.1 (follows.kept.trans (Option.isSome_of_mem hd))
  have front : place e g.values ≤ place v g.values := after.forward v hv e he
  rw [place_congr (sameValue_of_same same he hd)] at front
  exact absurd (moved v hv) (Nat.not_lt.2 front)

/-- A list that was read, or made from finite values, keeps its values when it is written and read again, however
often, and its mark does not go back. It is the same again exactly when the first entry near the strong default has
its value. -/
theorem rewritten_same_iff (h : g.Obtained) (n : Nat) :
    ∃ next, rewritten n g = .ok next ∧ next.values = g.values ∧
      next.strongDefault.isSome = g.strongDefault.isSome ∧
      (∀ d ∈ g.strongDefault, ∀ e ∈ next.strongDefault, place e g.values ≤ place d g.values) ∧
      (next.same g ↔ n = 0 ∨ g.Portable) := by
  have sound := h.sound
  obtain ⟨next, run, follows⟩ := sound.exists_rewritten n
  refine ⟨next, run, follows.values, follows.kept, follows.forward, ?_⟩
  cases n with
  | zero =>
      obtain rfl := Except.ok.inj run
      exact iff_of_true sound.same_self (.inl rfl)
  | succ n =>
      by_cases fixed : g.Portable
      · obtain rfl := Except.ok.inj (run.symm.trans (fixed.rewritten_succ n))
        exact iff_of_true fixed.same_marked (.inr fixed)
      · obtain ⟨_, rest, after⟩ := sound.marked.exists_rewritten n
        rw [rewritten_succ sound.finite, rest] at run
        obtain rfl := Except.ok.inj run
        exact iff_of_false (sound.not_same fixed after) (by simp [fixed])

theorem rewritten_same_iff_close :
    let fine := Decimal.toBinary false ⟨1, -2⟩
    let close := Decimal.toBinary false ⟨10001, -6⟩
    let g : Grids := ⟨[Decimal.toBinary false ⟨5, -1⟩, fine, close], some fine⟩
    (ofText " 0.5, 1e-2 !,0.010001".toList).result = .ok g ∧ ∃ next, rewritten 3 g = .ok next ∧ next.same g := by
  intro fine close g
  have read : (ofText " 0.5, 1e-2 !,0.010001".toList).result = .ok g := by decide +kernel
  obtain ⟨next, run, -, -, -, same⟩ := rewritten_same_iff (.read read) 3
  exact ⟨read, next, run, same.2 (.inr (by decide +kernel))⟩

/-- A mark behind a grid that is near it moves to that grid. -/
theorem rewritten_same_iff_crowded :
    let first := Decimal.toBinary false ⟨1, -2⟩
    let second := Decimal.toBinary false ⟨10001, -6⟩
    let g : Grids := ⟨[first, second], some second⟩
    let next : Grids := ⟨[first, second], some first⟩
    (ofText "0.01,0.010001!".toList).result = .ok g ∧ g.toText = "0.01!,0.010001".toList ∧
      rewritten 1 g = .ok next ∧ next.same g = false := by
  decide +kernel

end Grids

end LayoutTech
