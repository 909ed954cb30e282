import LayoutTech.Proofs.Xml.Settled
import Mathlib.Algebra.Order.BigOperators.Group.List
import Mathlib.Algebra.Order.Ring.Nat
import Mathlib.Logic.Function.Iterate

/-!
# Elements written again and again

An indented document adds layout to the text of an element that has children as well, and each round of writing and
reading adds it once more. So a settled element that is not the same after one round is never the same again.
-/

namespace LayoutTech.Xml.Element

variable {style : Style} {e : Element}

/-! ## One round -/

theorem children_returned (style : Style) (level : Nat) (e : Element) :
    (e.returned style level).children = e.children.map (returned style (level + 1)) := by
  rw [returned_eq, OpenDocument.settled]
  split <;> rfl

theorem name_returned (style : Style) (level : Nat) (e : Element) : (e.returned style level).name = e.name := by
  rw [returned_eq, OpenDocument.settled]
  split <;> rfl

theorem attributes_returned (style : Style) (level : Nat) (e : Element) :
    (e.returned style level).attributes = e.attributes := by
  rw [returned_eq, OpenDocument.settled]
  split <;> rfl

/-- The text of a settled element gets the layout, unless there is no text. -/
theorem text_returned (keeps : Style.compact.Keeps e) (style : Style) (level : Nat) :
    (e.returned style level).text =
      if e.text = "" then "" else e.text ++ String.ofList (Document.inside style level e) := by
  rw [returned_eq, OpenDocument.settled]
  by_cases empty : e.text = ""
  · rw [if_pos empty, empty, String.empty_append]
    split
    · rfl
    · next visible =>
        by_cases leaf : e.children = []
        · rw [Document.inside_of_leaf leaf]
        · have blank : isBlankText (String.ofList (Document.inside style level e)) := by
            rw [isBlankText_iff, String.toList_ofList]
            exact Document.allBlank_inside style level e
          simp [leaf, blank] at visible
  · rw [if_neg empty]
    split
    · next dropped =>
        simp only [Bool.and_eq_true, Bool.not_eq_true', List.isEmpty_eq_false_iff, ne_eq, List.map_eq_nil_iff,
          isBlankText_iff, String.toList_append] at dropped
        rcases keeps with leaf | none | ⟨c, hc, visible⟩
        · exact absurd leaf dropped.1
        · exact absurd none empty
        · exact absurd (dropped.2 c (List.mem_append_left _ hc)) visible
    · rfl

theorem everywhere_returned {P Q : Element → Prop} (kept : ∀ e level, P e → Q (e.returned style level))
    (h : e.Everywhere P) (level : Nat) : (e.returned style level).Everywhere Q := by
  induction h generalizing level with
  | @mk e here below ih =>
      refine .mk (kept e level here) ?_
      rw [children_returned]
      exact List.forall_mem_map.2 fun c hc => ih c hc (level + 1)

theorem keeps_returned (settled : e.Everywhere Style.compact.Keeps) (style : Style) (level : Nat) :
    (e.returned style level).Everywhere Style.compact.Keeps := by
  refine everywhere_returned (fun e level _ => ?_) settled level
  rw [returned_eq]
  exact OpenDocument.keeps_settled _

/-! ## Volume -/

mutual
/-- The number of characters in the texts of the element and of everything inside it. -/
def volume (e : Element) : Nat :=
  match e with
  | ⟨_, _, text, children⟩ => text.length + volumeAll children

def volumeAll (es : List Element) : Nat :=
  match es with
  | [] => 0
  | e :: es => volume e + volumeAll es
end

theorem volume_eq (e : Element) : e.volume = e.text.length + (e.children.map volume).sum := by
  have all (es : List Element) : volumeAll es = (es.map volume).sum := by
    induction es with
    | nil => rfl
    | cons e es ih => rw [volumeAll, ih, List.map_cons, List.sum_cons]
  cases e
  rw [volume, all]

theorem length_text_le (keeps : Style.compact.Keeps e) (style : Style) (level : Nat) :
    e.text.length ≤ (e.returned style level).text.length := by
  rw [text_returned keeps]
  split
  · next empty => rw [empty]
  · simp

theorem length_text_lt (keeps : Style.compact.Keeps e) (mixed : ¬Style.pretty.Keeps e) (level : Nat) :
    e.text.length < (e.returned .pretty level).text.length := by
  obtain ⟨filled, text⟩ := not_or.1 mixed
  have tags : Document.inside .pretty level e ≠ [] := by
    rw [Document.inside, List.isEmpty_eq_false_iff.2 filled]
    simp [Document.beforeTag, Style.gap]
  rw [text_returned keeps, if_neg text]
  simp [List.length_pos_iff.2 tags]

theorem volume_le_returned (settled : e.Everywhere Style.compact.Keeps) (style : Style) (level : Nat) :
    e.volume ≤ (e.returned style level).volume := by
  induction settled generalizing level with
  | @mk e here below ih =>
      rw [volume_eq, volume_eq, children_returned, List.map_map]
      exact Nat.add_le_add (length_text_le here style level) (List.sum_le_sum fun c hc => ih c hc (level + 1))

theorem volume_lt_returned (settled : e.Everywhere Style.compact.Keeps) (mixed : ¬e.Everywhere Style.pretty.Keeps)
    (level : Nat) : e.volume < (e.returned .pretty level).volume := by
  induction settled generalizing level with
  | @mk e here below ih =>
      have inner (c : Element) (hc : c ∈ e.children) := volume_le_returned (below c hc) .pretty (level + 1)
      rw [volume_eq, volume_eq, children_returned, List.map_map]
      by_cases keeps : Style.pretty.Keeps e
      · have deeper : ∃ c ∈ e.children, ¬c.Everywhere Style.pretty.Keeps := by
          by_contra none
          exact mixed (.mk keeps fun c hc => by_contra fun h => none ⟨c, hc, h⟩)
        obtain ⟨c, hc, mixed⟩ := deeper
        exact Nat.add_lt_add_of_le_of_lt (length_text_le here .pretty level)
          (List.sum_lt_sum _ _ inner ⟨c, hc, ih c hc mixed (level + 1)⟩)
      · exact Nat.add_lt_add_of_lt_of_le (length_text_lt here keeps level) (List.sum_le_sum inner)

/-! ## Many rounds -/

theorem volume_le_iterate_returned (settled : e.Everywhere Style.compact.Keeps) (style : Style) (level n : Nat) :
    e.volume ≤ ((returned style level)^[n] e).volume := by
  induction n generalizing e with
  | zero => exact Nat.le_refl _
  | succ n ih => exact Nat.le_trans (volume_le_returned settled style level) (ih (keeps_returned settled style level))

/-- A settled element is the same after some rounds exactly when no element in it has both a text and children. -/
theorem iterate_returned_eq_iff (settled : e.Everywhere Style.compact.Keeps) (level n : Nat) :
    (returned .pretty level)^[n] e = e ↔ n = 0 ∨ e.Everywhere Style.pretty.Keeps := by
  by_cases keeps : e.Everywhere Style.pretty.Keeps
  · exact iff_of_true (Function.iterate_fixed (returned_of_keeps keeps level) n) (.inr keeps)
  · cases n with
    | zero => exact iff_of_true rfl (.inl rfl)
    | succ n =>
        refine iff_of_false (fun same => ?_) (by simp [keeps])
        have first := volume_lt_returned settled keeps level
        have later := volume_le_iterate_returned (keeps_returned settled .pretty level) .pretty level n
        rw [← Function.iterate_succ_apply, same] at later
        exact absurd first (Nat.not_lt.2 later)

end LayoutTech.Xml.Element
