import LayoutTech.Technology.Document

/-!
# Faults of documents

A technology that cannot be read is malformed, whatever in it is at fault: the markup, a field, an option or a
component. Of the codecs this asks that they fail with faults of components alone.
-/

namespace LayoutTech

/-- Nothing but what has the property goes wrong. -/
def FailsOnly {ε α : Type} (P : ε → Prop) (x : Except ε α) : Prop := ∀ e, x = .error e → P e

namespace FailsOnly

variable {ε δ α β : Type} {P : ε → Prop} {Q : δ → Prop}

theorem ok (a : α) : FailsOnly P (.ok a : Except ε α) := nofun

theorem error {e : ε} (h : P e) : FailsOnly P (.error e : Except ε α) := by
  rintro _ ⟨⟩
  exact h

theorem mapError {x : Except ε α} {f : ε → δ} (h : ∀ e, x = .error e → Q (f e)) : FailsOnly Q (x.mapError f) := by
  cases x with
  | error e => exact error (h e rfl)
  | ok a => exact ok a

theorem bind {x : Traced ε α} {f : α → Traced ε β} (first : FailsOnly P x.result)
    (rest : ∀ a, FailsOnly P (f a).result) : FailsOnly P (x >>= f).result := by
  rw [Traced.result_bind]
  cases ran : x.result with
  | error e => exact error (first e ran)
  | ok a => exact rest a

theorem foldlM {f : α → β → Traced ε α} (step : ∀ a b, FailsOnly P (f a b).result) (bs : List β) (a : α) :
    FailsOnly P (bs.foldlM f a).result := by
  induction bs generalizing a with
  | nil => exact ok a
  | cons b bs ih => exact bind (step a b) ih

end FailsOnly

namespace Fault

def IsMalformed (fault : Fault) : Prop := ∃ cause, fault = .malformed cause

def IsOfComponent (fault : Fault) : Prop := ∃ cause, fault = .component cause

theorem isMalformed_malformed (cause : DocumentFault) : (malformed cause).IsMalformed := ⟨cause, rfl⟩

end Fault

open Fault (IsMalformed IsOfComponent isMalformed_malformed)

/-- The codecs tell of components only, not of names, files or documents. -/
def Codecs.TellOfComponents (codecs : Codecs) : Prop := ∀ block, FailsOnly IsOfComponent (codecs.decode block).result

theorem Codecs.eq_of_find?_builtin {tag : String} {codec : Codec} (found : builtin.find? tag = some codec) :
    codec = .view25 ∨ codec = .connectivity := by
  by_cases view : tag = Component.view25Name
  · exact .inl (Option.some.inj (found.symm.trans (if_pos view)))
  · by_cases connectivity : tag = Component.connectivityName
    · exact .inr (Option.some.inj (found.symm.trans ((if_neg view).trans (if_pos connectivity))))
    · cases found.symm.trans ((if_neg view).trans (if_neg connectivity))

theorem Codecs.tellOfComponents_builtin : builtin.TellOfComponents := by
  intro block
  rw [decode]
  split
  · next codec found =>
      rcases eq_of_find?_builtin found with rfl | rfl
      · exact .ok _
      · exact .bind (.mapError fun fault _ => ⟨.connectivity fault, rfl⟩) fun _ => .ok _
  · exact .ok _

namespace Technology

variable {codecs : Codecs}

theorem failsOnly_malformed {α : Type} (x : Except DocumentFault α) :
    FailsOnly IsMalformed (Traced.ofExcept (x.mapError Fault.malformed)).result :=
  .mapError fun fault _ => isMalformed_malformed fault

namespace Draft

theorem isMalformed_blockFault (tag : String) {fault : LayoutTech.Fault} (h : fault.IsOfComponent) :
    (blockFault tag fault).IsMalformed := by
  obtain ⟨cause, rfl⟩ := h
  exact isMalformed_malformed _

theorem failsOnly_addBlock (tell : codecs.TellOfComponents) (draft : Draft) (block : Xml.Element) :
    FailsOnly IsMalformed (draft.addBlock codecs block).result := by
  rw [addBlock]
  split
  · exact .error (isMalformed_malformed _)
  · refine .bind (.mapError fun fault failed => ?_) fun _ => .ok _
    exact isMalformed_blockFault block.name (tell block fault failed)

theorem failsOnly_readField (tell : codecs.TellOfComponents) (draft : Draft) (field : Field) (child : Xml.Element) :
    FailsOnly IsMalformed (draft.readField codecs field child).result := by
  cases field with
  | dbu => exact .bind (failsOnly_malformed _) fun _ => .ok _
  | grids => exact .bind (.mapError fun _ _ => isMalformed_malformed _) fun _ => .ok _
  | addOtherLayers => exact .bind (failsOnly_malformed _) fun _ => .ok _
  | readerOptions => exact .bind (failsOnly_malformed _) fun _ => .ok _
  | writerOptions => exact .bind (failsOnly_malformed _) fun _ => .ok _
  | components => exact .foldlM (failsOnly_addBlock tell) child.children draft
  | _ => exact .ok _

theorem failsOnly_readChild (tell : codecs.TellOfComponents) (draft : Draft) (child : Xml.Element) :
    FailsOnly IsMalformed (draft.readChild codecs child).result := by
  rw [readChild]
  split
  · exact failsOnly_readField tell draft _ child
  · split
    · exact failsOnly_addBlock tell draft child
    · exact .ok _

end Draft

theorem failsOnly_ofElement (tell : codecs.TellOfComponents) (e : Xml.Element) :
    FailsOnly IsMalformed (ofElement codecs e).result := by
  refine .bind (.foldlM (Draft.failsOnly_readChild tell) e.children {}) fun draft => ?_
  split
  · exact .ok _
  · exact .error (isMalformed_malformed _)

theorem failsOnly_parse (tell : codecs.TellOfComponents) (document : String) :
    FailsOnly IsMalformed (parse codecs document).result :=
  .bind (failsOnly_malformed _) (failsOnly_ofElement tell)

end Technology

end LayoutTech
