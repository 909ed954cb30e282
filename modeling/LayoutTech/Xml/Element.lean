/-!
# Elements

An element of a document: a name, attributes in order, the text it holds, and its child elements.
-/

namespace LayoutTech.Xml

/-- An element. The text is all character data directly inside it. -/
structure Element where
  name : String
  attributes : List (String × String) := []
  text : String := ""
  children : List Element := []
deriving Inhabited

namespace Element

mutual
/-- Equality of elements, children included. -/
def decideEq (a b : Element) : Decidable (a = b) :=
  match a, b with
  | ⟨n, as, t, cs⟩, ⟨m, bs, u, ds⟩ =>
    if h : n = m ∧ as = bs ∧ t = u then
      match decideEqList cs ds with
      | isTrue e => isTrue (by obtain ⟨rfl, rfl, rfl⟩ := h; rw [e])
      | isFalse e => isFalse (by intro eq; injection eq; contradiction)
    else isFalse (by intro eq; injection eq with h₁ h₂ h₃; exact h ⟨h₁, h₂, h₃⟩)

def decideEqList (as bs : List Element) : Decidable (as = bs) :=
  match as, bs with
  | [], [] => isTrue rfl
  | [], _ :: _ => isFalse (by simp)
  | _ :: _, [] => isFalse (by simp)
  | a :: as, b :: bs =>
    match decideEq a b with
    | isTrue h =>
      match decideEqList as bs with
      | isTrue t => isTrue (by rw [h, t])
      | isFalse t => isFalse (by intro eq; injection eq; contradiction)
    | isFalse h => isFalse (by intro eq; injection eq; contradiction)
end

instance : DecidableEq Element := decideEq

def ofText (name text : String) : Element := { name, text }

def ofChildren (name : String) (children : List Element) : Element := { name, children }

@[simp] theorem name_ofText (name text : String) : (ofText name text).name = name := rfl

@[simp] theorem text_ofText (name text : String) : (ofText name text).text = text := rfl

@[simp] theorem name_ofChildren (name : String) (children : List Element) : (ofChildren name children).name = name :=
  rfl

@[simp] theorem children_ofChildren (name : String) (children : List Element) :
    (ofChildren name children).children = children :=
  rfl

def child? (e : Element) (name : String) : Option Element := e.children.find? (·.name == name)

end Element

end LayoutTech.Xml
