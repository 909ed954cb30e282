import LayoutTech.Xml.Element
import LayoutTech.Xml.Entity

/-!
# Documents

The written form of an element: a declaration and the tags, either with nothing between them or each
on a line of its own. An indented document breaks no line after text, so that what an element with
text alone holds stays the same.
-/

namespace LayoutTech.Xml

inductive Style where
  | compact
  | pretty
deriving DecidableEq, Repr

namespace Style

/-- What stands before a tag that does not follow text. -/
def gap : Style → Nat → List Char
  | .compact, _ => []
  | .pretty, level => '\n' :: List.replicate (2 * level) ' '

def ending : Style → List Char
  | .compact => []
  | .pretty => ['\n']

end Style

namespace Document

def declaration : List Char := "<?xml version=\"1.0\" encoding=\"utf-8\"?>".toList

def attributeText (pair : String × String) : List Char :=
  ' ' :: pair.1.toList ++ '=' :: '"' :: Entity.encode pair.2.toList ++ ['"']

def tagText (name : String) (attributes : List (String × String)) : List Char :=
  name.toList ++ attributes.flatMap attributeText

def beforeTag (style : Style) (level : Nat) (afterText : Bool) : List Char :=
  if afterText then [] else style.gap level

mutual
/-- The element, with what stands before its tag. -/
def elementText (style : Style) (level : Nat) (afterText : Bool) (e : Element) : List Char :=
  match e with
  | ⟨name, attributes, text, children⟩ =>
    beforeTag style level afterText ++ '<' :: tagText name attributes ++
      -- an element without content is written as one tag
      if children.isEmpty && text.isEmpty then ['/', '>']
      else
        '>' :: Entity.encode text.toList ++ elementTexts style (level + 1) (!text.isEmpty) children ++
          beforeTag style level children.isEmpty ++ '<' :: '/' :: name.toList ++ ['>']

/-- The elements one after the other; text may stand before the first of them. -/
def elementTexts (style : Style) (level : Nat) (afterText : Bool) (es : List Element) : List Char :=
  match es with
  | [] => []
  | e :: es => elementText style level afterText e ++ elementTexts style level false es
end

def text (style : Style) (e : Element) : List Char :=
  declaration ++ elementText style 0 false e ++ style.ending

end Document

def Element.toDocument (e : Element) (style : Style) : String := String.ofList (Document.text style e)

end LayoutTech.Xml
