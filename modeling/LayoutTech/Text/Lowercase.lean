import LayoutTech.Text.LetterCase

/-!
# Small letters

A text in small letters. Two letters need more than a look at a table: the capital I with a dot becomes two
characters, and the capital sigma has a small letter of its own at the end of a word.
-/

namespace LayoutTech.Text

/-- Whether the next character that counts is a letter with a case. -/
def meetsCased (cs : List Char) : Bool := ((cs.dropWhile isCaseIgnorable).head?.map isCased).getD false

/-- The small letter of a capital sigma between two texts; the one before is given in reverse. -/
def smallSigma (before after : List Char) : Char :=
  if meetsCased before && !meetsCased after then 'ς' else 'σ'

/-- A text in small letters, after a text that is given in reverse. -/
def lowercaseAfter (before : List Char) : List Char → List Char
  | [] => []
  | c :: rest =>
    (if c = 'Σ' then [smallSigma before rest]
      else if c = 'İ' then ['i', '\u0307']
      else [smallLetter c]) ++ lowercaseAfter (c :: before) rest

def lowercase (s : String) : String := String.ofList (lowercaseAfter [] s.toList)

end LayoutTech.Text
