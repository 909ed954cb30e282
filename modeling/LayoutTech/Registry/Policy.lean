import LayoutTech.Text.Lowercase

/-!
# Collision policies

What becomes of a technology whose name is taken.
-/

namespace LayoutTech

/-- Keep the technology that is there, or put the new one in its place. -/
inductive CollisionPolicy where
  | reject
  | replace
deriving DecidableEq, Repr, Inhabited

namespace CollisionPolicy

/-- A word that names no policy, in small letters. -/
structure Fault where
  word : String
deriving DecidableEq, Repr

def Fault.message (fault : Fault) : String :=
  s!"Unknown collision policy '{fault.word}'. Expected reject or replace"

/-- The policy that a word names, in any case of letters. -/
def ofText (text : String) : Except Fault CollisionPolicy :=
  let word := Text.lowercase text
  if word = "reject" then .ok .reject
  else if word = "replace" then .ok .replace
  else .error ⟨word⟩

def title : CollisionPolicy → String
  | .reject => "Reject"
  | .replace => "Replace"

def word : CollisionPolicy → String
  | .reject => "reject"
  | .replace => "replace"

end CollisionPolicy

end LayoutTech
