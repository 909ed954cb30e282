import LayoutTech.Text

/-!
# Paths

A path is a text of names with `/` between them; empty names and `.` do not count, and `..` stands for
the directory above. The normal form folds every `..` that has a name before it: what is left is a
number of steps up and the names below, and a path that starts at the root has no steps up. Its text is put
together step by step in a buffer.
-/

namespace LayoutTech

namespace Path

inductive Step where
  | up
  | down (name : List Char)
deriving DecidableEq, Repr

def isRooted (path : List Char) : Bool := path.head? == some '/'

def Step.ofPiece? (piece : List Char) : Option Step :=
  if piece = [] ∨ piece = ['.'] then none
  else if piece = ['.', '.'] then some .up
  else some (.down piece)

def steps (path : List Char) : List Step := (path.splitOn '/').filterMap Step.ofPiece?

/-- The second path seen from the first: itself if it starts at the root. -/
def join (base path : List Char) : List Char :=
  if isRooted path || base.isEmpty then path
  else if base.getLast? = some '/' then base ++ path
  else base ++ '/' :: path

structure Normal where
  rooted : Bool
  ups : Nat
  names : List (List Char)
deriving DecidableEq, Repr

namespace Normal

def start (rooted : Bool) : Normal := ⟨rooted, 0, []⟩

/-- One more step: going up takes the last name away, and leads nowhere from the root. -/
def walk (p : Normal) : Step → Normal
  | .down name => { p with names := p.names ++ [name] }
  | .up =>
    if !p.names.isEmpty then { p with names := p.names.dropLast }
    else if p.rooted then p
    else { p with ups := p.ups + 1 }

def pieces (p : Normal) : List (List Char) := List.replicate p.ups ['.', '.'] ++ p.names

def toText (p : Normal) : List Char :=
  (if p.rooted then ['/'] else []) ++ ['/'].intercalate p.pieces

/-- The directory that holds the path; the root is in none. -/
def parent? (p : Normal) : Option Normal :=
  if p.pieces.isEmpty then none
  else if p.names.isEmpty then some { p with ups := p.ups - 1 }
  else some { p with names := p.names.dropLast }

end Normal

def normal (path : List Char) : Normal := (steps path).foldl .walk (.start (isRooted path))

/-- A path that is put together, and the number of names at its end. -/
structure Buffer where
  text : List Char
  depth : Nat

namespace Buffer

def start (rooted : Bool) : Buffer := ⟨if rooted then ['/'] else [], 0⟩

/-- A text without its last piece, whatever that is; the root stays. -/
def cutLast (text : List Char) : List Char :=
  let before := ((text.reverse.dropWhile (· == '/')).dropWhile (· != '/')).dropWhile (· == '/')
  if before.isEmpty && isRooted text then ['/'] else before.reverse

/-- One more step. The depth alone tells whether there is a name to take away. -/
def walk (b : Buffer) : Step → Buffer
  | .down name => ⟨join b.text name, b.depth + 1⟩
  | .up =>
    if 0 < b.depth then ⟨cutLast b.text, b.depth - 1⟩
    else if isRooted b.text then b
    else { b with text := join b.text ['.', '.'] }

end Buffer

def normalize (path : List Char) : List Char := ((steps path).foldl .walk (Buffer.start (isRooted path))).text

inductive StripFault where
  | outsideBase (path : String)
  | escapesRoot (path : String)
deriving DecidableEq, Repr

def StripFault.message : StripFault → String
  | .outsideBase path => s!"Path outside base path: {path}"
  | .escapesRoot path => s!"Path escapes its root: {path}"

/-- The names of the path below the base; both are taken in normal form. -/
def stripBase (base path : List Char) : Except StripFault (List (List Char)) :=
  let b := normal base
  let p := normal path
  if b.rooted ≠ p.rooted then .error (.outsideBase (String.ofList path))
  else if p.ups ≠ 0 then .error (.escapesRoot (String.ofList path))
  else if b.ups = 0 ∧ b.names <+: p.names then .ok (p.names.drop b.names.length)
  else .error (.outsideBase (String.ofList path))

/-- The path relative to the base, where it is the base (`.`) or lies below it, and itself elsewhere. -/
def correct (base path : List Char) : List Char :=
  if base.isEmpty || path.isEmpty then path
  else match stripBase base path with
    | .ok [] => ['.']
    | .ok names => ['/'].intercalate names
    | .error _ => path

/-- A relative path resolved against the base; other paths, and all paths without a base, stay. -/
def effective (base path : List Char) : List Char :=
  if base.isEmpty || path.isEmpty || isRooted path then path
  else normalize (join base path)

end Path

end LayoutTech
