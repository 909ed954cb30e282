import LayoutTech.Number.Shortest
import LayoutTech.Text
import LayoutTech.Warning

/-!
# Grid lists

A technology may bring its own list of editing grids, one of which may be marked as the strong
default. The list is written as numerals with commas between them; the marked entry has a `!` after
it.
-/

namespace LayoutTech

structure Grids where
  values : List Binary64
  strongDefault : Option Binary64
deriving DecidableEq

namespace Grids

inductive Fault where
  | notANumber (entry text : String)
  | notFinite (entry : String)
deriving DecidableEq, Repr

def Fault.message : Fault → String
  | .notANumber entry text => s!"'{entry}' is not a grid value in '{text}'"
  | .notFinite entry => s!"'{entry}' is not a finite grid value"

/-- Grids nearer to each other than this are the same grid. -/
def tolerance : Binary64 := Decimal.toBinary false ⟨1, -5⟩

/-- The two values are nearer to each other than the tolerance. -/
def near (a b : Binary64) : Bool := (a.distance b).magnitudeLess tolerance

def empty : Grids := ⟨[], none⟩

instance : Inhabited Grids := ⟨empty⟩

def ofValues (values : List Binary64) : Grids := ⟨values, none⟩

/-- A list of grids the first of which that is near the given value is marked. -/
def withDefault (values : List Binary64) (value : Binary64) : Grids :=
  ⟨values, values.find? (near · value)⟩

def isEmpty (g : Grids) : Bool := g.values.isEmpty

/-- Equality of the values, entry by entry, and of the marked values. -/
def same (g h : Grids) : Bool :=
  g.values.length == h.values.length && (g.values.zip h.values).all (fun (a, b) => a.sameValue b) &&
    match g.strongDefault, h.strongDefault with
    | none, none => true
    | some a, some b => a.sameValue b
    | _, _ => false

/-- The entries as texts; the first that is near the strong default gets the mark. -/
def entryTexts (strongDefault : Option Binary64) : List Binary64 → List (List Char)
  | [] => []
  | v :: vs =>
    match strongDefault with
    | some d =>
      if near v d then (v.toText ++ ['!']) :: entryTexts none vs
      else v.toText :: entryTexts (some d) vs
    | none => v.toText :: entryTexts none vs

def toText (g : Grids) : List Char := [','].intercalate (entryTexts g.strongDefault g.values)

instance : ToString Grids := ⟨fun g => String.ofList g.toText⟩

structure Entry where
  value : Binary64
  marked : Bool
deriving DecidableEq

def splitMark (piece : List Char) : List Char × Bool :=
  let entry := Text.trim piece
  if entry.getLast? = some '!' then (Text.trimEnd entry.dropLast, true) else (entry, false)

def Entry.ofPiece (text piece : List Char) : Except Fault Entry :=
  let (numeral, marked) := splitMark piece
  match Binary64.ofText? numeral with
  | none => .error (.notANumber (String.ofList numeral) (String.ofList text))
  | some value =>
    if value.isFinite then .ok ⟨value, marked⟩ else .error (.notFinite (String.ofList numeral))

/-- A mark after the first one has no effect. -/
def lateMark (text : List Char) (value : Binary64) : Warning :=
  ⟨"Multiple strong default grids marked, keeping the first one",
    [("grids", String.ofList text), ("ignored", toString value)]⟩

/-- Reads the entries of the text, `seen` telling whether a mark came before them. -/
def readEntries (text : List Char) (seen : Bool) : List (List Char) → Traced Fault (List Entry)
  | [] => pure []
  | piece :: pieces => do
    let entry ← .ofExcept (Entry.ofPiece text piece)
    if entry.marked && seen then .warn (lateMark text entry.value)
    let entries ← readEntries text (seen || entry.marked) pieces
    pure (entry :: entries)

def ofEntries (entries : List Entry) : Grids :=
  ⟨entries.map Entry.value, (entries.find? Entry.marked).map Entry.value⟩

/-- Reads a written list; a blank text is the empty list. -/
def ofText (text : List Char) : Traced Fault Grids :=
  if (Text.trim text).isEmpty then pure empty
  else do
    let entries ← readEntries text false (text.splitOn ',')
    pure (ofEntries entries)

end Grids

end LayoutTech
