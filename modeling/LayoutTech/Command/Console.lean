import LayoutTech.FileTree.Basic

/-!
# Consoles

What a command does: it writes lines to its output or to its messages, changes the file tree, and may fail.
What has been written stays when it fails.
-/

namespace LayoutTech.Command

/-- The file tree, and what has been written so far. -/
structure Console where
  tree : FileTree
  output : String := ""
  messages : String := ""

/-- Why a command failed, and what is behind that, the deepest cause last. -/
structure Failure where
  message : String
  causes : List String := []
deriving DecidableEq, Repr

namespace Failure

def indented (indent cause : String) : String := ("\n" ++ indent).intercalate (cause.splitOn "\n")

/-- The causes as lines, with numbers if there are several. -/
def causeLines : List String → List String
  | [cause] => ["    " ++ indented "    " cause]
  | causes => causes.zipIdx.map fun (cause, n) => s!"    {n}: " ++ indented "       " cause

def report (f : Failure) : String :=
  "Error: " ++ f.message ++
    (if f.causes.isEmpty then "" else "\n\nCaused by:\n" ++ "\n".intercalate (causeLines f.causes)) ++ "\n"

end Failure

abbrev Action := ExceptT Failure (StateM Console)

namespace Action

def write (text : String) : Action Unit := modify fun c => { c with output := c.output ++ text }

def writeLine (text : String := "") : Action Unit := write (text ++ "\n")

def tell (text : String) : Action Unit := modify fun c => { c with messages := c.messages ++ text ++ "\n" }

def tree : Action FileTree := do return (← get).tree

def orFail {ε α : Type} (x : Except ε α) (failure : ε → Failure) : Action α :=
  match x with
  | .ok a => pure a
  | .error e => throw (failure e)

/-- Writes a file; a fault is told after the sentence. -/
def writeFile (path text : String) (sentence : String) : Action Unit := do
  let tree ← orFail ((← tree).writeText path.toList text) fun fault => ⟨sentence, [fault.message]⟩
  modify fun c => { c with tree }

end Action

end LayoutTech.Command
