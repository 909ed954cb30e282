import LayoutTech.FileTree.Basic

/-!
# Scanning for technology files

All technology files below a directory, in the order of their paths. Links are followed, but not to a
directory that is being scanned; an entry that cannot be read is left out with a warning.
-/

namespace LayoutTech.FileTree

def technologyExtension : List Char := "lyt".toList

/-- Whether a file name has the extension, in either case of letters; a name that begins with its only
point has none. -/
def isTechnologyName (name : List Char) : Bool :=
  let ending := (name.reverse.takeWhile (· != '.')).reverse
  ending.length + 1 < name.length && ending.map Char.toLower == technologyExtension

structure Visit where
  place : Place
  path : List Char

def skipped (text : String) : Warning :=
  ⟨"Skipping unreadable entry while scanning for technologies", [("error", text)]⟩

def unreadable (path : List Char) (fault : FileFault) : Warning :=
  skipped (s!"IO error for operation on " ++ String.ofList path ++ ": " ++ fault.message)

def loop (path ancestor : List Char) : Warning :=
  skipped ("File system loop found: " ++ String.ofList path ++ " points to an ancestor " ++
    String.ofList ancestor)

/-- The order of names, by code points. -/
def nameLt (a b : List Char) : Bool := List.lex a b fun c d => c.val < d.val

/-- Order by names, the first name on the way first. -/
def pathLe (p q : List Char) : Bool := !List.lex (q.splitOn '/') (p.splitOn '/') nameLt

/-- What there is to do about an entry of a directory. -/
inductive Entry where
  | file
  | directory (place : Place)
  | other (warning : Warning)

/-- The entry of the name in the innermost of the directories that are being scanned. -/
def entryOf (tree : FileTree) (visits : List Visit) (place : Place) (path : List Char) : Entry :=
  match tree.node? place with
  | some .directory => .directory place
  | some (.link _) =>
    match tree.lookup path with
    | .error fault => .other (unreadable path fault)
    | .ok (target, .directory) =>
      match visits.find? (·.place == target) with
      | some visit => .other (loop path visit.path)
      | none => .directory target
    | .ok _ => .file
  | _ => .file

/-- The technology files below the innermost of the directories that are being scanned. -/
def filesBelow (tree : FileTree) : Nat → List Visit → Traced LayoutTech.Fault (List (List Char))
  | 0, _ => pure []
  | _, [] => pure []
  | depth + 1, visit :: outer => do
    let names := (tree.namesIn visit.place).mergeSort (fun a b => !nameLt b a)
    let found ← names.mapM fun name => do
      let path := Path.join visit.path name
      match tree.entryOf (visit :: outer) (visit.place ++ [name]) path with
      | .file => pure (if isTechnologyName name then [path] else [])
      | .directory place => filesBelow tree depth (⟨place, path⟩ :: visit :: outer)
      | .other warning => do
        .warn warning
        pure []
    pure found.flatten

/-- The technology files below the directory. A way down takes every link to a directory at most once,
so that the square of the number of nodes bounds its length. -/
def technologyFiles (tree : FileTree) (path : List Char) : Traced LayoutTech.Fault (List (List Char)) :=
  match tree.lookup path with
  | .error fault => .fail (.file (String.ofList path) fault)
  | .ok (place, .directory) => do
    let size := tree.nodes.length + 1
    let files ← filesBelow tree (size * size) [⟨place, path⟩]
    pure (files.mergeSort pathLe)
  | .ok _ => .fail (.file (String.ofList path) .notADirectoryToScan)

end LayoutTech.FileTree
