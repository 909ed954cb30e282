import LayoutTech.Command.Run

/-!
# The program on a machine

Takes from the machine what a run can look at, runs the program on that, and puts on the machine what the
run wrote.
-/

namespace LayoutTech.Command

def environmentVariables : List String :=
  ["HOME", "RUST_LOG", "LYTECH_LOG_LEVEL", Manifest.pathVariable, Manifest.policyVariable]

def Request.files (r : Request) : List String :=
  r.config.toList ++ match r.task with
  | some (.technology (.exportAll output)) => output.toList
  | some (.technology (.validate file)) => [file]
  | some (.technology (.importFrom file output)) => file :: output.toList
  | some (.configuration (.validate file)) => file.toList
  | some (.configuration (.generate output _)) => [output]
  | _ => []

/-- What is known of the machine's files, and the directories whose entries are known. -/
structure Survey where
  tree : FileTree
  listed : List Place := []

namespace Survey

def placeOf (path : String) : Place := (Path.normal path.toList).names

/-- Looks at what is at a place. A link is taken to lead where it leads in the end. -/
def look (s : Survey) (place : Place) : IO Survey := do
  if (s.tree.node? place).isSome then return s
  let path := (← IO.currentDir) / String.ofList (FileTree.pathOf place)
  try
    let node ← match (← path.symlinkMetadata).type with
      | .dir => pure .directory
      | .symlink => pure (.link (← IO.FS.realPath path).toString.toList)
      | .file => pure (.file (← IO.FS.readBinFile path))
      | .other => pure (.file ByteArray.empty)
    return { s with tree := s.tree.put place node }
  catch _ => return s

/-- Looks at everything on the way from a place, and at the place that it leads to. -/
partial def walk (s : Survey) (place : Place) : List (List Char) → IO (Survey × Place)
  | [] => return (s, place)
  | name :: rest => do
    if name.isEmpty || name == ['.'] then s.walk place rest
    else if name == ['.', '.'] then s.walk place.dropLast rest
    else
      let next := place ++ [name]
      let s ← s.look next
      match s.tree.node? next with
      | some (.link target) =>
        let (s, place) ← s.walk [] (target.splitOn '/')
        s.walk place rest
      | _ => s.walk next rest

def walkPath (s : Survey) (path : List Char) : IO (Survey × Place) :=
  s.walk (if Path.isRooted path then [] else s.tree.current) (path.splitOn '/')

/-- Looks at everything below a directory, links to directories included. -/
partial def walkBelow (s : Survey) (place : Place) : IO Survey := do
  let isDirectory := match s.tree.node? place with
    | some .directory => true
    | _ => false
  if s.listed.contains place || !isDirectory then return s
  let path := (← IO.currentDir) / String.ofList (FileTree.pathOf place)
  let entries ← try path.readDir catch _ => pure #[]
  entries.foldlM (fun s entry => do
    let (s, next) ← s.walk place [entry.fileName.toList]
    s.walkBelow next) { s with listed := place :: s.listed }

/-- Looks at everything that a run with the arguments can look at. -/
def ofMachine (env : Environment) (arguments : List String) : IO Survey := do
  let current := placeOf (← IO.currentDir).toString
  let mut survey : Survey := ⟨.withDirectory current, []⟩
  match Request.ofArguments arguments with
  | .error _ => return survey
  | .ok r =>
    for path in Manifest.candidates env ++ r.files.map String.toList do
      survey := (← survey.walkPath path).1
    let manifest := (Manifest.load env survey.tree (r.config.map String.toList)).result
    for path in (manifest.toOption.map Manifest.technologyPaths).getD [] do
      let (s, place) ← survey.walkPath path.toList
      survey ← s.walkBelow place
    return survey

end Survey

/-- Writes the files that are in the second tree only, or with another content. -/
def writeChanges (before after : FileTree) : IO Unit := do
  for (place, node) in after.nodes do
    if before.node? place ≠ some node then
      match node with
      | .file content => IO.FS.writeBinFile (String.ofList (FileTree.pathOf place)) content
      | _ => pure ()

end LayoutTech.Command

open LayoutTech Command in
def main (arguments : List String) : IO UInt32 := do
  let values ← environmentVariables.filterMapM fun name => return (← IO.getEnv name).map fun value => (name, value)
  let env : Environment := .ofList values
  let survey ← Survey.ofMachine env arguments
  let outcome := run env survey.tree arguments
  writeChanges survey.tree outcome.tree
  IO.print outcome.output
  IO.eprint outcome.messages
  return outcome.code.toUInt32
