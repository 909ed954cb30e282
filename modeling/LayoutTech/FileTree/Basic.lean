import LayoutTech.Fault
import LayoutTech.Path

/-!
# File trees

A tree of directories, files and symbolic links, and a working directory in it. A path is followed
name by name; a link is followed by following its target from where the link is.
-/

namespace LayoutTech

/-- A place in a tree: the names on the way to it from the root. -/
abbrev Place := List (List Char)

inductive Node where
  | file (content : ByteArray)
  | directory
  | link (target : List Char)

-- equality of contents is that of the core library, whatever else is imported
instance : DecidableEq Node
  | .file a, .file b => @decidable_of_iff _ (a = b) (by rw [Node.file.injEq]) (ByteArray.instDecidableEq a b)
  | .directory, .directory => isTrue rfl
  | .link a, .link b => decidable_of_iff (a = b) (by rw [Node.link.injEq])
  | .file _, .directory | .file _, .link _ => isFalse nofun
  | .directory, .file _ | .directory, .link _ => isFalse nofun
  | .link _, .file _ | .link _, .directory => isFalse nofun

/-- The nodes of a tree by place, and the working directory. -/
structure FileTree where
  nodes : List (Place × Node)
  current : Place

namespace FileTree

/-- Where a path led: to a node, or to a place in a directory where nothing is. A path that ends in a
slash is not content with a place where nothing is. -/
inductive Found where
  | at (place : Place) (node : Node)
  | free (place : Place)
  | missingDirectory

/-- What is at the place; the root is a directory. -/
def node? (tree : FileTree) (place : Place) : Option Node :=
  if place.isEmpty then some .directory else tree.nodes.lookup place

def foundAt (tree : FileTree) (place : Place) : Found :=
  match tree.node? place with
  | some node => .at place node
  | none => .free place

/-- No more links than this are followed on one path. -/
def maxLinks : Nat := 40

/-- No name has more bytes than this. -/
def maxName : Nat := 255

/-- No path has more bytes than this. -/
def maxPath : Nat := 4095

/-- Follows names from a place. A link at the very end is followed only if `through` says so; `links` is
the number of links that may still be followed. -/
def follow (tree : FileTree) (through : Bool) (links : Nat) (place : Place) :
    List (List Char) → Except FileFault Found
  | [] => .ok (tree.foundAt place)
  | name :: rest =>
    match tree.node? place with
    | some .directory =>
      if name.isEmpty ∨ name = ['.'] then follow tree through links place rest
      else if name = ['.', '.'] then follow tree through links place.dropLast rest
      else if Text.byteLength name > maxName then .error .nameTooLong
      else match tree.node? (place ++ [name]) with
        | some (.link target) =>
          if rest.isEmpty && !through then .ok (.at (place ++ [name]) (.link target))
          else match links with
            | 0 => .error .tooManyLinks
            | left + 1 =>
              follow tree through left (if Path.isRooted target then [] else place)
                (target.splitOn '/' ++ rest)
        | some _ => follow tree through links (place ++ [name]) rest
        | none =>
          if rest.isEmpty then .ok (.free (place ++ [name]))
          else if rest.all List.isEmpty then .ok .missingDirectory
          else .error .notFound
    | _ => .error .notADirectory
  termination_by names => (links, names.length)

def find (tree : FileTree) (through : Bool) (path : List Char) : Except FileFault Found :=
  if path.isEmpty then .error .notFound
  else if path.contains '\x00' then .error .nullInPath
  else if Text.byteLength path > maxPath then .error .nameTooLong
  else tree.follow through maxLinks (if Path.isRooted path then [] else tree.current) (path.splitOn '/')

def lookup (tree : FileTree) (path : List Char) : Except FileFault (Place × Node) :=
  match tree.find true path with
  | .ok (.at place node) => .ok (place, node)
  | .ok (.free _) => .error .notFound
  | .ok .missingDirectory => .error .notFound
  | .error fault => .error fault

def holds (tree : FileTree) (path : List Char) : Bool := (tree.lookup path).isOk

def isDirectory (tree : FileTree) (path : List Char) : Bool :=
  match tree.lookup path with
  | .ok (_, .directory) => true
  | _ => false

def readText (tree : FileTree) (path : List Char) : Except FileFault String :=
  match tree.lookup path with
  | .ok (_, .file content) =>
    match String.fromUTF8? content with
    | some text => .ok text
    | none => .error .notText
  | .ok _ => .error .isADirectory
  | .error fault => .error fault

def put (tree : FileTree) (place : Place) (node : Node) : FileTree :=
  { tree with nodes := tree.nodes.filter (·.1 != place) ++ [(place, node)] }

/-- The tree with the text as the content of the file, which need not be there before. -/
def writeText (tree : FileTree) (path : List Char) (text : String) : Except FileFault FileTree :=
  match tree.find true path with
  | .ok (.at _ .directory) => .error .isADirectory
  | .ok (.at place _) => .ok (tree.put place (.file text.toUTF8))
  | .ok (.free place) => .ok (tree.put place (.file text.toUTF8))
  | .ok .missingDirectory => .error .isADirectory
  | .error fault => .error fault

def namesIn (tree : FileTree) (place : Place) : List (List Char) :=
  tree.nodes.filterMap fun (p, _) =>
    if p.dropLast = place then p.getLast? else none

def pathOf (place : Place) : List Char := (Path.Normal.mk true 0 place).toText

/-- The absolute path, in normal form, of a path in the tree. -/
def absolute (tree : FileTree) (path : List Char) : Path.Normal :=
  Path.normal (Path.join (pathOf tree.current) path)

def withDirectory (place : Place) : FileTree :=
  ⟨(List.range place.length).map fun n => (place.take (n + 1), .directory), place⟩

/-- The tree with a node at a path below the working directory, and the directories on the way. -/
def place (tree : FileTree) (path : List Char) (node : Node) : FileTree :=
  let names := (Path.normal path).names
  let parents := (List.range (names.length - 1)).map fun n => tree.current ++ names.take (n + 1)
  let withParents := parents.foldl (fun t p => if (t.node? p).isSome then t else t.put p .directory) tree
  withParents.put (tree.current ++ names) node

end FileTree

end LayoutTech
