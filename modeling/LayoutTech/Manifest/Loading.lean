import LayoutTech.Fault
import LayoutTech.FileTree.Basic
import LayoutTech.Manifest.Document

/-!
# Finding the manifest

The manifest is the file that is asked for, or the first that exists of those that are looked for, or the
standard one. The environment has the last word on the collision policy.
-/

namespace LayoutTech

abbrev Environment := Table String

namespace Manifest

def pathVariable : String := "LYTECH_CONFIG_PATH"

def policyVariable : String := "LYTECH_COLLISION_POLICY"

/-- The home directory, if the environment names it. -/
def home? (env : Environment) : Option (List Char) :=
  (env.get? "HOME").bind fun home => if home.isEmpty then none else some home.toList

/-- The places to look for a manifest, in order. -/
def candidates (env : Environment) : List (List Char) :=
  ((env.get? pathVariable).map String.toList).toList ++ ["./lytech-config.yaml".toList] ++
    ((home? env).map fun home => Path.join (Path.join home ".lytech".toList) "config.yaml".toList).toList ++
    ["/etc/lytech/config.yaml".toList]

def discover? (env : Environment) (tree : FileTree) : Option (List Char) :=
  (candidates env).find? tree.holds

inductive LoadFault where
  | unreadable (path : String) (cause : FileFault)
  | unusable (path : String) (cause : TextFault)
deriving DecidableEq, Repr

def LoadFault.message : LoadFault → String
  | .unreadable path _ => "Failed to read config file " ++ Text.quotedPath path
  | .unusable path _ => "Failed to parse config file " ++ Text.quotedPath path

def LoadFault.cause : LoadFault → String
  | .unreadable _ cause => cause.message
  | .unusable _ cause => cause.message

def ofFile (tree : FileTree) (path : List Char) : Except LoadFault Manifest := do
  let text ← (tree.readText path).mapError (.unreadable (String.ofList path))
  (ofText text).mapError (.unusable (String.ofList path))

def withEnvironment {ε : Type} (m : Manifest) (env : Environment) : Traced ε Manifest :=
  match (env.get? policyVariable).map CollisionPolicy.ofText with
  | some (.ok collisionPolicy) => pure { m with collisionPolicy }
  | some (.error fault) => do
    .warn (badOverride fault)
    pure m
  | none => pure m

/-- The manifest that holds, from the file asked for if there is one. -/
def load (env : Environment) (tree : FileTree) (path : Option (List Char)) : Traced LoadFault Manifest := do
  let m ← .ofExcept (match path.or (discover? env tree) with
    | some path => ofFile tree path
    | none => .ok standard)
  m.withEnvironment env

end Manifest

end LayoutTech
