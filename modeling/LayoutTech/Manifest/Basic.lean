import LayoutTech.Registry.Policy
import LayoutTech.Table
import LayoutTech.Warning

/-!
# Manifests

The configuration of a registry: what it is called, where its technologies are, what becomes of names
that are taken, and how to log.
-/

namespace LayoutTech

structure Logging where
  level : String := "info"
  format : String := "text"
deriving DecidableEq, Repr

structure Observability where
  logging : Option Logging
deriving DecidableEq, Repr

structure Manifest where
  apiVersion : String
  kind : String
  name : String
  version : Option String
  labels : Option (Table String)
  technologyPaths : List String
  collisionPolicy : CollisionPolicy
  observability : Option Observability
deriving DecidableEq

namespace Manifest

def formatVersion : String := "100monkeys.ai/v1"

def resourceKind : String := "RegistryConfig"

def standard : Manifest where
  apiVersion := formatVersion
  kind := resourceKind
  name := "lytech"
  version := some "1.0.0"
  labels := none
  technologyPaths := []
  collisionPolicy := .reject
  observability := none

instance : Inhabited Manifest := ⟨standard⟩

def logging? (m : Manifest) : Option Logging := m.observability.bind Observability.logging

def logLevel? (m : Manifest) : Option String := m.logging?.map Logging.level

inductive Invalid where
  | apiVersion (found : String)
  | kind (found : String)
  | emptyName
  | emptyPath
  | logFormat (found : String)
deriving DecidableEq, Repr

def Invalid.message : Invalid → String
  | .apiVersion found => s!"Invalid apiVersion: '{found}'. Must be '{formatVersion}'"
  | .kind found => s!"Invalid kind: '{found}'. Must be '{resourceKind}'"
  | .emptyName => "metadata.name cannot be empty"
  | .emptyPath => "spec.technology_paths cannot contain an empty path"
  | .logFormat found =>
    s!"Invalid spec.observability.logging.format: '{found}'. Must be 'text' or 'json'"

def invalid? (m : Manifest) : Option Invalid :=
  if m.apiVersion ≠ formatVersion then some (.apiVersion m.apiVersion)
  else if m.kind ≠ resourceKind then some (.kind m.kind)
  else if m.name = "" then some .emptyName
  else if "" ∈ m.technologyPaths then some .emptyPath
  else match m.logging? with
    | some logging =>
      if logging.format = "text" ∨ logging.format = "json" then none else some (.logFormat logging.format)
    | none => none

def badOverride (fault : CollisionPolicy.Fault) : Warning :=
  ⟨"Invalid value for LYTECH_COLLISION_POLICY: " ++ fault.message ++ ". Ignoring.", []⟩

end Manifest

end LayoutTech
