import LayoutTech.Manifest.Basic
import LayoutTech.Registry.Basic

/-!
# The registry of a process

A process has one registry of its own. It comes to be empty when it is first asked for, or before
that, once, from a manifest.
-/

namespace LayoutTech

namespace Registry

/-- The registry that a manifest describes, without technologies. -/
def ofManifest (m : Manifest) : Registry := { policy := m.collisionPolicy }

end Registry

/-- The registry of a process, if it has come to be. -/
structure SharedRegistry where
  registry? : Option Registry := none

namespace SharedRegistry

/-- The process has its registry already. -/
structure AlreadyStarted where

def AlreadyStarted.message (_ : AlreadyStarted) : String :=
  "The global technology registry is already initialized"

def registry (p : SharedRegistry) : Registry := p.registry?.getD {}

def withRegistry (p : SharedRegistry) : SharedRegistry := ⟨some p.registry⟩

def start (p : SharedRegistry) (m : Manifest) (tree : FileTree) : Traced Fault (Except AlreadyStarted SharedRegistry) :=
  match p.registry? with
  | some _ => pure (.error {})
  | none => do
    let (registry, _) ← (Registry.ofManifest m).loadPaths tree (m.technologyPaths.map String.toList)
    pure (.ok ⟨some registry⟩)

end SharedRegistry

end LayoutTech
