import LayoutTech.Command.Arguments
import LayoutTech.Command.Console
import LayoutTech.Command.Template
import LayoutTech.Manifest.Loading

/-!
# Commands for configurations
-/

namespace LayoutTech.Command

def loadFailure (fault : Manifest.LoadFault) : Failure :=
  ⟨"Failed to load configuration", [fault.message, fault.cause]⟩

namespace Configurations

open LayoutTech.Command.Action

def load (env : Environment) (path : Option String) : Action Manifest := do
  orFail (Manifest.load env (← tree) (path.map String.toList)).result loadFailure

def printPaths (env : Environment) (asked : Option String) : Action Unit := do
  writeLine "Configuration discovery paths:"
  writeLine ("  1. --config flag: " ++ asked.getD "(not set)")
  writeLine ("  2. LYTECH_CONFIG_PATH: " ++ (env.get? Manifest.pathVariable).getD "(not set)")
  writeLine "  3. ./lytech-config.yaml"
  writeLine "  4. ~/.lytech/config.yaml"
  writeLine "  5. /etc/lytech/config.yaml"
  writeLine

def print (env : Environment) (asked : Option String) (withPaths : Bool) : Action Unit := do
  let m ← load env asked
  if withPaths then printPaths env asked
  writeLine "Current configuration:"
  writeLine s!"  Name: {m.name}"
  m.version.forM fun version => writeLine s!"  Version: {version}"
  writeLine
  writeLine "Technology Paths:"
  if m.technologyPaths.isEmpty then writeLine "  (none)"
  let tree ← tree
  m.technologyPaths.forM fun path =>
    writeLine (s!"  - {path}" ++ if tree.isDirectory path.toList then "" else " (missing)")
  writeLine
  writeLine "Import:"
  writeLine s!"  Collision policy: {m.collisionPolicy.title}"
  writeLine
  writeLine "Logging:"
  writeLine ("  Level: " ++ m.logLevel?.getD "(default)")
  writeLine

def validate (env : Environment) (path : Option String) : Action Unit := do
  writeLine "Validating configuration..."
  let m ← load env path
  match m.invalid? with
  | some invalid => throw ⟨"Configuration validation failed", [invalid.message]⟩
  | none => writeLine "✓ Configuration is valid"

def generate (path : String) (withExamples : Bool) : Action Unit := do
  let sample := if withExamples then Template.withExamples else Template.minimal
  writeFile path sample ("Failed to write config to " ++ Text.quotedPath path)
  writeLine s!"✓ Configuration generated: {path}"

def run (env : Environment) (asked : Option String) : ConfigurationTask → Action Unit
  | .print withPaths => print env asked withPaths
  | .validate file => validate env (file.or asked)
  | .generate output withExamples => generate output withExamples

end Configurations

end LayoutTech.Command
