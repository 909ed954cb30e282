import LayoutTech.Command.Configurations
import LayoutTech.Command.LogFilter
import LayoutTech.Command.Technologies

/-!
# The program

A run takes arguments, an environment and a file tree, and leaves an exit code, what was written and the file
tree after it. The configuration is loaded before anything is done, because how to log depends on it; that it
cannot be loaded matters only to the commands that need it.
-/

namespace LayoutTech.Command

structure Outcome where
  code : Nat
  output : String
  messages : String
  tree : FileTree

def version : String := "0.1.0"

def usage (names : List String) : String := "Usage: " ++ " ".intercalate names ++ " [OPTIONS] [COMMAND]\n"

def defaultLogLevel : String := "warn"

/-- Checks the log filter: the environment's if it is one, and else the level. -/
def checkLogging (env : Environment) (level : String) : Except LogFilter.Fault Unit :=
  match (env.get? "RUST_LOG").map LogFilter.check with
  | some (.ok ()) => .ok ()
  | _ => LogFilter.check level

def Request.run (r : Request) (env : Environment) : Action Nat := do
  let loaded := (Manifest.load env (← Action.tree) (r.config.map String.toList)).result
  let level := (r.logLevel.or (env.get? "LYTECH_LOG_LEVEL")).or (loaded.toOption.bind Manifest.logLevel?)
  Action.orFail (checkLogging env (level.getD defaultLogLevel)) fun fault =>
    ⟨"Failed to create log filter", fault.message :: fault.causes⟩
  match r.task with
  | some (.technology task) => do
    let m ← Action.orFail loaded loadFailure
    Technologies.run m task
    pure 0
  | some (.configuration task) => do
    Configurations.run env r.config task
    pure 0
  | none => do
    Action.tell "No command specified. Use --help for usage."
    pure 1

def run (env : Environment) (tree : FileTree) (arguments : List String) : Outcome :=
  match Request.ofArguments arguments with
  | .error (.version names) => ⟨0, "-".intercalate names ++ " " ++ version ++ "\n", "", tree⟩
  | .error (.help names) => ⟨0, usage names, "", tree⟩
  | .error .misuse => ⟨2, "", usage Level.top.names, tree⟩
  | .ok request =>
    match (request.run env).run.run { tree } with
    | (.ok code, c) => ⟨code, c.output, c.messages, c.tree⟩
    | (.error failure, c) => ⟨1, c.output, c.messages ++ failure.report, c.tree⟩

end LayoutTech.Command
