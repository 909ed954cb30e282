/-!
# Arguments

The command line is a tree of commands; each has options and parameters of its own. An option that takes a
value has it in the next argument or in the same one; after `--` there are parameters only.
-/

namespace LayoutTech.Command

inductive Flag where
  | config
  | logLevel
  | output
  | xml
  | paths
  | examples
deriving DecidableEq, Repr

namespace Flag

def long : Flag → String
  | .config => "config"
  | .logLevel => "log-level"
  | .output => "output"
  | .xml => "xml"
  | .paths => "paths"
  | .examples => "examples"

def short? : Flag → Option Char
  | .config => some 'c'
  | .output => some 'o'
  | _ => none

def takesValue : Flag → Bool
  | .config | .logLevel | .output => true
  | _ => false

/-- The value is the path of a file, which cannot be empty. -/
def takesPath : Flag → Bool
  | .config | .output => true
  | _ => false

end Flag

/-- A parameter: whether it is a path, which cannot be empty, and whether it has to be there. -/
structure Parameter where
  isPath : Bool
  isRequired : Bool

/-- A command: the names on the way to it, its options beside those that every command has, and its
parameters or the commands below it. -/
structure Level where
  names : List String
  flags : List Flag := []
  parameters : List Parameter := []
  children : List String := []

namespace Level

def commonFlags : List Flag := [.config, .logLevel]

def allFlags (l : Level) : List Flag := commonFlags ++ l.flags

def top : Level := { names := ["lytech"], children := ["tech", "config"] }

def child (l : Level) (name : String) : Level :=
  let names := l.names ++ [name]
  match names.drop 1 with
  | ["tech"] => { names, children := ["list", "show", "export", "validate", "import"] }
  | ["config"] => { names, children := ["show", "validate", "generate"] }
  | ["tech", "show"] => { names, flags := [.xml], parameters := [⟨false, true⟩] }
  | ["tech", "export"] => { names, flags := [.output] }
  | ["tech", "validate"] => { names, parameters := [⟨true, true⟩] }
  | ["tech", "import"] => { names, flags := [.output], parameters := [⟨true, true⟩] }
  | ["config", "show"] => { names, flags := [.paths] }
  | ["config", "validate"] => { names, parameters := [⟨true, false⟩] }
  | ["config", "generate"] => { names, flags := [.output, .examples] }
  | _ => { names }

end Level

/-- Why arguments are not carried out: the version or help was asked for, or they are wrong. -/
inductive Stop where
  | version (names : List String)
  | help (names : List String)
  | misuse
deriving DecidableEq, Repr

structure Seen where
  values : List (Flag × String) := []
  parameters : List String := []
  /-- The option whose value comes next. -/
  pending : Option Flag := none
  onlyParameters : Bool := false

namespace Seen

def addValue (s : Seen) (flag : Flag) (value : String) : Except Stop Seen :=
  if (s.values.lookup flag).isSome || (flag.takesPath && value.isEmpty) then .error .misuse
  else .ok { s with values := (flag, value) :: s.values, pending := none }

def addFlag (s : Seen) (flag : Flag) (value : Option String) : Except Stop Seen :=
  match flag.takesValue, value with
  | true, some value => s.addValue flag value
  | true, none => .ok { s with pending := some flag }
  | false, none => s.addValue flag ""
  | false, some _ => .error .misuse

/-- One more parameter, if the command has so many. -/
def addParameter (s : Seen) (l : Level) (value : String) : Except Stop Seen :=
  match l.parameters[s.parameters.length]? with
  | some p =>
    if p.isPath && value.isEmpty then .error .misuse else .ok { s with parameters := s.parameters ++ [value] }
  | none => .error .misuse

/-- An argument that starts with two dashes; `body` follows them. -/
def addLong (s : Seen) (l : Level) (body : List Char) : Except Stop Seen :=
  let name := String.ofList (body.takeWhile (· ≠ '='))
  let value := match body.dropWhile (· ≠ '=') with
    | [] => none
    | _ :: value => some (String.ofList value)
  if s.pending.isSome then .error .misuse
  else if name = "help" && value.isNone then .error (.help l.names)
  else if name = "version" && value.isNone then .error (.version l.names)
  else match l.allFlags.find? (·.long = name) with
    | some flag => s.addFlag flag value
    | none => .error .misuse

/-- An argument that starts with one dash; the letter and what follows it. -/
def addShort (s : Seen) (l : Level) (letter : Char) (rest : List Char) : Except Stop Seen :=
  if s.pending.isSome then .error .misuse
  else if letter = 'h' then .error (.help l.names)
  else if letter = 'V' then .error (.version l.names)
  else match l.allFlags.find? (·.short? = some letter) with
    | some flag =>
      match rest with
      | [] => s.addFlag flag none
      | '=' :: value => s.addFlag flag (some (String.ofList value))
      | value => s.addFlag flag (some (String.ofList value))
    | none => .error .misuse

def add (s : Seen) (l : Level) (argument : String) : Except Stop Seen :=
  if s.onlyParameters then s.addParameter l argument
  else match argument.toList, s.pending with
    | ['-', '-'], none => .ok { s with onlyParameters := true }
    | ['-', '-'], some _ => .error .misuse
    | '-' :: '-' :: body, _ => s.addLong l body
    | '-' :: letter :: rest, _ => s.addShort l letter rest
    | _, some flag => s.addValue flag argument
    | _, none => s.addParameter l argument

end Seen

namespace Level

/-- What asking for help on a command leads to; the names have to be those of commands. -/
def helpOn (l : Level) : List String → Stop
  | [] => .help l.names
  | name :: rest => if name ∈ l.children then helpOn (l.child name) rest else .misuse

/-- Reads the arguments of a command, up to the name of a command below it. -/
def read (l : Level) (s : Seen) : List String → Except Stop (Seen × Option (String × List String))
  | [] => if s.pending.isSome then .error .misuse else .ok (s, none)
  | argument :: rest =>
    if !s.onlyParameters && s.pending.isNone && !l.children.isEmpty && argument = "help" then
      .error (l.helpOn rest)
    else if !s.onlyParameters && s.pending.isNone && l.children.contains argument then
      .ok (s, some (argument, rest))
    else do read l (← s.add l argument) rest

end Level

inductive TechnologyTask where
  | list
  | print (name : String) (asXml : Bool)
  | exportAll (output : Option String)
  | validate (file : String)
  | importFrom (file : String) (output : Option String)
deriving DecidableEq, Repr

inductive ConfigurationTask where
  | print (withPaths : Bool)
  | validate (file : Option String)
  | generate (output : String) (withExamples : Bool)
deriving DecidableEq, Repr

inductive Task where
  | technology (task : TechnologyTask)
  | configuration (task : ConfigurationTask)
deriving DecidableEq, Repr

structure Request where
  config : Option String
  logLevel : Option String
  task : Option Task
deriving DecidableEq, Repr

def taskOf (l : Level) (s : Seen) : Option Task :=
  let output := s.values.lookup .output
  let has (flag : Flag) : Bool := (s.values.lookup flag).isSome
  match l.names.drop 1, s.parameters with
  | ["tech", "list"], [] => some (.technology .list)
  | ["tech", "show"], [name] => some (.technology (.print name (has .xml)))
  | ["tech", "export"], [] => some (.technology (.exportAll output))
  | ["tech", "validate"], [file] => some (.technology (.validate file))
  | ["tech", "import"], [file] => some (.technology (.importFrom file output))
  | ["config", "show"], [] => some (.configuration (.print (has .paths)))
  | ["config", "validate"], files => some (.configuration (.validate files.head?))
  | ["config", "generate"], [] =>
    some (.configuration (.generate (output.getD "./lytech-config.yaml") (has .examples)))
  | _, _ => none

/-- The request that arguments make. An option of all commands counts where it stands deepest. -/
def Request.ofArguments (arguments : List String) : Except Stop Request := do
  let (first, next) ← Level.top.read {} arguments
  match next with
  | none => pure ⟨first.values.lookup .config, first.values.lookup .logLevel, none⟩
  | some (name, arguments) =>
    let group := Level.top.child name
    let (second, next) ← group.read {} arguments
    match next with
    | none => throw .misuse
    | some (name, arguments) =>
      let command := group.child name
      let (third, _) ← command.read {} arguments
      let values := third.values ++ second.values ++ first.values
      match taskOf command third with
      | some task => pure ⟨values.lookup .config, values.lookup .logLevel, some task⟩
      | none => throw .misuse

end LayoutTech.Command
