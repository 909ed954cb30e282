import LayoutTech.Text

/-!
# Log filters

A log filter is a row of directives with commas between them. A directive is a level, or a target or a span
with a level, which may be left out. Here a filter is only checked.
-/

namespace LayoutTech.LogFilter

inductive Fault where
  | directive
  | level
deriving DecidableEq, Repr

def Fault.message : Fault → String
  | .directive => "invalid filter directive"
  | .level =>
    "error parsing level filter: expected one of \"off\", \"error\", \"warn\", \"info\", \"debug\", " ++
      "\"trace\", or a number 0-5"

/-- What is behind the fault: a bad level is a fault of its own. -/
def Fault.causes : Fault → List String
  | .directive => []
  | .level => [Fault.message .level]

def levels : List String := ["off", "error", "warn", "info", "debug", "trace"]

/-- The text is a level: a name in any case of letters, a number up to five, or nothing. -/
def isLevel (cs : List Char) : Bool :=
  let digits := if cs.head? = some '+' then cs.drop 1 else cs
  cs.isEmpty || (levels.map String.toList).contains (cs.map Char.toLower) ||
    (!digits.isEmpty && digits.all Char.isDigit &&
      digits.foldl (fun n c => n * 10 + (c.toNat - '0'.toNat)) 0 ≤ 5)

/-- The characters that names start with; those outside of ASCII all count. -/
def startsName (c : Char) : Bool := c.isAlphanum || c = '-' || c = ':' || c = '_' || c.val ≥ 0x80

/-- What may follow a span: nothing, or a level. -/
def afterSpan : List Char → Except Fault Unit
  | [] => .ok ()
  | '=' :: level => if isLevel level then .ok () else .error .level
  | _ => .error .directive

/-- A span, after its opening bracket; it may have a field in braces. -/
def span (cs : List Char) : Except Fault Unit :=
  match cs.dropWhile fun c => c ≠ ']' && c ≠ '\x7b' with
  | ']' :: rest => afterSpan rest
  | _ :: fields =>
    let field := fields.takeWhile (· ≠ '\x7d')
    match fields.dropWhile (· ≠ '\x7d') with
    | _ :: ']' :: rest => if field.isEmpty then .error .directive else afterSpan rest
    | _ => .error .directive
  | [] => .error .directive

def directive (cs : List Char) : Except Fault Unit :=
  match cs with
  | [] => .error .directive
  | '[' :: rest => span rest
  | c :: _ =>
    if !startsName c then .error .directive
    else match cs.dropWhile fun c => c ≠ '=' && c ≠ '[' with
      | '=' :: level => if isLevel level then .ok () else .error .level
      | _ :: rest => span rest
      | [] => .ok ()

/-- Checks a filter; empty directives do not count. -/
def check (filter : String) : Except Fault Unit :=
  ((filter.toList.splitOn ',').filter (!·.isEmpty)).forM fun cs => directive (Text.trim cs)

end LayoutTech.LogFilter
