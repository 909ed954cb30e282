import LayoutTech.Text
import LayoutTech.Yaml.Atom

/-!
# Writing YAML

Texts, lists of texts and mappings are written in block style. A text is written without quotes where it
reads back as the same text, over several lines where it has several, and else in the quotes that it needs.
Lines are not folded.
-/

namespace LayoutTech.Yaml

inductive Outline where
  | text (text : String)
  | texts (texts : List String)
  | mapping (fields : List (String × Outline))

/-- What can be said about the characters of a text. -/
structure Traits where
  /-- It starts with a space or a line break, or ends in one. -/
  hasOuterSpace : Bool
  endsInSpace : Bool
  hasBreaks : Bool
  /-- A space stands right after a line break. -/
  hasSpaceAfterBreak : Bool
  /-- A line break stands right after a space. -/
  hasBreakAfterSpace : Bool
  /-- Some character can only be written as an escape. -/
  needsEscapes : Bool
  /-- It has something in it that would be read as structure. -/
  hasIndicators : Bool

namespace Traits

/-- A character that ends lines, in one of the ways there are. -/
def isLineEnd (c : Char) : Bool := isBreak c || c = '\r' || c = '\u0085'

/-- A character that can be written as it is. -/
def isPrintable (c : Char) : Bool :=
  c = '\n' || (' ' ≤ c && c ≤ '~') || (0xA0 ≤ c.val && c.val ≤ 0xD7FF) ||
    (0xE000 ≤ c.val && c.val ≤ 0xFFFD && c.val != 0xFEFF) || 0x10000 ≤ c.val

/-- A text may not start with one of these, unless it is quoted. -/
def startIndicators : List Char :=
  ['#', ',', '[', ']', '\x7b', '\x7d', '&', '*', '!', '|', '>', '\'', '"', '%', '@', '`']

/-- What follows is a blank, a line end or nothing. -/
def standsAlone (rest : List Char) : Bool :=
  rest.head?.all fun c => isBlankOrEnd c || isLineEnd c

/-- Two neighbours of which each satisfies its test. -/
def hasPair (first second : Char → Bool) (cs : List Char) : Bool :=
  (cs.zip (cs.drop 1)).any fun (a, b) => first a && second b

/-- A `:` or a `#` after the start that would be read as structure; `before` comes before the text. -/
def hasInnerIndicator (before : Char) : List Char → Bool
  | [] => false
  | c :: cs =>
    (c = ':' && standsAlone cs) || (c = '#' && (isBlankOrEnd before || isLineEnd before)) ||
      hasInnerIndicator c cs

/-- The text would be read as structure, or as something that starts with structure. -/
def isStructure : List Char → Bool
  | [] => false
  | c :: cs =>
    startIndicators.contains c || ((c = '?' || c = ':' || c = '-') && standsAlone cs) ||
      ['-', '-', '-'].isPrefixOf (c :: cs) || ['.', '.', '.'].isPrefixOf (c :: cs) ||
      hasInnerIndicator c cs

def of (cs : List Char) : Traits where
  hasOuterSpace := [cs.head?, cs.getLast?].any fun c => c.any fun c => c = ' ' || isLineEnd c
  endsInSpace := cs.getLast? = some ' '
  hasBreaks := cs.any isLineEnd
  hasSpaceAfterBreak := hasPair isLineEnd (· = ' ') cs
  hasBreakAfterSpace := hasPair (· = ' ') isLineEnd cs
  needsEscapes := cs.any fun c => !isPrintable c
  hasIndicators := isStructure cs

def allowsPlain (t : Traits) : Bool :=
  !t.hasOuterSpace && !t.hasBreaks && !t.hasBreakAfterSpace && !t.needsEscapes && !t.hasIndicators

def allowsSingle (t : Traits) : Bool := !t.hasSpaceAfterBreak && !t.hasBreakAfterSpace && !t.needsEscapes

def allowsLiteral (t : Traits) : Bool := !t.endsInSpace && !t.hasBreakAfterSpace && !t.needsEscapes

end Traits

namespace Outline

/-- The style in which a text is written; a text with line feeds gets lines of its own if it may. -/
def styleOf (cs : List Char) : ScalarStyle :=
  let traits := Traits.of cs
  let isText := Atom.ofPlain (String.ofList cs) = .text (String.ofList cs) && !Atom.isPaddedDigits cs
  if cs.contains '\n' then if traits.allowsLiteral then .literal else .doubleQuoted
  else if isText && traits.allowsPlain then .plain
  else if traits.allowsSingle then .singleQuoted
  else .doubleQuoted

def spaces (count : Nat) : List Char := List.replicate count ' '

/-- The text with an indentation after each line break, except before another one. -/
def indented (column : Nat) (each : Char → List Char) (afterBreak : Bool) : List Char → List Char
  | [] => []
  | c :: cs =>
    if isBreak c then c :: indented column each true cs
    else (if afterBreak then spaces column else []) ++ each c ++ indented column each false cs

/-- The text in single quotes, a quote in it written twice. -/
def singleQuoted (column : Nat) (cs : List Char) : List Char :=
  let inside := indented column (fun c => if c = '\'' then ['\'', '\''] else [c]) false cs
  ['\''] ++ inside ++ (if cs.getLast?.any isBreak then spaces column else []) ++ ['\'']

def hexDigits (count n : Nat) : List Char :=
  let digits := (Nat.toDigits 16 n).map Char.toUpper
  List.replicate (count - digits.length) '0' ++ digits

def escaped (c : Char) : List Char :=
  match c with
  | '\x00' => ['\\', '0']
  | '\x07' => ['\\', 'a']
  | '\x08' => ['\\', 'b']
  | '\t' => ['\\', 't']
  | '\n' => ['\\', 'n']
  | '\x0b' => ['\\', 'v']
  | '\x0c' => ['\\', 'f']
  | '\r' => ['\\', 'r']
  | '\x1b' => ['\\', 'e']
  | '"' => ['\\', '"']
  | '\\' => ['\\', '\\']
  | '\u0085' => ['\\', 'N']
  | '\u00a0' => ['\\', '_']
  | '\u2028' => ['\\', 'L']
  | '\u2029' => ['\\', 'P']
  | _ =>
    if c.val ≤ 0xFF then ['\\', 'x'] ++ hexDigits 2 c.toNat
    else if c.val ≤ 0xFFFF then ['\\', 'u'] ++ hexDigits 4 c.toNat
    else ['\\', 'U'] ++ hexDigits 8 c.toNat

def doubleQuoted (cs : List Char) : List Char :=
  ['"'] ++ cs.flatMap (fun c =>
    if Traits.isPrintable c && !Traits.isLineEnd c && c ≠ '"' && c ≠ '\\' then [c] else escaped c) ++ ['"']

/-- What the header of a literal text says about the line breaks at its end. -/
def chompingOf (cs : List Char) : List Char :=
  match cs.reverse with
  | a :: b :: _ => if !Traits.isLineEnd a then ['-'] else if Traits.isLineEnd b then ['+'] else []
  | [a] => if Traits.isLineEnd a then ['+'] else ['-']
  | [] => ['-']

/-- The header of a literal text; where the text starts with a space the header says the indentation. -/
def literalHeader (cs : List Char) : List Char :=
  ['|'] ++ (if cs.head?.any fun c => c = ' ' || Traits.isLineEnd c then ['2'] else []) ++ chompingOf cs

def literal (column : Nat) (cs : List Char) : List Char :=
  literalHeader cs ++ '\n' :: indented column (fun c => [c]) true cs

def closed (cs : List Char) : List Char := if cs.getLast?.any isBreak then cs else cs ++ ['\n']

/-- A text as it is written in a collection whose entries stand at the column. -/
def scalar (column : Nat) (text : String) : List Char :=
  let cs := text.toList
  match styleOf cs with
  | .plain => cs
  | .singleQuoted => singleQuoted (column + 2) cs
  | .literal => literal (column + 2) cs
  | _ => doubleQuoted cs

/-- The longest key, in bytes, that is written on the line of its value. -/
def maxSimpleKey : Nat := 128

/-- A key with its `:`; a long key, or one of several lines, is announced by a `?`. -/
def key (column : Nat) (name : String) : List Char :=
  let cs := name.toList
  if cs.any Traits.isLineEnd || Text.byteLength cs > maxSimpleKey then
    ['?', ' '] ++ closed (scalar column name) ++ spaces column ++ [':']
  else scalar column name ++ [':']

mutual

/-- What follows the `:` of a field whose mapping stands at the column. -/
def value (column : Nat) : Outline → List Char
  | .text line => ' ' :: closed (scalar column line)
  | .texts [] => " []\n".toList
  | .texts lines => '\n' :: lines.flatMap fun line => spaces column ++ ['-', ' '] ++ closed (scalar column line)
  | .mapping [] => " \x7b\x7d\n".toList
  | .mapping fields => '\n' :: entries (column + 2) fields

/-- The fields of a mapping that stands at the column. -/
def entries (column : Nat) : List (String × Outline) → List Char
  | [] => []
  | (name, field) :: rest => spaces column ++ key column name ++ value column field ++ entries column rest

end

def document (fields : List (String × Outline)) : String := String.ofList (entries 0 fields)

end Outline

end LayoutTech.Yaml
