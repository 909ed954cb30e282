/-!
# The characters of a YAML text

A YAML text is read as a row of characters that know their line and column. Line ends are the same
whichever way they are written, and the row ends in a NUL, which no text contains.
-/

namespace LayoutTech.Yaml

/-- A place in a text; lines and columns are counted from zero. -/
structure Mark where
  line : Nat := 0
  column : Nat := 0
deriving DecidableEq, Repr

/-- The place as people count; the very first place is left unsaid. -/
def Mark.tail (m : Mark) : String :=
  if m = {} then "" else s!" at line {m.line + 1} column {m.column + 1}"

inductive Flaw where
  | character
  | token
  | indentation
  | tabInIndentation
  | entryNotAllowed
  | keyNotAllowed
  | valueNotAllowed
  | keyWithoutValue
  | emptyName
  | tag
  | undefinedTagHandle
  | directive
  | blockScalarHeader
  | escape
  | cutOff
  | colonInFlow
  | content
  | endOfCollection
  | documentStart
  | severalDocuments
  | unknownAlias
deriving DecidableEq, Repr

def Flaw.sentence : Flaw → String
  | .character => "control characters are not allowed"
  | .token => "found character that cannot start any token"
  | .indentation => "did not find expected indentation"
  | .tabInIndentation => "found a tab character where an indentation space is expected"
  | .entryNotAllowed => "block sequence entries are not allowed in this context"
  | .keyNotAllowed => "mapping keys are not allowed in this context"
  | .valueNotAllowed => "mapping values are not allowed in this context"
  | .keyWithoutValue => "could not find expected ':'"
  | .emptyName => "did not find expected alphabetic or numeric character"
  | .tag => "did not find expected tag"
  | .undefinedTagHandle => "found undefined tag handle"
  | .directive => "found a directive that cannot be used"
  | .blockScalarHeader => "did not find expected comment or line break"
  | .escape => "found unknown escape character"
  | .cutOff => "found unexpected end of stream"
  | .colonInFlow => "found unexpected ':'"
  | .content => "did not find expected node content"
  | .endOfCollection => "did not find expected end of collection"
  | .documentStart => "did not find expected <document start>"
  | .severalDocuments => "deserializing from YAML containing more than one document is not supported"
  | .unknownAlias => "unknown anchor"

structure SyntaxFault where
  flaw : Flaw
  mark : Mark
deriving DecidableEq, Repr

def SyntaxFault.message (f : SyntaxFault) : String := f.flaw.sentence ++ f.mark.tail

structure Located where
  char : Char
  mark : Mark
deriving DecidableEq, Repr

abbrev Source := List Located

def isBlank (c : Char) : Bool := c = ' ' || c = '\t'

def isBreak (c : Char) : Bool := c = '\n' || c = '\u2028' || c = '\u2029'

def isEnd (c : Char) : Bool := c = '\x00'

def isBreakOrEnd (c : Char) : Bool := isBreak c || isEnd c

def isBlankOrEnd (c : Char) : Bool := isBlank c || isBreakOrEnd c

def isNameChar (c : Char) : Bool := c.isAlphanum || c = '_' || c = '-'

/-- The characters that a YAML text may contain. -/
def isAllowed (c : Char) : Bool :=
  c = '\t' || c = '\n' || c = '\r' || (' ' ≤ c && c ≤ '~') || c = '\u0085' ||
    (0xA0 ≤ c.val && c.val ≤ 0xD7FF) || (0xE000 ≤ c.val && c.val ≤ 0xFFFD && c.val != 0xFEFF) ||
    0x10000 ≤ c.val

/-- The text with every line end written as a line feed. -/
def withLineFeeds : List Char → List Char
  | '\r' :: '\n' :: cs => '\n' :: withLineFeeds cs
  | c :: cs => (if c = '\r' ∨ c = '\u0085' then '\n' else c) :: withLineFeeds cs
  | [] => []

/-- The characters with their places, from the mark on. -/
def located (mark : Mark) : List Char → Source
  | [] => [⟨'\x00', mark⟩]
  | c :: cs =>
    ⟨c, mark⟩ :: located (if isBreak c then ⟨mark.line + 1, 0⟩ else ⟨mark.line, mark.column + 1⟩) cs

namespace Source

/-- The characters of a text; a byte order mark at its start does not count. -/
def ofText (text : List Char) : Except SyntaxFault Source :=
  let text := if text.head? = some '\ufeff' then text.tail else text
  match (located {} text).find? fun c => !isAllowed c.char && !isEnd c.char with
  | some bad => .error ⟨.character, bad.mark⟩
  | none => if text.contains '\x00' then .error ⟨.character, {}⟩ else .ok (located {} (withLineFeeds text))

/-- The character so many places ahead. -/
def peek (s : Source) (ahead : Nat := 0) : Char := (s[ahead]?.map Located.char).getD '\x00'

def mark (s : Source) : Mark := (s.head?.map Located.mark).getD {}

/-- The characters that satisfy the test, from here on, and what follows them. -/
def takeWhile (s : Source) (test : Char → Bool) : List Char × Source :=
  ((List.takeWhile (test ·.char) s).map Located.char, List.dropWhile (test ·.char) s)

def afterBlanks (s : Source) : Source := List.dropWhile (isBlank ·.char) s

/-- What follows a comment, if one starts here. -/
def afterComment (s : Source) : Source :=
  if s.peek = '#' then List.dropWhile (!isBreakOrEnd ·.char) s else s

/-- The line after blanks and a comment, if nothing else is left in this one. -/
def nextLine? (s : Source) : Option Source :=
  let left := s.afterBlanks.afterComment
  if isBreak left.peek then some (left.drop 1) else if isEnd left.peek then some left else none

/-- A marker of documents stands at the start of this line. -/
def atMarker (s : Source) : Bool :=
  s.mark.column == 0 && (s.peek = '-' || s.peek = '.') && s.peek 1 = s.peek && s.peek 2 = s.peek &&
    isBlankOrEnd (s.peek 3)

/-- What follows blanks, comments and line breaks up to the next token. Outside of brackets, a line break
allows a key to start, and then a tab is not a blank. -/
def toToken (inFlow keyAllowed inComment : Bool) : Source → Source × Bool
  | [] => ([], keyAllowed)
  | c :: cs =>
    if isBreak c.char then toToken inFlow (keyAllowed || !inFlow) false cs
    else if inComment && !isEnd c.char then toToken inFlow keyAllowed true cs
    else if c.char = ' ' || (c.char = '\t' && (inFlow || !keyAllowed)) then toToken inFlow keyAllowed false cs
    else if c.char = '#' then toToken inFlow keyAllowed true cs
    else (c :: cs, keyAllowed)

end Source

end LayoutTech.Yaml
