import LayoutTech.Yaml.Token.Block
import LayoutTech.Yaml.Token.Property

/-!
# The row of tokens

Outside of brackets indentation counts: a token that stands deeper than the collection around it opens one,
and one that stands less deep closes those deeper than itself. That a node is the key of a mapping shows
only when a `:` follows it on the same line; the tokens for that are put in front of it then.
-/

namespace LayoutTech.Yaml

/-- A place where a key may have started. -/
structure PossibleKey where
  /-- How many tokens are before it. -/
  before : Nat
  mark : Mark
  /-- Nothing but a key can stand there. -/
  required : Bool

structure Reading where
  rest : Source
  /-- The tokens so far, latest first. -/
  tokens : List Token := []
  /-- The columns of the open block collections, innermost first. -/
  columns : List Nat := []
  /-- The key that may have started at this level of brackets. -/
  key : Option PossibleKey := none
  /-- The same for the levels around this one, innermost first. -/
  outerKeys : List (Option PossibleKey) := []
  keyAllowed : Bool := true

namespace Reading

def maxKey : Nat := 1024

def inFlow (r : Reading) : Bool := !r.outerKeys.isEmpty

def mark (r : Reading) : Mark := r.rest.mark

/-- One more token, which leaves the rest. -/
def emit (r : Reading) (symbol : Symbol) (rest : Source) (stop : Mark := rest.mark) : Reading :=
  { r with rest, tokens := ⟨symbol, r.mark, stop⟩ :: r.tokens }

def emitIndicator (r : Reading) (symbol : Symbol) (length : Nat) : Reading := r.emit symbol (r.rest.drop length)

/-- A token put where a possible key starts. -/
def insertAt (r : Reading) (key : PossibleKey) (symbol : Symbol) : Reading :=
  let (after, before) := r.tokens.splitAt (r.tokens.length - key.before)
  { r with tokens := after ++ ⟨symbol, key.mark, key.mark⟩ :: before }

def dropKey (r : Reading) : Except SyntaxFault Reading :=
  match r.key with
  | some key => if key.required then .error ⟨.keyWithoutValue, r.mark⟩ else .ok { r with key := none }
  | none => .ok r

/-- A key may start here. -/
def markKey (r : Reading) : Except SyntaxFault Reading := do
  if r.keyAllowed then
    let r ← r.dropKey
    pure { r with key := some ⟨r.tokens.length, r.mark, !r.inFlow && r.columns.head? = some r.mark.column⟩ }
  else pure r

/-- The key is still one here: it has not gone over its line, nor grown too long. -/
def current? (here : Mark) (key : Option PossibleKey) : Except SyntaxFault (Option PossibleKey) :=
  match key with
  | none => .ok none
  | some k =>
    if k.mark.line < here.line || k.mark.column + maxKey < here.column then
      if k.required then .error ⟨.keyWithoutValue, here⟩ else .ok none
    else .ok (some k)

def dropPassedKeys (r : Reading) : Except SyntaxFault Reading := do
  let key ← current? r.mark r.key
  let outerKeys ← r.outerKeys.mapM (current? r.mark)
  pure { r with key, outerKeys }

/-- Closes the block collections deeper than the column, or all of them. -/
def closeDeeper (r : Reading) (column : Option Nat) (mark : Mark := r.mark) : Reading :=
  if r.inFlow then r
  else
    let isDeeper (open_ : Nat) : Bool := column.all (· < open_)
    { r with
      tokens := (r.columns.takeWhile isDeeper).map (fun _ => ⟨.blockEnd, mark, mark⟩) ++ r.tokens
      columns := r.columns.dropWhile isDeeper }

def isDeeper (r : Reading) (column : Nat) : Bool := !r.inFlow && r.columns.head?.all (· < column)

/-- Opens a block collection here, if this is deeper than the one around. -/
def openHere (r : Reading) (symbol : Symbol) : Reading :=
  if r.isDeeper r.mark.column then
    { r with columns := r.mark.column :: r.columns, tokens := ⟨symbol, r.mark, r.mark⟩ :: r.tokens }
  else r

def finish (r : Reading) : Except SyntaxFault Reading := do
  let mark := if r.mark.column = 0 then r.mark else ⟨r.mark.line + 1, 0⟩
  let r ← (r.closeDeeper none mark).dropKey
  pure { r with keyAllowed := false, tokens := ⟨.streamEnd, mark, mark⟩ :: r.tokens }

/-- A directive or a marker of documents: no collection goes beyond it. -/
def leaveDocument (r : Reading) : Except SyntaxFault Reading := do
  let r ← (r.closeDeeper none).dropKey
  pure { r with keyAllowed := false }

def openFlow (r : Reading) (symbol : Symbol) : Except SyntaxFault Reading := do
  let r ← r.markKey
  let r := r.emitIndicator symbol 1
  pure { r with key := none, outerKeys := r.key :: r.outerKeys, keyAllowed := true }

def closeFlow (r : Reading) (symbol : Symbol) : Except SyntaxFault Reading := do
  let r ← r.dropKey
  let r := match r.outerKeys with
    | key :: outerKeys => { r with key, outerKeys }
    | [] => r
  pure { r.emitIndicator symbol 1 with keyAllowed := false }

def divideFlow (r : Reading) : Except SyntaxFault Reading := do
  let r ← r.dropKey
  pure { r.emitIndicator .flowEntry 1 with keyAllowed := true }

def readEntry (r : Reading) : Except SyntaxFault Reading := do
  if !r.inFlow && !r.keyAllowed then throw ⟨.entryNotAllowed, r.mark⟩
  let r ← (r.openHere .sequenceStart).dropKey
  pure { r.emitIndicator .entry 1 with keyAllowed := true }

def readKey (r : Reading) : Except SyntaxFault Reading := do
  if !r.inFlow && !r.keyAllowed then throw ⟨.keyNotAllowed, r.mark⟩
  let r ← (r.openHere .mappingStart).dropKey
  pure { r.emitIndicator .key 1 with keyAllowed := !r.inFlow }

/-- A `:` before a value. -/
def readValue (r : Reading) : Except SyntaxFault Reading := do
  match ← current? r.mark r.key with
  | some key =>
    let r := r.insertAt key .key
    let r := if r.isDeeper key.mark.column then
        { r.insertAt key .mappingStart with columns := key.mark.column :: r.columns }
      else r
    pure { r.emitIndicator .value 1 with key := none, keyAllowed := false }
  | none =>
    if !r.inFlow && !r.keyAllowed then throw ⟨.valueNotAllowed, r.mark⟩
    let r := (if r.inFlow then r else r.openHere .mappingStart)
    pure { r.emitIndicator .value 1 with key := none, keyAllowed := !r.inFlow }

/-- An anchor, an alias or a tag; it may be the start of a key. -/
def readProperty (r : Reading) (read : Source → Except SyntaxFault (Symbol × Source)) :
    Except SyntaxFault Reading := do
  let r ← r.markKey
  let (symbol, rest) ← read r.rest
  pure { r.emit symbol rest with keyAllowed := false }

/-- A scalar that may be the start of a key. -/
def readScalar (r : Reading) (style : ScalarStyle) (read : Source → Except SyntaxFault ScalarText) :
    Except SyntaxFault Reading := do
  let r ← r.markKey
  let scalar ← read r.rest
  pure { r.emit (.scalar style (String.ofList scalar.text)) scalar.rest scalar.stop with
    keyAllowed := scalar.brokenAfter }

/-- A block scalar, which is no key. -/
def readBlock (r : Reading) (style : ScalarStyle) : Except SyntaxFault Reading := do
  let r ← r.dropKey
  let scalar ← blockScalar (style = .folded) r.columns.head? (r.rest.drop 1)
  pure { r.emit (.scalar style (String.ofList scalar.text)) scalar.rest scalar.stop with keyAllowed := true }

/-- A plain scalar may start with the character; `next` follows it. -/
def startsPlain (inFlow : Bool) (c next : Char) : Bool :=
  !(isBlankOrEnd c || ['-', '?', ':', ',', '[', ']', '\x7b', '\x7d', '#', '&', '*', '!', '|', '>', '\'', '"',
    '%', '@', '`'].contains c) ||
  (c = '-' && !isBlank next) || (!inFlow && (c = '?' || c = ':') && !isBlankOrEnd next)

def readHere (r : Reading) : Except SyntaxFault Reading :=
  let c := r.rest.peek
  let next := r.rest.peek 1
  let stands := isBlankOrEnd next
  if r.mark.column = 0 && c = '%' then do
    let r ← r.leaveDocument
    let (symbol, rest) ← directive (r.rest.drop 1)
    pure (r.emit symbol rest)
  else if r.rest.atMarker then do
    let r ← r.leaveDocument
    pure (r.emitIndicator (if c = '-' then .documentStart else .documentEnd) 3)
  else match c with
    | '[' => r.openFlow .flowSequenceStart
    | '\x7b' => r.openFlow .flowMappingStart
    | ']' => r.closeFlow .flowSequenceEnd
    | '\x7d' => r.closeFlow .flowMappingEnd
    | ',' => r.divideFlow
    | '*' => r.readProperty fun s => (anchorName (s.drop 1)).map fun (name, rest) => (.alias name, rest)
    | '&' => r.readProperty fun s => (anchorName (s.drop 1)).map fun (name, rest) => (.anchor name, rest)
    | '!' => r.readProperty fun s => (tagText r.inFlow s).map fun (tag, rest) => (.tag tag, rest)
    | '\'' => r.readScalar .singleQuoted fun s => quotedScalar '\'' [] none (s.drop 1)
    | '"' => r.readScalar .doubleQuoted fun s => quotedScalar '"' [] none (s.drop 1)
    | _ =>
      if c = '-' && stands then r.readEntry
      else if c = '?' && (r.inFlow || stands) then r.readKey
      else if c = ':' && (r.inFlow || stands) then r.readValue
      else if c = '|' && !r.inFlow then r.readBlock .literal
      else if c = '>' && !r.inFlow then r.readBlock .folded
      else if startsPlain r.inFlow c next then
        let least := match r.columns.head? with
          | some column => column + 1
          | none => 0
        r.readScalar .plain fun s => plainScalar r.inFlow least [] none s.mark s
      else .error ⟨.token, r.mark⟩

/-- Reads the next token, and says whether it was the last. -/
def next (r : Reading) : Except SyntaxFault (Reading × Bool) := do
  let (rest, keyAllowed) := r.rest.toToken r.inFlow r.keyAllowed false
  let r := { r with rest, keyAllowed }
  let r := r.closeDeeper (some r.mark.column)
  if isEnd r.rest.peek then pure (← r.finish, true)
  else
    let r ← r.readHere
    pure (← r.dropPassedKeys, false)

def run (r : Reading) : Nat → Except SyntaxFault (List Token)
  | 0 => .error ⟨.cutOff, r.mark⟩
  | count + 1 => do
    let (r, isLast) ← r.next
    if isLast then pure r.tokens.reverse else r.run count

end Reading

/-- The tokens of a text. Each takes at least one character. -/
def Token.rowOf (text : List Char) : Except SyntaxFault (List Token) := do
  let source ← Source.ofText text
  ({ rest := source } : Reading).run source.length

end LayoutTech.Yaml
