import LayoutTech.Yaml.Token

/-!
# Block scalars

A block scalar is what stands below its indicator and is indented more than what is around it. A literal one
keeps its line breaks; in a folded one a line break between two lines that start with no blank stands for a
space. Its header says what becomes of the line breaks at the end, and may say the indentation.
-/

namespace LayoutTech.Yaml

/-- What becomes of the line breaks at the end of a block scalar: none is kept, one, or all. -/
inductive Chomping where
  | strip
  | clip
  | keep
deriving DecidableEq, Repr

structure BlockHeader where
  chomping : Chomping
  /-- How much deeper than its surroundings the scalar is indented, if the header says so. -/
  indentation : Option Nat

namespace BlockHeader

def chomping? (c : Char) : Option Chomping :=
  if c = '+' then some .keep else if c = '-' then some .strip else none

def indentation? (c : Char) : Option Nat := if c.isDigit then some (c.toNat - '0'.toNat) else none

/-- Reads a header; the two indicators come in either order. -/
def read (s : Source) : Except SyntaxFault (BlockHeader × Source) :=
  let (header, rest) : BlockHeader × Source :=
    match chomping? s.peek, indentation? s.peek with
    | some chomping, _ =>
      match indentation? (s.peek 1) with
      | some n => (⟨chomping, some n⟩, s.drop 2)
      | none => (⟨chomping, none⟩, s.drop 1)
    | none, some n =>
      match chomping? (s.peek 1) with
      | some chomping => (⟨chomping, some n⟩, s.drop 2)
      | none => (⟨.clip, some n⟩, s.drop 1)
    | none, none => (⟨.clip, none⟩, s)
  if header.indentation = some 0 then .error ⟨.blockScalarHeader, s.mark⟩
  else match rest.nextLine? with
    | some below => .ok (header, below)
    | none => .error ⟨.blockScalarHeader, rest.mark⟩

end BlockHeader

/-- A block scalar that is being read. -/
structure OpenBlock where
  /-- What counts so far, latest first. -/
  text : List Char := []
  /-- The column of the content, once it is known. -/
  column : Option Nat
  /-- The deepest column reached before the content. -/
  deepest : Nat := 0
  /-- The line break after the last line of content. -/
  lineBreak : List Char := []
  /-- The line breaks of empty lines since then, latest first. -/
  emptyLines : List Char := []
  /-- The last line of content starts with a blank. -/
  startsBlank : Bool := false
  inLine : Bool := false

namespace OpenBlock

/-- The text before a new line of content. -/
def textBeforeLine (b : OpenBlock) (folded startsBlank : Bool) : List Char :=
  let text :=
    if folded && b.lineBreak = ['\n'] && !b.startsBlank && !startsBlank then
      if b.emptyLines.isEmpty then ' ' :: b.text else b.text
    else b.lineBreak ++ b.text
  b.emptyLines ++ text

def finish (b : OpenBlock) (chomping : Chomping) (rest : Source) : ScalarText :=
  let text := if chomping = .strip then b.text else b.lineBreak ++ b.text
  let text := if chomping = .keep then b.emptyLines ++ text else text
  ⟨text.reverse, rest.mark, rest, true⟩

/-- Reads on; `least` is the least column that content may have. -/
def read (b : OpenBlock) (folded : Bool) (chomping : Chomping) (least : Nat) :
    Source → Except SyntaxFault ScalarText
  | [] => .ok (b.finish chomping [])
  | c :: cs =>
    if b.inLine then
      if isBreak c.char then
        read { b with inLine := false, lineBreak := [c.char], emptyLines := [] } folded chomping least cs
      else if isEnd c.char then .ok ({ b with lineBreak := [], emptyLines := [] }.finish chomping (c :: cs))
      else read { b with text := c.char :: b.text } folded chomping least cs
    else
      let inMargin := b.column.all fun column => c.mark.column < column
      let deepest := max b.deepest c.mark.column
      if inMargin && c.char = ' ' then read b folded chomping least cs
      else if inMargin && c.char = '\t' then .error ⟨.tabInIndentation, c.mark⟩
      else if isBreak c.char then
        read { b with deepest, emptyLines := c.char :: b.emptyLines } folded chomping least cs
      else
        let column := b.column.getD (max deepest least)
        if isEnd c.char || c.mark.column != column then .ok (b.finish chomping (c :: cs))
        else
          let startsBlank := isBlank c.char
          read { b with
            text := c.char :: b.textBeforeLine folded startsBlank
            column := some column, lineBreak := [], emptyLines := [], startsBlank, inLine := true }
            folded chomping least cs

end OpenBlock

/-- Reads a block scalar after its indicator; `surrounding` is the column of what is around it. -/
def blockScalar (folded : Bool) (surrounding : Option Nat) (s : Source) : Except SyntaxFault ScalarText := do
  let (header, below) ← BlockHeader.read s
  let column := header.indentation.map (surrounding.getD 0 + ·)
  let least := match surrounding with
    | some column => column + 1
    | none => 1
  OpenBlock.read { column } folded header.chomping least below

end LayoutTech.Yaml
