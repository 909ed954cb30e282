import LayoutTech.Number.Digits
import LayoutTech.Yaml.Token

/-!
# Plain and quoted scalars

Inside a plain or quoted scalar a single line break stands for a space, and of several the first does not
count; blanks at the ends of lines do not count either.
-/

namespace LayoutTech.Yaml

/-- Blanks and line breaks between two characters of a scalar. -/
structure Gap where
  /-- The blanks, latest first, while no line break has come. -/
  blanks : List Char := []
  broken : Bool := false
  /-- The first line break, unless it was escaped. -/
  firstBreak : List Char := []
  /-- The further line breaks, latest first. -/
  moreBreaks : List Char := []

namespace Gap

def add (g : Gap) (c : Char) : Gap :=
  if isBreak c then
    if g.broken then { g with moreBreaks := c :: g.moreBreaks } else { broken := true, firstBreak := [c] }
  else if g.broken then g
  else { g with blanks := c :: g.blanks }

/-- What the gap stands for. -/
def text (g : Gap) : List Char :=
  if !g.broken then g.blanks.reverse
  else if g.firstBreak = ['\n'] then
    if g.moreBreaks.isEmpty then [' '] else g.moreBreaks.reverse
  else g.firstBreak ++ g.moreBreaks.reverse

end Gap

/-- The text read so far, latest first, once the gap after it counts. -/
def joined (text : List Char) (gap : Option Gap) : List Char :=
  ((gap.map Gap.text).getD []).reverse ++ text

/-- Reads a plain scalar; `text` is what has been read, latest first, and `gap` what has come since. Outside
of brackets a plain scalar ends at a line that is indented by less than `least`. -/
def plainScalar (inFlow : Bool) (least : Nat) (text : List Char) (gap : Option Gap) (stop : Mark) :
    Source → Except SyntaxFault ScalarText
  | [] => .ok ⟨text.reverse, stop, [], false⟩
  | c :: cs =>
    let finished : Except SyntaxFault ScalarText :=
      .ok ⟨text.reverse, stop, c :: cs, gap.any Gap.broken⟩
    let next := Source.peek cs
    if isBlank c.char || isBreak c.char then
      if c.char = '\t' && gap.any Gap.broken && c.mark.column < least then .error ⟨.tabInIndentation, c.mark⟩
      else plainScalar inFlow least text (some ((gap.getD {}).add c.char)) stop cs
    else if isEnd c.char then finished
    else if gap.isSome && ((!inFlow && c.mark.column < least) || Source.atMarker (c :: cs) || c.char = '#') then
      finished
    else if inFlow && c.char = ':' && [',', '?', '[', ']', '\x7b', '\x7d'].contains next then
      .error ⟨.colonInFlow, c.mark⟩
    else if (c.char = ':' && isBlankOrEnd next) ||
        (inFlow && [',', '[', ']', '\x7b', '\x7d'].contains c.char) then finished
    else plainScalar inFlow least (c.char :: joined text gap) none (Source.mark cs) cs

/-- What an escape stands for: a character, or as many hexadecimal digits as follow. -/
inductive Escape where
  | char (c : Char)
  | digits (count : Nat)

def Escape.of? : Char → Option Escape
  | '0' => some (.char '\x00')
  | 'a' => some (.char '\x07')
  | 'b' => some (.char '\x08')
  | 't' => some (.char '\t')
  | '\t' => some (.char '\t')
  | 'n' => some (.char '\n')
  | 'v' => some (.char '\x0b')
  | 'f' => some (.char '\x0c')
  | 'r' => some (.char '\r')
  | 'e' => some (.char '\x1b')
  | ' ' => some (.char ' ')
  | '"' => some (.char '"')
  | '/' => some (.char '/')
  | '\\' => some (.char '\\')
  | 'N' => some (.char '\u0085')
  | '_' => some (.char '\u00a0')
  | 'L' => some (.char '\u2028')
  | 'P' => some (.char '\u2029')
  | 'x' => some (.digits 2)
  | 'u' => some (.digits 4)
  | 'U' => some (.digits 8)
  | _ => none

def hexChar? (digits : List Char) : Option Char :=
  (Digits.number? 16 digits).bind fun n => if n.isValidChar then some (Char.ofNat n) else none

def quotedScalar (quote : Char) (text : List Char) (gap : Option Gap) (s : Source) :
    Except SyntaxFault ScalarText :=
  match s with
  | [] => .error ⟨.cutOff, {}⟩
  | c :: cs =>
    let next := Source.peek cs
    if isEnd c.char then .error ⟨.cutOff, c.mark⟩
    else if Source.atMarker (c :: cs) then .error ⟨.documentStart, c.mark⟩
    else if isBlank c.char || isBreak c.char then quotedScalar quote text (some ((gap.getD {}).add c.char)) cs
    else
      let text := joined text gap
      if c.char = quote then
        if quote = '\'' && next = '\'' then quotedScalar quote ('\'' :: text) none (cs.drop 1)
        else .ok ⟨text.reverse, Source.mark cs, cs, false⟩
      else if quote = '"' && c.char = '\\' then
        if isBreak next then quotedScalar quote text (some { broken := true }) (cs.drop 1)
        else match Escape.of? next with
          | some (.char x) => quotedScalar quote (x :: text) none (cs.drop 1)
          | some (.digits count) =>
            match hexChar? (((cs.drop 1).take count).map Located.char) with
            | some x => quotedScalar quote (x :: text) none (cs.drop (1 + count))
            | none => .error ⟨.escape, c.mark⟩
          | none => .error ⟨.escape, c.mark⟩
      else quotedScalar quote (c.char :: text) none cs
  termination_by s.length
  decreasing_by all_goals simp only [List.length_drop, List.length_cons]; omega

end LayoutTech.Yaml
