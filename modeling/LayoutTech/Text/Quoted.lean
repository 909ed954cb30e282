import LayoutTech.Text.Printable

/-!
# Quoted text

A text in double quotes, as messages show it: what could not be told apart or would not show in print
is written as an escape. In a path the apostrophe is written as an escape, too.
-/

namespace LayoutTech.Text

def hexText (n : Nat) : List Char := Nat.toDigits 16 n

def quotedChar (c : Char) : List Char :=
  if c = '\x00' then ['\\', '0']
  else if c = '\t' then ['\\', 't']
  else if c = '\n' then ['\\', 'n']
  else if c = '\r' then ['\\', 'r']
  else if c = '"' ∨ c = '\\' then ['\\', c]
  else if isPrintable c then [c]
  else ['\\', 'u', '\x7b'] ++ hexText c.toNat ++ ['\x7d']

def quotedPathChar (c : Char) : List Char := if c = '\'' then ['\\', c] else quotedChar c

def quoted (cs : List Char) : String := String.ofList ('"' :: cs.flatMap quotedChar ++ ['"'])

def quotedPath (path : String) : String := String.ofList ('"' :: path.toList.flatMap quotedPathChar ++ ['"'])

end LayoutTech.Text
