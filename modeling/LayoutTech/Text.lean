/-!
# Text

Blank characters, trimming, and cutting a text at its first separator, over lists of characters.
-/

namespace LayoutTech.Text

/-- The characters with the Unicode property `White_Space`. -/
def isBlank (c : Char) : Bool :=
  (0x09 ≤ c.val && c.val ≤ 0x0D) || c.val == 0x20 || c.val == 0x85 || c.val == 0xA0 ||
    c.val == 0x1680 || (0x2000 ≤ c.val && c.val ≤ 0x200A) || c.val == 0x2028 ||
    c.val == 0x2029 || c.val == 0x202F || c.val == 0x205F || c.val == 0x3000

def AllBlank (cs : List Char) : Prop := ∀ c ∈ cs, isBlank c

instance (cs : List Char) : Decidable (AllBlank cs) := List.decidableBAll _ cs

def trimStart (cs : List Char) : List Char := cs.dropWhile isBlank

def trimEnd (cs : List Char) : List Char := (cs.reverse.dropWhile isBlank).reverse

def trim (cs : List Char) : List Char := trimEnd (trimStart cs)

def cutAt? (sep : Char) : List Char → Option (List Char × List Char)
  | [] => none
  | c :: cs =>
    if c = sep then some ([], cs)
    else (cutAt? sep cs).map fun (before, after) => (c :: before, after)

def byteLength (cs : List Char) : Nat := (String.ofList cs).utf8ByteSize

/-- The character whose number is the first byte of the character in UTF-8. -/
def firstByte (c : Char) : Char :=
  if c.utf8Size = 1 then c
  else if c.utf8Size = 2 then Char.ofNat (0xC0 + c.toNat / 0x40)
  else if c.utf8Size = 3 then Char.ofNat (0xE0 + c.toNat / 0x1000)
  else Char.ofNat (0xF0 + c.toNat / 0x40000)

end LayoutTech.Text

namespace LayoutTech

def trimmed (s : String) : String := String.ofList (Text.trim s.toList)

def isBlankText (s : String) : Bool := (Text.trim s.toList).isEmpty

end LayoutTech
