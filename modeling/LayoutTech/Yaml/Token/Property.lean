import LayoutTech.Yaml.Token.Plain

/-!
# Anchors, aliases, tags and directives

What stands before a node, or before a document. Tags are written as addresses: characters outside of the
allowed ones are given as the bytes that encode them, each as `%` and two digits.
-/

namespace LayoutTech.Yaml

/-- The name of an anchor or an alias, after its indicator. -/
def anchorName (s : Source) : Except SyntaxFault (String × Source) :=
  let (name, rest) := s.takeWhile isNameChar
  let closes := isBlankOrEnd rest.peek || ['?', ':', ',', ']', '\x7d', '%', '@', '`'].contains rest.peek
  if name.isEmpty || !closes then .error ⟨.emptyName, rest.mark⟩ else .ok (String.ofList name, rest)

/-- The characters of addresses; some of them only where an address is given in full. -/
def isAddressChar (full : Bool) (c : Char) : Bool :=
  isNameChar c ||
    [';', '/', '?', ':', '@', '&', '=', '+', '$', '.', '%', '!', '~', '*', '\'', '(', ')'].contains c ||
    (full && [',', '[', ']'].contains c)

/-- The bytes of a text in which bytes may be given as `%` and two digits. -/
def addressBytes? : List Char → Option (List UInt8)
  | '%' :: a :: b :: cs => do
    let byte ← Digits.number? 16 [a, b]
    let rest ← addressBytes? cs
    pure (byte.toUInt8 :: rest)
  | '%' :: _ => none
  | c :: cs => (addressBytes? cs).map ((String.singleton c).toUTF8.toList ++ ·)
  | [] => some []

/-- An address; `head` is a start of it that was read before. -/
def address (full : Bool) (head : List Char) (s : Source) : Except SyntaxFault (String × Source) :=
  let (tail, rest) := s.takeWhile (isAddressChar full)
  match (addressBytes? tail).bind fun bytes => String.fromUTF8? bytes.toByteArray with
  | some text => .ok (String.ofList head ++ text, rest)
  | none => .error ⟨.tag, s.mark⟩

/-- A handle: `!`, and perhaps a name that ends in another `!`. -/
def handle (s : Source) : List Char × Source :=
  let (name, rest) := Source.takeWhile (s.drop 1) isNameChar
  if rest.peek = '!' then ('!' :: name ++ ['!'], rest.drop 1) else ('!' :: name, rest)

/-- Two marks of exclamation, with a name between them or none. -/
def isNamedHandle (h : List Char) : Bool := h.length ≥ 2 && h.getLast? = some '!'

/-- A tag, from its indicator on. -/
def tagText (inFlow : Bool) (s : Source) : Except SyntaxFault (TagText × Source) := do
  let (tag, rest) : TagText × Source ←
    if s.peek 1 = '<' then do
      let (suffix, rest) ← address true [] (s.drop 2)
      if suffix.isEmpty || rest.peek ≠ '>' then throw ⟨.tag, rest.mark⟩
      pure (⟨"", suffix⟩, rest.drop 1)
    else
      let (start, rest) := handle s
      if isNamedHandle start then do
        let (suffix, rest) ← address false [] rest
        if suffix.isEmpty then throw ⟨.tag, rest.mark⟩
        pure (⟨String.ofList start, suffix⟩, rest)
      else do
        let (suffix, rest) ← address false (start.drop 1) rest
        pure (if suffix.isEmpty then ⟨"", "!"⟩ else ⟨"!", suffix⟩, rest)
  if isBlankOrEnd rest.peek || (inFlow && rest.peek = ',') then pure (tag, rest)
  else throw ⟨.tag, rest.mark⟩

def versionNumber (s : Source) : Except SyntaxFault (Nat × Source) :=
  let (digits, rest) := s.takeWhile Char.isDigit
  if digits.isEmpty || digits.length > 9 then .error ⟨.directive, s.mark⟩
  else .ok (digits.foldl (fun n c => n * 10 + (c.toNat - '0'.toNat)) 0, rest)

def directiveValue (name : List Char) (s : Source) : Except SyntaxFault (Symbol × Source) := do
  if name = "YAML".toList then
    let (major, rest) ← versionNumber s
    if rest.peek ≠ '.' then throw ⟨.directive, rest.mark⟩
    let (minor, rest) ← versionNumber (rest.drop 1)
    pure (.version major minor, rest)
  else if name = "TAG".toList then
    if s.peek ≠ '!' then throw ⟨.directive, s.mark⟩
    let (start, rest) := handle s
    if (start ≠ ['!'] && !isNamedHandle start) || !isBlank rest.peek then throw ⟨.directive, rest.mark⟩
    let (expansion, rest) ← address true [] rest.afterBlanks
    if expansion.isEmpty || !isBlankOrEnd rest.peek then throw ⟨.directive, rest.mark⟩
    pure (.tagHandle (String.ofList start) expansion, rest)
  else throw ⟨.directive, s.mark⟩

/-- A directive, after its indicator, up to the end of its line. -/
def directive (s : Source) : Except SyntaxFault (Symbol × Source) := do
  let (name, rest) := s.takeWhile isNameChar
  if name.isEmpty || !isBlankOrEnd rest.peek then throw ⟨.directive, rest.mark⟩
  let (symbol, rest) ← directiveValue name rest.afterBlanks
  match rest.nextLine? with
  | some below => pure (symbol, below)
  | none => throw ⟨.directive, rest.mark⟩

end LayoutTech.Yaml
