import LayoutTech.Yaml.Atom
import LayoutTech.Yaml.Document

/-!
# Values

A document without a schema is read as a value, in which aliases are replaced by what they stand for. A
document has a value unless it is too deep, grows too much by its aliases, or has something in it that can
have no value: a mapping with a key twice, or a scalar that does not fit its tag.
-/

namespace LayoutTech.Yaml

inductive Value where
  | atom (value : Atom)
  | sequence (items : List Value)
  | mapping (fields : List (Value × Value))
  | tagged (tag : String) (value : Value)

namespace Value

/-- The two values are the same key. The order of the fields of a mapping does not count. -/
def same : Value → Value → Bool
  | .atom (.float x), .atom (.float y) => (x == .nan && y == .nan) || x.sameValue y
  | .atom a, .atom b => a = b
  | .sequence xs, .sequence ys => sameItems xs ys
  | .mapping fs, .mapping gs => fs.length == gs.length && sameFields fs gs
  | .tagged s x, .tagged t y => s == t && same x y
  | _, _ => false
where
  sameItems : List Value → List Value → Bool
    | [], [] => true
    | x :: xs, y :: ys => same x y && sameItems xs ys
    | _, _ => false
  sameFields : List (Value × Value) → List (Value × Value) → Bool
    | [], _ => true
    | (key, value) :: rest, gs => gs.any (fun (k, v) => same key k && same value v) && sameFields rest gs

def maxDepth : Nat := 128

/-- No more aliases are followed than this for each step of the document. -/
def maxRepetition : Nat := 100

def ofScalar? (tag : Option String) (style : ScalarStyle) (text : String) : Option Value :=
  (Atom.ofScalar? tag style text).bind fun atom =>
    match atom with
    | .int n => if Atom.isSmall n then some (.atom atom) else none
    | _ => some (.atom atom)

/-- The value under a tag of its own kind; such a tag has a name. -/
def underTag? (tag : Option String) (value : Value) : Option Value :=
  match ownTag? tag with
  | some "" => none
  | some name => some (.tagged name value)
  | none => some value

/-- The node that an alias stands for; the state is how many aliases may still be followed. -/
def follow (d : Document) (node : Node Nat) : StateT Nat Option (Node Nat) :=
  match node with
  | .alias .. => fun left => if left = 0 then none else some (d.resolve node, left - 1)
  | _ => pure node

def read (d : Document) (depth : Nat) (node : Node Nat) : StateT Nat Option Value := do
  match depth, ← follow d node with
  | _, .scalar p style text => liftM ((ofScalar? p.tag style text).bind (underTag? p.tag))
  | depth + 1, .sequence p items =>
    let items ← items.mapM (read d depth)
    liftM (underTag? p.tag (.sequence items))
  | depth + 1, .mapping p fields =>
    let fields ← fields.foldlM (fun done (key, value) => do
      let key ← read d depth key
      if done.any fun (k, _) => same k key then failure
      let value ← read d depth value
      pure (done ++ [(key, value)])) []
    liftM (underTag? p.tag (.mapping fields))
  | _, _ => failure

def ofDocument? (d : Document) : Option Value :=
  match d.root with
  | some root => ((read d maxDepth root).run (d.size * maxRepetition)).map Prod.fst
  | none => some (.atom .null)

end Value

end LayoutTech.Yaml
