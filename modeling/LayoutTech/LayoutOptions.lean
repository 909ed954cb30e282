import LayoutTech.Table

/-!
# Layout options

Options for reading and writing layout files: a value for each format and key. A format without
options does not exist, so that two values with the same options are equal.
-/

namespace LayoutTech

/-- For each format that has options, its table of keys and values. -/
structure LayoutOptions where
  formats : Table (Table String)
  filled : ∀ entry ∈ formats.entries, entry.2.isEmpty = false := by simp
deriving DecidableEq

namespace LayoutOptions

def empty : LayoutOptions := { formats := .empty, filled := fun _ h => nomatch h }

instance : Inhabited LayoutOptions := ⟨empty⟩

def isEmpty (o : LayoutOptions) : Bool := o.formats.isEmpty

def formatNames (o : LayoutOptions) : List String := o.formats.keys

def ofFormat (o : LayoutOptions) (format : String) : Table String := (o.formats.get? format).getD .empty

def get? (o : LayoutOptions) (format key : String) : Option String := (o.ofFormat format).get? key

/-- The options with a table of options, not an empty one, for a format. -/
def setFormat (o : LayoutOptions) (format : String) (table : Table String) (h : table.isEmpty = false) :
    LayoutOptions where
  formats := o.formats.insert format table
  filled _ he := by
    rcases Table.mem_put he with rfl | he
    · exact h
    · exact o.filled _ he

def set (o : LayoutOptions) (format key value : String) : LayoutOptions :=
  o.setFormat format ((o.ofFormat format).insert key value) (Table.isEmpty_insert _ _ _)

/-- The options with this table for a format, which does not exist when the table is empty. -/
def replaceFormat (o : LayoutOptions) (format : String) (table : Table String) : LayoutOptions :=
  match h : table.isEmpty with
  | true =>
    { formats := o.formats.erase format, filled := fun _ he => o.filled _ (List.mem_filter.1 he).1 }
  | false => o.setFormat format table h

/-- Removes an option, and its format with the last of its options. The value that was removed comes first. -/
def remove (o : LayoutOptions) (format key : String) : Option String × LayoutOptions :=
  match o.formats.get? format with
  | none => (none, o)
  | some options => (options.get? key, o.replaceFormat format (options.erase key))

def unset (o : LayoutOptions) (format key : String) : LayoutOptions := (o.remove format key).2

/-- The options of the triples of format, key and value, the last value winning. -/
def ofList (options : List (String × String × String)) : LayoutOptions :=
  options.foldl (fun o (format, key, value) => o.set format key value) empty

end LayoutOptions

end LayoutTech
