/-!
# Filters

The conditions of a query and their text, which is what the server reads. A text value is written
between apostrophes with a backslash before every apostrophe and backslash of its own; a condition
on a referenced entity stands in braces; conditions that all hold are separated by semicolons.
`Filter.and` joins conditions without nesting them.
-/

namespace TypedEntities

mutual

/-- A condition on the fields of an entity. -/
inductive Filter
  | equal (field : String) (value : FilterValue)
  | less (field : String) (value : FilterValue)
  /-- All of the parts hold. -/
  | all (parts : List Filter)

/-- What a field is compared with. -/
inductive FilterValue
  | null
  | number (value : Int)
  | text (value : String)
  /-- The referenced entity meets a condition. -/
  | nested (condition : Filter)

end

instance : Inhabited Filter := ⟨.all []⟩

instance : Inhabited FilterValue := ⟨.null⟩

namespace Filter

/-- The field holds nothing. -/
def isNull (field : String) : Filter := .equal field .null

/-- The entity that the field refers to meets a condition. -/
def refers (field : String) (condition : Filter) : Filter := .equal field (.nested condition)

def isAll : Filter → Bool
  | .all _ => true
  | _ => false

/-- The conditions that a filter joins; itself if it joins none. -/
def parts : Filter → List Filter
  | .all parts => parts
  | f => [f]

/-- Both conditions hold: the parts of the first, then those of the second. -/
def and (f g : Filter) : Filter := .all (f.parts ++ g.parts)

/-- How a character of a text value is written. -/
def escapeChar : Char → List Char
  | '\\' => ['\\', '\\']
  | '\'' => ['\\', '\'']
  | c => [c]

end Filter

mutual

/-- The text of a condition. -/
def Filter.chars : Filter → List Char
  | .equal field value => field.toList ++ " EQ ".toList ++ value.chars
  | .less field value => field.toList ++ " LT ".toList ++ value.chars
  | .all parts => Filter.joinedChars parts

/-- The text of a value. -/
def FilterValue.chars : FilterValue → List Char
  | .null => "null".toList
  | .number n => (toString n).toList
  | .text s => '\'' :: s.toList.flatMap Filter.escapeChar ++ ['\'']
  | .nested f => '{' :: f.chars ++ ['}']

/-- The texts of conditions with semicolons between. -/
def Filter.joinedChars : List Filter → List Char
  | [] => []
  | [f] => f.chars
  | f :: g :: rest => f.chars ++ ';' :: Filter.joinedChars (g :: rest)

end

/-- The text of a condition, as the server reads it. -/
def Filter.text (f : Filter) : String := String.ofList f.chars

/-- Which fields of which entities of a collection to read; without fields all of them. -/
structure Selection where
  fields : List String
  filter : Option Filter
deriving Inhabited

/-- Joining conditions is associative. -/
theorem Filter.and_assoc (f g h : Filter) : (f.and g).and h = f.and (g.and h) := by
  simp [Filter.and, Filter.parts, List.append_assoc]

end TypedEntities
