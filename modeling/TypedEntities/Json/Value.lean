import TypedEntities.Json.Number
import TypedEntities.Table

/-!
# JSON values and JSON trees

There are two views of a JSON text. `Json.Tree` is the text as it is written: repeated keys stay, a
number keeps its digits, and a string may hold escapes of half a character, which stand for no text.
`Json` is a value: the members of an object have different keys in ascending order when they come
from `Tree.value?`, and a number is a `Number`.
-/

namespace TypedEntities

/-- A JSON value. The members of an object are listed in the order in which they are written. -/
inductive Json
  | null
  | bool (value : Bool)
  | number (value : Json.Number)
  | text (value : String)
  | array (items : List Json)
  | object (members : List (String × Json))
deriving Repr, Inhabited

namespace Json

/-- A JSON text as it is written. A string is `none` if it holds an escape of half a character. -/
inductive Tree
  | null
  | bool (value : Bool)
  | number (value : NumberText)
  | text (value : Option String)
  | array (items : List Tree)
  | object (members : List (Option String × Tree))
deriving Repr, Inhabited

/-- An integer. -/
def ofInt (n : Int) : Json := .number (.integer n)

/-- A natural number. -/
def ofNat (n : Nat) : Json := .number (.integer n)

/-- A text, or null for none. -/
def ofText? : Option String → Json
  | none => .null
  | some s => .text s

/-- A list of texts. -/
def ofTexts (texts : List String) : Json := .array (texts.map .text)

/-- The member of an object with the given key; of several the last. -/
def member? (key : String) : Json → Option Json
  | .object members => (members.reverse.find? fun m => m.1 = key).map Prod.snd
  | _ => none

/-! ## The order of members -/

/-- Members by ascending key; of several with one key the last. -/
def sortMembers (members : List (String × Json)) : List (String × Json) :=
  (Table.ofList members).entries

mutual

/-- The value with the members of all its objects in ascending order of their keys. -/
def sortKeys : Json → Json
  | .null => .null
  | .bool b => .bool b
  | .number n => .number n
  | .text s => .text s
  | .array items => .array (sortItems items)
  | .object members => .object (sortMembers (sortValues members))

/-- `sortKeys` for each item. -/
def sortItems : List Json → List Json
  | [] => []
  | v :: rest => v.sortKeys :: sortItems rest

/-- `sortKeys` for the value of each member. -/
def sortValues : List (String × Json) → List (String × Json)
  | [] => []
  | (k, v) :: rest => (k, v.sortKeys) :: sortValues rest

end

/-! ## The value of a tree -/

/-- How many arrays and objects may stand inside each other, counted from the outermost, in a text
that is read for its value. -/
def maxLevels : Nat := 127

mutual

/-- The value of a tree with at most `levels` arrays and objects inside each other, provided its
strings are texts and its numbers are not too large. -/
def Tree.value? (levels : Nat) : Tree → Option Json
  | .null => some .null
  | .bool b => some (.bool b)
  | .number t => t.value?.map .number
  | .text s => s.map .text
  | .array items => if levels = 0 then none else (valueItems? (levels - 1) items).map .array
  | .object members =>
    if levels = 0 then none
    else (valueMembers? (levels - 1) members).map fun ms => .object (sortMembers ms)

/-- The values of the items of an array. -/
def valueItems? (levels : Nat) : List Tree → Option (List Json)
  | [] => some []
  | t :: rest => do
    let v ← t.value? levels
    let vs ← valueItems? levels rest
    return v :: vs

/-- The keys and values of the members of an object. -/
def valueMembers? (levels : Nat) : List (Option String × Tree) → Option (List (String × Json))
  | [] => some []
  | (key, t) :: rest => do
    let k ← key
    let v ← t.value? levels
    let vs ← valueMembers? levels rest
    return (k, v) :: vs

end

end Json

end TypedEntities
