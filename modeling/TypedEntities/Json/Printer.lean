import TypedEntities.Json.Value

/-!
# Writing JSON

`Json.compact` writes a value without blanks, `Json.pretty` with one item or member a line and two
blanks for each level. Strings escape the quote, the backslash and the characters below U+0020;
everything else stands for itself.
-/

namespace TypedEntities.Json

/-- A hexadecimal digit, in lower case. -/
def hexDigit (n : Nat) : Char := if n < 10 then Char.ofNat (48 + n) else Char.ofNat (87 + n)

/-- How one character is written in a string. -/
def escapeChar (c : Char) : List Char :=
  match c with
  | '"' => ['\\', '"']
  | '\\' => ['\\', '\\']
  | '\n' => ['\\', 'n']
  | '\r' => ['\\', 'r']
  | '\t' => ['\\', 't']
  | _ =>
    if c = Char.ofNat 8 then ['\\', 'b']
    else if c = Char.ofNat 12 then ['\\', 'f']
    else if c.toNat < 32 then ['\\', 'u', '0', '0', hexDigit (c.toNat / 16), hexDigit (c.toNat % 16)]
    else [c]

/-- A string with its quotes. -/
def quote (s : String) : String := String.ofList ('"' :: s.toList.flatMap escapeChar ++ ['"'])

mutual

/-- A value without blanks. -/
def compact : Json → String
  | .null => "null"
  | .bool b => if b then "true" else "false"
  | .number n => n.text
  | .text s => quote s
  | .array items => "[" ++ compactItems items ++ "]"
  | .object members => "\x7b" ++ compactMembers members ++ "\x7d"

/-- The items of an array with commas between. -/
def compactItems : List Json → String
  | [] => ""
  | [v] => compact v
  | v :: w :: rest => compact v ++ "," ++ compactItems (w :: rest)

/-- The members of an object with commas between. -/
def compactMembers : List (String × Json) → String
  | [] => ""
  | [(k, v)] => quote k ++ ":" ++ compact v
  | (k, v) :: m :: rest => quote k ++ ":" ++ compact v ++ "," ++ compactMembers (m :: rest)

end

/-- A line break and the blanks of a level. -/
def lineBreak (level : Nat) : String := "\n" ++ String.ofList (List.replicate (2 * level) ' ')

mutual

/-- A value at a level, with one item or member a line. -/
def prettyAt (level : Nat) : Json → String
  | .null => "null"
  | .bool b => if b then "true" else "false"
  | .number n => n.text
  | .text s => quote s
  | .array [] => "[]"
  | .array (v :: rest) =>
    "[" ++ prettyItems (level + 1) (v :: rest) ++ lineBreak level ++ "]"
  | .object [] => "\x7b\x7d"
  | .object (m :: rest) =>
    "\x7b" ++ prettyMembers (level + 1) (m :: rest) ++ lineBreak level ++ "\x7d"

/-- The items of an array, each on its line. -/
def prettyItems (level : Nat) : List Json → String
  | [] => ""
  | [v] => lineBreak level ++ prettyAt level v
  | v :: w :: rest => lineBreak level ++ prettyAt level v ++ "," ++ prettyItems level (w :: rest)

/-- The members of an object, each on its line. -/
def prettyMembers (level : Nat) : List (String × Json) → String
  | [] => ""
  | [(k, v)] => lineBreak level ++ quote k ++ ": " ++ prettyAt level v
  | (k, v) :: m :: rest =>
    lineBreak level ++ quote k ++ ": " ++ prettyAt level v ++ "," ++ prettyMembers level (m :: rest)

end

/-- A value with one item or member a line. -/
def pretty (v : Json) : String := prettyAt 0 v

end TypedEntities.Json
