/-!
# Flat TOML

A TOML document whose values are texts, integers, truth values and lists of these. A document with
tables, dotted keys, dates, fractions or lists inside lists is refused: no setting has such a value.
-/

namespace TypedEntities.Toml

/-- A value of a flat document. -/
inductive Value
  | text (value : String)
  | integer (value : Int)
  | bool (value : Bool)
  | list (items : List Value)
deriving Repr, Inhabited

/-- An integer that fits 64 bits without a sign. -/
def Value.natural? : Value → Option Nat
  | .integer n => if 0 ≤ n ∧ n < 0x10000000000000000 then some n.toNat else none
  | _ => none

/-- The text that a value is. -/
def Value.text? : Value → Option String
  | .text s => some s
  | _ => none

/-- The texts of a list of texts. -/
def Value.texts? : Value → Option (List String)
  | .list items => items.mapM Value.text?
  | _ => none

/-! ## Blanks, comments and ends of lines -/

def isSpace (c : Char) : Bool := c == ' ' || c == '\t'

def skipSpace (cs : List Char) : List Char := cs.dropWhile isSpace

/-- Characters that may stand in a text or a comment: all but controls other than the tab. -/
def isShown (c : Char) : Bool := c == '\t' || (32 ≤ c.toNat && c.toNat ≠ 127)

/-- What follows the comment that may stand here. -/
def skipComment : List Char → List Char
  | '#' :: rest => rest.dropWhile isShown
  | cs => cs

/-- What follows the end of a line, if this is one. -/
def lineEnd? : List Char → Option (List Char)
  | '\n' :: rest => some rest
  | '\r' :: '\n' :: rest => some rest
  | _ => none

/-- What follows blanks, comments and ends of lines; `lines` bounds the number of lines. -/
def skipLines : (lines : Nat) → List Char → List Char
  | 0, cs => cs
  | lines + 1, cs =>
    let cs := skipComment (skipSpace cs)
    match lineEnd? cs with
    | some rest => skipLines lines rest
    | none => cs

/-! ## Texts -/

/-- The value of a hexadecimal digit. -/
def hexValue? (c : Char) : Option Nat :=
  if c.isDigit then some (c.toNat - 48)
  else if 'a' ≤ c && c ≤ 'f' then some (c.toNat - 87)
  else if 'A' ≤ c && c ≤ 'F' then some (c.toNat - 55)
  else none

/-- The character with the number that hexadecimal digits stand for. -/
def scalar? (digits : List Char) : Option Char := do
  let values ← digits.mapM hexValue?
  let n := values.foldl (fun n d => n * 16 + d) 0
  if n < 0xD800 ∨ 0xDFFF < n ∧ n < 0x110000 then some (Char.ofNat n) else none

/-- The character of an escape by number with the given count of digits, and the rest. -/
def numberEscape? (count : Nat) (cs : List Char) : Option (Char × List Char) :=
  if cs.length < count then none else (scalar? (cs.take count)).map (·, cs.drop count)

/-- The character of the escape after a backslash, and the rest. -/
def escape? : List Char → Option (Char × List Char)
  | [] => none
  | c :: rest =>
    match c with
    | 'b' => some (Char.ofNat 8, rest)
    | 't' => some ('\t', rest)
    | 'n' => some ('\n', rest)
    | 'f' => some (Char.ofNat 12, rest)
    | 'r' => some ('\r', rest)
    | 'e' => some (Char.ofNat 27, rest)
    | '"' => some ('"', rest)
    | '\\' => some ('\\', rest)
    | 'x' => numberEscape? 2 rest
    | 'u' => numberEscape? 4 rest
    | 'U' => numberEscape? 8 rest
    | _ => none

/-- The characters of a text in double quotes up to the closing one, and the rest. -/
def basicChars : (fuel : Nat) → List Char → Option (List Char × List Char)
  | 0, _ => none
  | _ + 1, [] => none
  | _ + 1, '"' :: rest => some ([], rest)
  | fuel + 1, '\\' :: rest => do
    let (c, rest) ← escape? rest
    let (cs, rest) ← basicChars fuel rest
    return (c :: cs, rest)
  | fuel + 1, c :: rest =>
    if isShown c then (basicChars fuel rest).map fun (cs, r) => (c :: cs, r) else none

/-- The characters of a text in single quotes, and the rest. -/
def literalChars (cs : List Char) : Option (List Char × List Char) :=
  let shown := cs.takeWhile fun c => isShown c && c != '\''
  match cs.drop shown.length with
  | '\'' :: rest => some (shown, rest)
  | _ => none

/-- What follows a backslash that ends a line: the first character that is neither blank nor the end
of a line. -/
def skipFolded (cs : List Char) : Option (List Char) :=
  (lineEnd? (skipSpace cs)).map (List.dropWhile fun c => isSpace c || c == '\n' || c == '\r')

/-- The characters of a text of several lines up to the three closing quotes, and the rest. Up to two
quotes more stand before the closing ones. -/
def longChars (quote : Char) (escapes : Bool) :
    (fuel : Nat) → List Char → Option (List Char × List Char)
  | 0, _ => none
  | fuel + 1, cs =>
    let quotes := (cs.takeWhile (· == quote)).length
    if 3 ≤ quotes then
      if quotes ≤ 5 then some (List.replicate (quotes - 3) quote, cs.drop quotes) else none
    else match cs with
    | [] => none
    | '\\' :: rest =>
      if escapes then
        match skipFolded rest with
        | some rest => longChars quote escapes fuel rest
        | none => do
          let (c, rest) ← escape? rest
          let (cs, rest) ← longChars quote escapes fuel rest
          return (c :: cs, rest)
      else (longChars quote escapes fuel rest).map fun (cs, r) => ('\\' :: cs, r)
    | '\r' :: '\n' :: rest =>
      (longChars quote escapes fuel rest).map fun (cs, r) => ('\r' :: '\n' :: cs, r)
    | c :: rest =>
      if isShown c || c == '\n' then
        (longChars quote escapes fuel rest).map fun (cs, r) => (c :: cs, r)
      else none

/-- A text of several lines after its opening quotes; a line break right there is left out. -/
def longText (quote : Char) (escapes : Bool) (cs : List Char) : Option (List Char × List Char) :=
  longChars quote escapes (cs.length + 1) ((lineEnd? cs).getD cs)

/-- A text in one of the four forms, and the rest. -/
def text? : List Char → Option (String × List Char)
  | '"' :: '"' :: '"' :: rest => (longText '"' true rest).map fun (cs, r) => (String.ofList cs, r)
  | '\'' :: '\'' :: '\'' :: rest =>
    (longText '\'' false rest).map fun (cs, r) => (String.ofList cs, r)
  | '"' :: rest =>
    (basicChars (rest.length + 1) rest).map fun (cs, r) => (String.ofList cs, r)
  | '\'' :: rest => (literalChars rest).map fun (cs, r) => (String.ofList cs, r)
  | _ => none

/-! ## Integers -/

/-- The digits of a number in which single underscores may stand between digits. -/
def digits? (isDigit : Char → Bool) (cs : List Char) : Option (List Char) :=
  let groups := cs.splitOn '_'
  if groups.all fun group => !group.isEmpty && group.all isDigit then some groups.flatten else none

/-- The number that digits stand for. -/
def number? (base : Nat) (cs : List Char) : Option Nat := do
  let digits ← digits? (fun c => (hexValue? c).any (· < base)) cs
  let values ← digits.mapM hexValue?
  return values.foldl (fun n d => n * base + d) 0

/-- A decimal number without a leading zero. -/
def decimal? : List Char → Option Nat
  | ['0'] => some 0
  | '0' :: _ => none
  | cs => number? 10 cs

/-- An integer: decimal with a sign or none, or without a sign in base 16, 8 or 2. -/
def integer? : List Char → Option Int
  | '0' :: 'x' :: cs => (number? 16 cs).map Int.ofNat
  | '0' :: 'o' :: cs => (number? 8 cs).map Int.ofNat
  | '0' :: 'b' :: cs => (number? 2 cs).map Int.ofNat
  | '+' :: cs => (decimal? cs).map Int.ofNat
  | '-' :: cs => (decimal? cs).map fun n => -(n : Int)
  | cs => (decimal? cs).map Int.ofNat

/-! ## Entries -/

/-- Characters of keys without quotes, of truth values and of integers. -/
def isBare (c : Char) : Bool := c.isAlphanum || c == '_' || c == '-' || c == '+'

/-- A value that is no list, and the rest. -/
def plainValue? (cs : List Char) : Option (Value × List Char) :=
  match cs with
  | '"' :: _ | '\'' :: _ => (text? cs).map fun (s, r) => (.text s, r)
  | _ =>
    let word := cs.takeWhile isBare
    let rest := cs.dropWhile isBare
    if word = "true".toList then some (.bool true, rest)
    else if word = "false".toList then some (.bool false, rest)
    else (integer? word).map fun n => (.integer n, rest)

/-- The items of a list up to the closing bracket, and the rest. Each item takes a character at
least. -/
def items? : (fuel : Nat) → List Char → Option (List Value × List Char)
  | 0, _ => none
  | fuel + 1, cs =>
    match skipLines cs.length cs with
    | ']' :: rest => some ([], rest)
    | cs => do
      let (v, cs) ← plainValue? cs
      match skipLines cs.length cs with
      | ']' :: rest => return ([v], rest)
      | ',' :: rest => do
        let (vs, rest) ← items? fuel rest
        return (v :: vs, rest)
      | _ => none

/-- A value, and the rest. -/
def value? : List Char → Option (Value × List Char)
  | '[' :: rest => (items? (rest.length + 1) rest).map fun (vs, r) => (.list vs, r)
  | cs => plainValue? cs

/-- A key: a word, or a text in quotes on one line. -/
def key? : List Char → Option (String × List Char)
  | '"' :: '"' :: '"' :: _ | '\'' :: '\'' :: '\'' :: _ => none
  | '"' :: rest => text? ('"' :: rest)
  | '\'' :: rest => text? ('\'' :: rest)
  | cs =>
    let word := cs.takeWhile fun c => isBare c && c != '+'
    if word.isEmpty then none else some (String.ofList word, cs.drop word.length)

/-- A key and its value on a line, and what follows the value. -/
def entry? (cs : List Char) : Option ((String × Value) × List Char) := do
  let (key, cs) ← key? cs
  match skipSpace cs with
  | '=' :: cs => do
    let (v, cs) ← value? (skipSpace cs)
    return ((key, v), cs)
  | _ => none

/-- The entries of a document; `fuel` bounds their number. No key may stand twice. -/
def entries? : (fuel : Nat) → (seen : List String) → List Char → Option (List (String × Value))
  | 0, _, _ => none
  | fuel + 1, seen, cs =>
    match skipLines (cs.length + 1) cs with
    | [] => some []
    | cs => do
      let ((key, v), cs) ← entry? cs
      if key ∈ seen then none
      else match skipComment (skipSpace cs) with
      | [] => return [(key, v)]
      | cs => do
        let rest ← lineEnd? cs
        let entries ← entries? fuel (key :: seen) rest
        return (key, v) :: entries

/-- The entries of a flat document, in their order. A byte order mark may stand before it. -/
def parse? (text : String) : Option (List (String × Value)) :=
  let cs := match text.toList with
    | '\ufeff' :: rest => rest
    | cs => cs
  entries? (cs.length + 1) [] cs

end TypedEntities.Toml
