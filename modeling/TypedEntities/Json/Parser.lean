import TypedEntities.Json.Value

/-!
# Reading JSON

`Json.Tree.parse?` reads a text that is one JSON value with blanks around it. It reads what is
written and judges nothing: repeated keys, numbers of any size and escapes of half a character stay
in the tree.
-/

namespace TypedEntities.Json

/-- The blanks of JSON. -/
def isSpace (c : Char) : Bool := c == ' ' || c == '\n' || c == '\t' || c == '\r'

def skipSpace (cs : List Char) : List Char := cs.dropWhile isSpace

/-! ## Strings -/

/-- The value of a hexadecimal digit of either case. -/
def hexValue? (c : Char) : Option Nat :=
  if c.isDigit then some (c.toNat - 48)
  else if 'a' ≤ c && c ≤ 'f' then some (c.toNat - 87)
  else if 'A' ≤ c && c ≤ 'F' then some (c.toNat - 55)
  else none

/-- The number that four hexadecimal digits stand for. -/
def hexUnit? (a b c d : Char) : Option Nat := do
  let a ← hexValue? a
  let b ← hexValue? b
  let c ← hexValue? c
  let d ← hexValue? d
  return ((a * 16 + b) * 16 + c) * 16 + d

/-- The first and the second half of a character beyond U+FFFF. -/
def isFirstHalf (n : Nat) : Bool := 0xD800 ≤ n && n < 0xDC00

def isSecondHalf (n : Nat) : Bool := 0xDC00 ≤ n && n < 0xE000

/-- The character of two halves. -/
def joinHalves (a b : Nat) : Char := Char.ofNat (0x10000 + (a - 0xD800) * 0x400 + (b - 0xDC00))

/-- What the character after a backslash stands for, if it is one of the short escapes. -/
def shortEscape? : Char → Option Char
  | '"' => some '"'
  | '\\' => some '\\'
  | '/' => some '/'
  | 'b' => some (Char.ofNat 8)
  | 'f' => some (Char.ofNat 12)
  | 'n' => some '\n'
  | 'r' => some '\r'
  | 't' => some '\t'
  | _ => none

/-- The characters of a string up to its closing quote, and what follows the quote. A half that
stands alone gives `none` in its place. -/
def parseChars : List Char → Option (List (Option Char) × List Char)
  | [] => none
  | '"' :: rest => some ([], rest)
  | '\\' :: 'u' :: a :: b :: c :: d :: '\\' :: 'u' :: e :: f :: g :: h :: rest =>
    match hexUnit? a b c d with
    | none => none
    | some n =>
      if isFirstHalf n then
        match hexUnit? e f g h with
        | none => none
        | some m =>
          if isSecondHalf m then
            (parseChars rest).map fun (cs, r) => (some (joinHalves n m) :: cs, r)
          else
            (parseChars ('\\' :: 'u' :: e :: f :: g :: h :: rest)).map fun (cs, r) => (none :: cs, r)
      else
        (parseChars ('\\' :: 'u' :: e :: f :: g :: h :: rest)).map fun (cs, r) =>
          (if isSecondHalf n then none :: cs else some (Char.ofNat n) :: cs, r)
  | '\\' :: 'u' :: a :: b :: c :: d :: rest =>
    match hexUnit? a b c d with
    | none => none
    | some n =>
      (parseChars rest).map fun (cs, r) =>
        (if isFirstHalf n || isSecondHalf n then none :: cs else some (Char.ofNat n) :: cs, r)
  | '\\' :: c :: rest =>
    match shortEscape? c with
    | none => none
    | some e => (parseChars rest).map fun (cs, r) => (some e :: cs, r)
  | c :: rest =>
    if c.toNat < 32 || c == '\\' then none
    else (parseChars rest).map fun (cs, r) => (some c :: cs, r)
termination_by cs => cs.length
decreasing_by all_goals simp_wf <;> omega

/-- A string after its opening quote. -/
def parseString (cs : List Char) : Option (Option String × List Char) :=
  (parseChars cs).map fun (units, rest) => ((units.mapM id).map String.ofList, rest)

/-! ## Numbers -/

/-- The decimal digits at the beginning of a text, and the rest. -/
def parseDigits (cs : List Char) : List Nat × List Char :=
  ((cs.takeWhile Char.isDigit).map fun c => c.toNat - 48, cs.dropWhile Char.isDigit)

/-- The digits before the point: one zero, or digits that begin with another one. -/
def parseWhole : List Char → Option (List Nat × List Char)
  | [] => none
  | c :: rest =>
    if c == '0' then
      match rest with
      | d :: _ => if d.isDigit then none else some ([0], rest)
      | [] => some ([0], rest)
    else if c.isDigit then some (parseDigits (c :: rest))
    else none

/-- The digits after the point, at least one, if there is a point. -/
def parseFraction : List Char → Option (List Nat × List Char)
  | '.' :: rest =>
    match parseDigits rest with
    | ([], _) => none
    | (digits, rest) => some (digits, rest)
  | cs => some ([], cs)

/-- The exponent after its letter: a sign or none, and at least one digit. -/
def parseExponentDigits (negative : Bool) (cs : List Char) :
    Option (Option (Bool × List Nat) × List Char) :=
  match parseDigits cs with
  | ([], _) => none
  | (digits, rest) => some (some (negative, digits), rest)

/-- The exponent, if there is one. -/
def parseExponent : List Char → Option (Option (Bool × List Nat) × List Char)
  | [] => some (none, [])
  | c :: rest =>
    if c == 'e' || c == 'E' then
      match rest with
      | '+' :: rest => parseExponentDigits false rest
      | '-' :: rest => parseExponentDigits true rest
      | rest => parseExponentDigits false rest
    else some (none, c :: rest)

/-- A number without its sign. -/
def parseMagnitude (negative : Bool) (cs : List Char) : Option (NumberText × List Char) := do
  let (whole, cs) ← parseWhole cs
  let (fraction, cs) ← parseFraction cs
  let (exponent, cs) ← parseExponent cs
  return (⟨negative, whole, fraction, exponent⟩, cs)

/-- A number. -/
def parseNumber : List Char → Option (NumberText × List Char)
  | '-' :: rest => parseMagnitude true rest
  | cs => parseMagnitude false cs

/-! ## Values -/

mutual

/-- A value at the beginning of a text, and the rest. Every two steps take a character, so twice the
length of the text is fuel enough. -/
def parseValue : (fuel : Nat) → List Char → Option (Tree × List Char)
  | 0, _ => none
  | _ + 1, 'n' :: 'u' :: 'l' :: 'l' :: rest => some (.null, rest)
  | _ + 1, 't' :: 'r' :: 'u' :: 'e' :: rest => some (.bool true, rest)
  | _ + 1, 'f' :: 'a' :: 'l' :: 's' :: 'e' :: rest => some (.bool false, rest)
  | _ + 1, '"' :: rest => (parseString rest).map fun (s, r) => (.text s, r)
  | fuel + 1, '[' :: rest =>
    match skipSpace rest with
    | ']' :: rest => some (.array [], rest)
    | cs => (parseItems fuel cs).map fun (items, r) => (.array items, r)
  | fuel + 1, '{' :: rest =>
    match skipSpace rest with
    | '}' :: rest => some (.object [], rest)
    | cs => (parseMembers fuel cs).map fun (members, r) => (.object members, r)
  | _ + 1, cs => (parseNumber cs).map fun (t, r) => (.number t, r)

/-- The items of an array from the first one to the closing bracket. -/
def parseItems : (fuel : Nat) → List Char → Option (List Tree × List Char)
  | 0, _ => none
  | fuel + 1, cs =>
    match parseValue fuel cs with
    | none => none
    | some (v, cs) =>
      match skipSpace cs with
      | ']' :: rest => some ([v], rest)
      | ',' :: rest => (parseItems fuel (skipSpace rest)).map fun (vs, r) => (v :: vs, r)
      | _ => none

/-- The members of an object from the first one to the closing brace. -/
def parseMembers : (fuel : Nat) → List Char → Option (List (Option String × Tree) × List Char)
  | 0, _ => none
  | fuel + 1, '"' :: cs =>
    match parseString cs with
    | none => none
    | some (key, cs) =>
      match skipSpace cs with
      | ':' :: cs =>
        match parseValue fuel (skipSpace cs) with
        | none => none
        | some (v, cs) =>
          match skipSpace cs with
          | '}' :: rest => some ([(key, v)], rest)
          | ',' :: rest => (parseMembers fuel (skipSpace rest)).map fun (ms, r) => ((key, v) :: ms, r)
          | _ => none
      | _ => none
  | _ + 1, _ => none

end

/-- The tree of a text that is one value with blanks around it. -/
def Tree.parseChars? (cs : List Char) : Option Tree :=
  match parseValue (2 * cs.length + 2) (skipSpace cs) with
  | some (t, rest) => if (skipSpace rest).isEmpty then some t else none
  | none => none

/-- The tree of a text that is one value with blanks around it. -/
def Tree.parse? (s : String) : Option Tree := Tree.parseChars? s.toList

/-- The value of a text. -/
def parse? (s : String) : Option Json := (Tree.parse? s).bind (Tree.value? maxLevels)

end TypedEntities.Json
