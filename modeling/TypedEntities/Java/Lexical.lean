import TypedEntities.Text.Accent

/-!
# Java identifiers and string literals from free text

Display names and server names are free text. Three forms of identifier are made from them: the
upper-case constant of an enumeration (`constantName`), the name of a type (`typeName`) and the name
of a member (`memberName`). Each reads the text without its accents and keeps ASCII letters and
digits only. `literalBody` writes a text as it is, so that it stands between the double quotes of a
string literal.
-/

namespace TypedEntities.Java

open TypedEntities.Text

/-- Letters, digits and the underscore, of ASCII alone: what an identifier here is made of. -/
def isWordChar (c : Char) : Bool := c.isAlphanum || c == '_'

/-- An underscore goes in front of a leading digit, since no identifier starts with one. -/
def guardDigit : List Char → List Char
  | [] => []
  | c :: rest => if c.isDigit then '_' :: c :: rest else c :: rest

/-! ## Constants -/

/-- Two underscores stand for the empty name and for the single underscore, neither of which is an
identifier. -/
def replaceLone (name : List Char) : List Char :=
  if name = [] ∨ name = ['_'] then ['_', '_'] else name

/-- The constant for a display name: without accents, upper case, and with an underscore for
everything that no identifier may hold. -/
def constantChars (text : List Char) : List Char :=
  replaceLone <|
    (guardDigit ((stripAccents text).map fun c => if isWordChar c then c else '_')).map Char.toUpper

/-- The enumeration constant for a display name. -/
def constantName (text : String) : String := String.ofList (constantChars text.toList)

/-! ## Types and members -/

/-- Letters and digits with the first of each run in upper case. `start` says whether the next
character is the first of its run. -/
def capitalizeRuns : Bool → List Char → List Char
  | _, [] => []
  | start, c :: rest =>
    if c.isAlphanum then (if start then c.toUpper else c) :: capitalizeRuns false rest
    else capitalizeRuns true rest

/-- The name of the type for a server name. -/
def typeChars (text : List Char) : List Char :=
  guardDigit (capitalizeRuns true (stripAccents text))

/-- The name of the type for a server name: its runs of letters and digits, each with a capital.
The name is empty if there is no such run. -/
def typeName (text : String) : String := String.ofList (typeChars text.toList)

/-- The words that Java keeps for itself: no member may be named so. -/
def reservedWords : List String :=
  ["abstract", "assert", "boolean", "break", "byte", "case", "catch", "char", "class", "const",
   "continue", "default", "do", "double", "else", "enum", "extends", "final", "finally", "float",
   "for", "goto", "if", "implements", "import", "instanceof", "int", "interface", "long", "native",
   "new", "package", "private", "protected", "public", "return", "short", "static", "strictfp",
   "super", "switch", "synchronized", "this", "throw", "throws", "transient", "try", "void",
   "volatile", "while", "true", "false", "null"]

/-- A type name with its first letter in lower case; `field_` for the empty type name. -/
def lowerFirst : List Char → List Char
  | [] => "field_".toList
  | c :: rest => c.toLower :: rest

/-- The name of the member for a field: the type name with a small first letter, and an underscore
after a reserved word. -/
def memberName (text : String) : String :=
  let name := String.ofList (lowerFirst (typeChars text.toList))
  if name ∈ reservedWords then name.push '_' else name

/-! ## String literals -/

/-- How one character is written between double quotes. -/
def escapeChar : Char → List Char
  | '\\' => ['\\', '\\']
  | '"' => ['\\', '"']
  | '\n' => ['\\', 'n']
  | '\r' => ['\\', 'r']
  | '\t' => ['\\', 't']
  | c => [c]

/-- A text as it stands between the double quotes of a Java string literal. -/
def literalBody (text : String) : String := String.ofList (text.toList.flatMap escapeChar)

end TypedEntities.Java
