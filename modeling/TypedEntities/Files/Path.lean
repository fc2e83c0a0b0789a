import TypedEntities.Text.Basic

/-!
# Paths

A path is a text: names with slashes between. Slashes that repeat or stand at the end and single
points inside a path have no meaning; `Path.parts` is what remains. Paths are compared part by part,
which `Path.sortKey` makes an order of sequences of texts.
-/

namespace TypedEntities.Path

/-- A part of a path. -/
inductive Part
  /-- The slash at the start of an absolute path. -/
  | root
  /-- A single point at the start. -/
  | here
  /-- Two points: the directory above. -/
  | above
  | name (text : String)
deriving DecidableEq, Repr, Inhabited

/-- The part that a segment between slashes is, unless it has no meaning. -/
def Part.ofSegment? (segment : List Char) : Option Part :=
  match segment with
  | [] => none
  | ['.'] => none
  | ['.', '.'] => some .above
  | cs => some (.name (String.ofList cs))

/-- The segments of a path between slashes. -/
def segments (path : String) : List (List Char) := path.toList.splitOn '/'

/-- The parts of a path. -/
def parts (path : String) : List Part :=
  match segments path with
  | [] => []
  | first :: rest =>
    let start : List Part :=
      if first = [] then (if rest.isEmpty then [] else [.root])
      else if first = ['.'] then [.here]
      else (Part.ofSegment? first).toList
    start ++ rest.filterMap Part.ofSegment?

/-- A text that orders parts: first the root, then a point, then two points, then names. -/
def Part.sortKey : Part → String
  | .root => "0"
  | .here => "1"
  | .above => "2"
  | .name text => "3" ++ text

/-- What paths are compared by. Paths with one key are the same path. -/
def sortKey (path : String) : Texts := ⟨(parts path).map Part.sortKey⟩

/-- A path below another. One slash goes between, unless one is there; an absolute path stays as it
is. -/
def join (left right : String) : String :=
  if right.toList.head? = some '/' then right
  else if left = "" ∨ left.toList.getLast? = some '/' then left ++ right
  else left ++ "/" ++ right

/-- The text of segments. -/
def ofSegments (segments : List (List Char)) : String :=
  String.ofList (List.intercalate ['/'] segments)

/-- Whether a segment after the first has no meaning. -/
def isIdle (segment : List Char) : Bool := (Part.ofSegment? segment).isNone

/-- Segments in reverse without those at the end of the path that have no meaning. The first segment
of a path stays. -/
def dropIdle : List (List Char) → List (List Char)
  | [] => []
  | [first] => [first]
  | segment :: next :: rest =>
    if isIdle segment then dropIdle (next :: rest) else segment :: next :: rest

/-- The text of segments in reverse, the first of which may be the empty one before the root. -/
def ofReversed (segments : List (List Char)) : String :=
  if segments = [[]] then "/" else ofSegments segments.reverse

/-- The path without its last part; `none` if there is none to take away. -/
def parent? (path : String) : Option String :=
  match dropIdle (segments path).reverse with
  | [] => none
  | [first] => if first = [] then none else some ""
  | _ :: outer => some (ofReversed (dropIdle outer))

/-- The path without slashes and points at its end that have no meaning. -/
def trimmed (path : String) : String :=
  if path = "" then "" else ofReversed (dropIdle (segments path).reverse)

/-- Whether the path ends in a way that only a directory can. -/
def endsAsDirectory (path : String) : Bool :=
  match (segments path).reverse with
  | last :: _ :: _ => isIdle last
  | _ => false

/-- A name up to its last point, if there is one that does not start it. -/
def stem (name : List Char) : List Char :=
  match name.reverse.dropWhile (· ≠ '.') with
  | [] => name
  | _ :: before => if before.isEmpty then name else before.reverse

/-- The path with another extension: what follows the last point of its last name is exchanged. A
path that does not end in a name stays as it is. -/
def withExtension (path extension : String) : String :=
  match dropIdle (segments path).reverse with
  | last :: outer =>
    if isIdle last || last = ['.', '.'] then path
    else ofSegments ((stem last ++ '.' :: extension.toList) :: outer).reverse
  | [] => path

end TypedEntities.Path
