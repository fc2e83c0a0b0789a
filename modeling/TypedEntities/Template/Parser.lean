import TypedEntities.Template.Syntax

/-!
# Reading templates

`parse?` reads the text of a template in three steps: into text and tags, where a tag stands in double
braces; into laid out text, where a tag of a block that is alone on its line takes the line with it;
and into nodes, where every block has to be closed by its own name.
-/

namespace TypedEntities.Template

/-- What stands in double braces. -/
inductive Tag
  | opens (kind : BlockKind) (subject : Expr)
  /-- Begins the second part of a block. -/
  | otherwise
  | closes (kind : BlockKind)
  | shows (expr : Expr)
deriving Repr, Inhabited

/-- A stretch of text, or a tag. -/
inductive Token
  | text (chars : List Char)
  | tag (tag : Tag)
deriving Repr, Inhabited

/-! ## Expressions -/

/-- A word of a tag. -/
inductive Word
  | opening
  | closing
  | literal (text : List Char)
  | name (text : List Char)
deriving Repr, Inhabited

/-- Blanks inside a line. -/
def isLineSpace (c : Char) : Bool := c == ' ' || c == '\t'

def isTagSpace (c : Char) : Bool := isLineSpace c || c == '\n' || c == '\r'

/-- Characters of names; points and slashes separate their keys. -/
def isNameChar (c : Char) : Bool :=
  c.isAlphanum || 0x80 ≤ c.toNat || ['_', '-', '$', ':', '@', '.', '/'].contains c

/-- The words read so far, the last one first, with the text of an open literal or name. -/
structure WordScan where
  words : List Word
  literal : Option (List Char)
  name : List Char

/-- The scan after the end of a name. -/
def WordScan.endName (s : WordScan) : WordScan :=
  if s.name.isEmpty then s else { s with words := .name s.name.reverse :: s.words, name := [] }

/-- The scan after one more character, if it may stand there. -/
def WordScan.step (s : WordScan) (c : Char) : Option WordScan :=
  match s.literal with
  | some chars =>
    if c = '"' then some ⟨.literal chars.reverse :: s.words, none, []⟩
    else some { s with literal := some (c :: chars) }
  | none =>
    if isNameChar c then some { s with name := c :: s.name }
    else
      let s := s.endName
      if isTagSpace c then some s
      else if c = '(' then some { s with words := .opening :: s.words }
      else if c = ')' then some { s with words := .closing :: s.words }
      else if c = '"' then some { s with literal := some [] }
      else none

/-- The words of a tag. -/
def words? (cs : List Char) : Option (List Word) := do
  let s ← cs.foldlM WordScan.step ⟨[], none, []⟩
  if s.literal.isSome then none else some s.endName.words.reverse

/-- A path: steps out of loops, then keys. -/
def path? (keys : List (List Char)) : Option Expr :=
  let outer := keys.takeWhile (· = ['.', '.'])
  let inner := keys.drop outer.length
  let inner := if inner.head? = some "this".toList then inner.tail else inner
  if inner.any fun key => key.isEmpty || key.contains '@' || key = ['.', '.'] then none
  else some (.path outer.length (inner.map String.ofList))

/-- The keys of a path, separated by points and slashes; two points are a step out of a loop. -/
def splitKeys : List Char → List (List Char)
  | '.' :: '.' :: '/' :: rest => ['.', '.'] :: splitKeys rest
  | ['.', '.'] => [['.', '.']]
  | cs => cs.splitOnP fun c => c == '.' || c == '/'

/-- The expression that a name is. -/
def nameExpr? (name : List Char) : Option Expr :=
  match String.ofList name with
  | "@index" => some (.loop .index)
  | "@first" => some (.loop .first)
  | "@last" => some (.loop .last)
  | "@key" => some (.loop .key)
  | _ => path? (splitKeys name)

/-- The functions of templates. -/
def functions : List String := ["java_string", "eq"]

/-- The call that a list of expressions is: a function and its arguments. -/
def call? : List Expr → Option Expr
  | .path 0 [function] :: arguments => some (.call function arguments)
  | _ => none

/-- The expression that the words of a place are: a value, or a function with arguments. -/
def place? : List Expr → Option Expr
  | [.path 0 [name]] => if name ∈ functions then some (.call name []) else some (.path 0 [name])
  | [e] => some e
  | es => call? es

/-- Puts an expression at the end of the innermost open list. -/
def addExpr (lists : List (List Expr)) (e : Expr) : Option (List (List Expr)) :=
  match lists with
  | [] => none
  | es :: outer => some ((es ++ [e]) :: outer)

/-- Reads one word into the lists of expressions that are open, the innermost first. -/
def addWord (lists : List (List Expr)) : Word → Option (List (List Expr))
  | .opening => some ([] :: lists)
  | .closing =>
    match lists with
    | es :: outer => (call? es).bind (addExpr outer)
    | [] => none
  | .literal text => addExpr lists (.literal (String.ofList text))
  | .name text => (nameExpr? text).bind (addExpr lists)

/-- The expression that words are. -/
def exprOfWords? (words : List Word) : Option Expr := do
  match ← words.foldlM addWord [[]] with
  | [es] => place? es
  | _ => none

/-! ## Tags -/

/-- The kind of block with a name. -/
def kindNamed? (name : List Char) : Option BlockKind :=
  match String.ofList name with
  | "if" => some .ifHolds
  | "unless" => some .ifNot
  | "each" => some .forEach
  | _ => none

/-- The tag that the text between double braces is. -/
def tag? (cs : List Char) : Option Tag :=
  match cs.dropWhile isTagSpace with
  | '#' :: rest => do
    match ← words? rest with
    | .name name :: subject =>
      let kind ← kindNamed? name
      let subject ← exprOfWords? subject
      return .opens kind subject
    | _ => none
  | '/' :: rest => do
    match ← words? rest with
    | [.name name] => (kindNamed? name).map .closes
    | _ => none
  | rest => do
    match ← words? rest with
    | [.name ['e', 'l', 's', 'e']] => some .otherwise
    | words => (exprOfWords? words).map .shows

/-- Splits before and after the first pair of the given character; `none` if there is no pair. -/
def splitPair? (c : Char) : List Char → Option (List Char × List Char)
  | a :: b :: rest =>
    if a = c ∧ b = c then some ([], rest)
    else (splitPair? c (b :: rest)).map fun (before, after) => (a :: before, after)
  | _ => none

theorem length_of_splitPair? {c : Char} {cs before after : List Char}
    (h : splitPair? c cs = some (before, after)) : after.length < cs.length := by
  fun_induction splitPair? c cs generalizing before with
  | case1 a b rest _ =>
    simp only [Option.some.injEq, Prod.mk.injEq] at h
    obtain ⟨rfl, rfl⟩ := h
    simp only [List.length_cons]
    omega
  | case2 a b rest _ ih =>
    obtain ⟨⟨x, y⟩, hxy, hp⟩ := Option.map_eq_some_iff.1 h
    cases hp
    have := ih hxy
    simp only [List.length_cons] at this ⊢
    omega
  | case3 => simp at h

/-- The token of a text, if the text is not empty. -/
def textToken (cs : List Char) : List Token := if cs.isEmpty then [] else [.text cs]

/-- The text and the tags of a template. -/
def tokens? (cs : List Char) : Option (List Token) :=
  match _h : splitPair? '{' cs with
  | none => some (textToken cs)
  | some (before, rest) =>
    match _h' : splitPair? '}' rest with
    | none => none
    | some (inside, rest') => do
      let tag ← tag? inside
      let tokens ← tokens? rest'
      return textToken before ++ .tag tag :: tokens
termination_by cs.length
decreasing_by
  have := length_of_splitPair? ‹splitPair? '{' cs = _›
  have := length_of_splitPair? ‹splitPair? '}' rest = _›
  omega

/-! ## Lines -/

/-- Whether a tag belongs to the structure of a block and shows nothing itself. -/
def Tag.isStructure : Tag → Bool
  | .shows _ => false
  | _ => true

/-- Text without the blanks at its start and the line break after them. -/
def dropLineRest (cs : List Char) : List Char :=
  match cs.dropWhile isLineSpace with
  | '\r' :: '\n' :: rest => rest
  | '\n' :: rest => rest
  | rest => rest

/-- Text without the blanks at its end. -/
def dropIndent (cs : List Char) : List Char := (cs.reverse.dropWhile isLineSpace).reverse

/-- Whether there are only blanks between the last line break and the end of a text, or in all of it
if it starts a line. -/
def endsAtLineStart (startsLine : Bool) (cs : List Char) : Bool :=
  match cs.reverse.dropWhile isLineSpace with
  | [] => startsLine
  | c :: _ => c == '\n' || c == '\r'

/-- Whether there are only blanks up to the next line break or the end of the template. -/
def restOfLineIsBlank : List Token → Bool
  | [] => true
  | .text cs :: rest =>
    match cs.dropWhile isLineSpace with
    | [] => rest.isEmpty
    | c :: _ => c == '\n' || c == '\r'
  | .tag _ :: _ => false

/-- Whether what follows a place is a tag of a block, alone on its line. -/
def standsAlone (startsLine : Bool) : List Token → Bool
  | .tag t :: rest => t.isStructure && startsLine && restOfLineIsBlank rest
  | _ => false

/-- The tokens without the rest of the lines on which tags of blocks are alone. `startsLine` says
whether there are only blanks before the place on its line, `afterTag` whether such a tag is there. -/
def layOut (startsLine afterTag : Bool) : List Token → List Token
  | [] => []
  | .text cs :: rest =>
    let startsLine := endsAtLineStart startsLine cs
    let cs := if afterTag then dropLineRest cs else cs
    let cs := if standsAlone startsLine rest then dropIndent cs else cs
    .text cs :: layOut startsLine false rest
  | .tag t :: rest => .tag t :: layOut false (standsAlone startsLine (.tag t :: rest)) rest

/-! ## Nodes -/

/-- A block that is not closed yet, with the nodes of its first part if the second has begun. -/
structure OpenBlock where
  kind : BlockKind
  subject : Expr
  first : Option (List Node)
  /-- The nodes read so far around the block. -/
  outer : List Node

/-- The nodes of the innermost open part, the last one first, and the open blocks. -/
structure NodeScan where
  nodes : List Node
  blocks : List OpenBlock

/-- The node of a block that is closed after the given nodes. -/
def OpenBlock.close (b : OpenBlock) (nodes : List Node) : Node :=
  match b.first with
  | none => .block b.kind b.subject nodes none
  | some first => .block b.kind b.subject first (some nodes)

/-- Reads one token. -/
def NodeScan.step (s : NodeScan) : Token → Option NodeScan
  | .text cs => some { s with nodes := .text (String.ofList cs) :: s.nodes }
  | .tag (.shows e) => some { s with nodes := .value e :: s.nodes }
  | .tag (.opens kind subject) => some ⟨[], ⟨kind, subject, none, s.nodes⟩ :: s.blocks⟩
  | .tag .otherwise =>
    match s.blocks with
    | ⟨kind, subject, none, outer⟩ :: blocks =>
      some ⟨[], ⟨kind, subject, some s.nodes.reverse, outer⟩ :: blocks⟩
    | _ => none
  | .tag (.closes kind) =>
    match s.blocks with
    | b :: blocks =>
      if b.kind = kind then some ⟨b.close s.nodes.reverse :: b.outer, blocks⟩ else none
    | [] => none

/-- The template that a text is. -/
def parse? (source : String) : Option (List Node) := do
  let tokens ← tokens? source.toList
  let s ← (layOut true false tokens).foldlM NodeScan.step ⟨[], []⟩
  if s.blocks.isEmpty then some s.nodes.reverse else none

end TypedEntities.Template
