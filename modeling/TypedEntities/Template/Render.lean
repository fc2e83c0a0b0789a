import TypedEntities.Java.Lexical
import TypedEntities.Json.Value
import TypedEntities.Template.Syntax

/-!
# Rendering templates

Rendering fills a template from a context. It is strict: a place whose value is not there makes the
whole rendering fail, and so does a loop over something that is neither a list nor an object.
-/

namespace TypedEntities.Template

/-- The context of a loop: the item of this round and what is known about the round. -/
structure Frame where
  context : Json
  known : List (LoopVariable × Json)
deriving Inhabited

/-- The frames of the loops around a place, the innermost first, and last the context of the whole
template. -/
abbrev Frames := List Frame

/-- The value of a key of a value: a member of an object or, by its number, an item of a list. -/
def step? (v : Json) (key : String) : Option Json :=
  match v with
  | .array items => key.toNat?.bind fun n => items[n]?
  | v => v.member? key

/-- The value below a value by keys, one after the other. -/
def descend? (v : Json) (keys : List String) : Option Json := keys.foldlM step? v

mutual

/-- The text of a value. -/
def plainText : Json → String
  | .null => ""
  | .bool b => if b then "true" else "false"
  | .number n => n.text
  | .text s => s
  | .array items => "[" ++ plainItems items ++ "]"
  | .object _ => "[object]"

/-- The texts of items with commas between. -/
def plainItems : List Json → String
  | [] => ""
  | [v] => plainText v
  | v :: w :: rest => plainText v ++ ", " ++ plainItems (w :: rest)

end

/-- Whether a number counts as true: all but zero and the doubles too small for full precision. -/
def holdsNumber : Json.Number → Bool
  | .integer n => n ≠ 0
  | .double bits => bits.toNat / 0x10000000000000 % 0x800 ≠ 0

/-- Whether a value counts as true: all but null, false, zero and what is empty. -/
def holds : Json → Bool
  | .null => false
  | .bool b => b
  | .number n => holdsNumber n
  | .text s => s ≠ ""
  | .array items => !items.isEmpty
  | .object members => !members.isEmpty

mutual

/-- Whether two values are the same. -/
def sameValue : Json → Json → Bool
  | .null, .null => true
  | .bool a, .bool b => a == b
  | .number a, .number b => a == b
  | .text a, .text b => a == b
  | .array a, .array b => sameItems a b
  | .object a, .object b => sameMembers a b
  | _, _ => false

def sameItems : List Json → List Json → Bool
  | [], [] => true
  | v :: vs, w :: ws => sameValue v w && sameItems vs ws
  | _, _ => false

def sameMembers : List (String × Json) → List (String × Json) → Bool
  | [], [] => true
  | (k, v) :: vs, (l, w) :: ws => k == l && sameValue v w && sameMembers vs ws
  | _, _ => false

end

/-- What the functions of templates make of their arguments: `java_string` escapes a text for a
string literal, `eq` compares two values. -/
def result? (function : String) (arguments : List Json) : Option Json :=
  match function, arguments with
  | "java_string", [.text s] => some (.text (Java.literalBody s))
  | "eq", [a, b] => some (.bool (sameValue a b))
  | _, _ => none

mutual

/-- The value of an expression, if there is one. -/
def eval? (frames : Frames) : Expr → Option Json
  | .path up keys => frames[up]?.bind fun frame => descend? frame.context keys
  | .loop which =>
    frames.head?.bind fun frame =>
      (frame.known.find? fun entry => entry.1 = which).map Prod.snd
  | .literal text => some (.text text)
  | .call function arguments => (evalAll? frames arguments).bind (result? function)

/-- The values of expressions, if all have one. -/
def evalAll? (frames : Frames) : List Expr → Option (List Json)
  | [] => some []
  | e :: rest => do
    let v ← eval? frames e
    let vs ← evalAll? frames rest
    return v :: vs

end

/-- The value of the condition of a block. A path without a value does not hold; a function without
a value is a failure. -/
def condition? (frames : Frames) (e : Expr) : Option Bool :=
  match e with
  | .call .. => (eval? frames e).map holds
  | e => some (((eval? frames e).map holds).getD false)

/-- The frame of round `index` of `count` of a loop over a list. -/
def itemFrame (count : Nat) (item : Json × Nat) : Frame :=
  ⟨item.1, [(.index, .ofNat item.2), (.first, .bool (item.2 == 0)),
    (.last, .bool (item.2 + 1 == count))]⟩

/-- The frame of round `index` of `count` of a loop over an object. -/
def memberFrame (count : Nat) (member : (String × Json) × Nat) : Frame :=
  ⟨member.1.2, [(.key, .text member.1.1), (.first, .bool (member.2 == 0)),
    (.last, .bool (member.2 + 1 == count))]⟩

/-- The frames of the rounds of a loop over a value, unless it is neither a list nor an object. -/
def rounds? : Json → Option (List Frame)
  | .array items => some (items.zipIdx.map (itemFrame items.length))
  | .object members => some (members.zipIdx.map (memberFrame members.length))
  | _ => none

mutual

/-- The text of a piece of a template in a context, if all its places have values. -/
def renderNode (frames : Frames) : Node → Option String
  | .text text => some text
  | .value e => (eval? frames e).map plainText
  | .block .ifHolds subject body otherwise => do
    if ← condition? frames subject then renderNodes frames body
    else renderOtherwise frames otherwise
  | .block .ifNot subject body otherwise => do
    if ← condition? frames subject then renderOtherwise frames otherwise
    else renderNodes frames body
  | .block .forEach subject body otherwise =>
    match (eval? frames subject).bind rounds? with
    | some [] => renderOtherwise frames otherwise
    | some rounds =>
      (rounds.mapM fun frame => renderNodes (frame :: frames) body).map String.join
    | none => if otherwise.isSome then renderOtherwise frames otherwise else none

/-- The text of pieces, one after the other. -/
def renderNodes (frames : Frames) : List Node → Option String
  | [] => some ""
  | node :: rest => do
    let first ← renderNode frames node
    let others ← renderNodes frames rest
    return first ++ others

/-- The text of the second part of a block; none is the empty text. -/
def renderOtherwise (frames : Frames) : Option (List Node) → Option String
  | none => some ""
  | some nodes => renderNodes frames nodes

end

/-- The text of a template in a context. -/
def render? (template : List Node) (context : Json) : Option String :=
  renderNodes [⟨context, []⟩] template

end TypedEntities.Template
