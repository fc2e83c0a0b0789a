/-!
# Templates

A template is text with places that are filled from a context, a JSON value. Places hold values;
blocks show a part of the template on a condition or once for each item of a list.
-/

namespace TypedEntities.Template

/-- What is known about the round of the innermost loop. -/
inductive LoopVariable
  | index
  | first
  | last
  /-- The key of the member, in a loop over an object. -/
  | key
deriving DecidableEq, Repr, Inhabited

/-- What a place is filled with. -/
inductive Expr
  /-- The value below the context that `up` loops further out have, by keys. -/
  | path (up : Nat) (keys : List String)
  | loop (which : LoopVariable)
  | literal (text : String)
  /-- What a function makes of its arguments. -/
  | call (function : String) (arguments : List Expr)
deriving Repr, Inhabited

/-- What a block does with its parts. -/
inductive BlockKind
  /-- Shows the first part if the subject holds, else the second. -/
  | ifHolds
  /-- Shows the first part unless the subject holds, else the second. -/
  | ifNot
  /-- Shows the first part for each item of the subject, or the second if there is none. -/
  | forEach
deriving DecidableEq, Repr, Inhabited

/-- A piece of a template. -/
inductive Node
  | text (text : String)
  | value (expr : Expr)
  | block (kind : BlockKind) (subject : Expr) (body : List Node) (otherwise : Option (List Node))
deriving Repr, Inhabited

/-! ## Building templates -/

/-- The value of a key of the context. -/
def Expr.key (name : String) : Expr := .path 0 [name]

/-- The value of a key of the context that `up` loops further out have. -/
def Expr.outerKey (up : Nat) (name : String) : Expr := .path up [name]

/-- The value of an expression, as the body of a string literal. -/
def Expr.javaString (subject : Expr) : Expr := .call "java_string" [subject]

namespace Node

instance : Coe String Node := ⟨.text⟩

/-- Shows the value of a key. -/
def key (name : String) : Node := .value (.key name)

/-- Shows the value of a key of the value of another key. -/
def subkey (name inner : String) : Node := .value (.path 0 [name, inner])

/-- Shows the value of a key of the context that `up` loops further out have. -/
def outer (up : Nat) (name : String) : Node := .value (.outerKey up name)

/-- Shows the value of an expression in a string literal. -/
def quoted (subject : Expr) : Node := .value subject.javaString

/-- Shows a text after every round of a loop but the last. -/
def separator (text : String) : Node := .block .ifNot (.loop .last) [.text text] none

/-- A line made of parts. -/
def line (parts : List Node) : List Node := parts ++ [.text "\n"]

/-- Lines without places. -/
def lines (texts : List String) : List Node := texts.map fun t => .text (t ++ "\n")

/-- Lines without places, after an indentation where they are not empty. -/
def indented (indent : String) (texts : List String) : List Node :=
  lines (texts.map fun t => if t = "" then t else indent ++ t)

/-- Nodes for each item of the list that a key has. -/
def each (name : String) (body : List Node) : List Node := [.block .forEach (.key name) body none]

/-- Nodes on the condition that the value of a key holds. -/
def onlyIf (name : String) (body : List Node) : List Node :=
  [.block .ifHolds (.key name) body none]

/-- Nodes on the condition that an expression has a text for its value. -/
def onlyIfEqual (subject : Expr) (text : String) (body : List Node) : List Node :=
  [.block .ifHolds (.call "eq" [subject, .literal text]) body none]

end Node

end TypedEntities.Template
