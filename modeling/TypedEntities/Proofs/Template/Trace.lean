import Mathlib
import TypedEntities.Proofs.Listing
import TypedEntities.Template.Render

/-!
# What of a rendered text is the template's

A rendered text is made of texts of the template and of values that were filled in. `trace?` keeps
them apart, piece by piece; put together, the pieces are the rendered text (`render?_eq`).
-/

namespace TypedEntities.Template

/-- A piece of a rendered text. -/
inductive Piece
  /-- A text of the template. -/
  | fixed (text : String)
  /-- The text of a value. -/
  | filled (text : String)
deriving DecidableEq, Repr

/-- The text of a piece, wherever it comes from. -/
def Piece.text : Piece → String
  | fixed text => text
  | filled text => text

/-- The text that pieces make. -/
def joined (pieces : List Piece) : String := String.join (pieces.map Piece.text)

mutual

/-- The pieces of which the text of a node is made. -/
def traceNode (frames : Frames) : Node → Option (List Piece)
  | .text text => some [.fixed text]
  | .value e => (eval? frames e).map fun v => [.filled (plainText v)]
  | .block .ifHolds subject body otherwise => do
    if ← condition? frames subject then traceNodes frames body
    else traceOtherwise frames otherwise
  | .block .ifNot subject body otherwise => do
    if ← condition? frames subject then traceOtherwise frames otherwise
    else traceNodes frames body
  | .block .forEach subject body otherwise =>
    match (eval? frames subject).bind rounds? with
    | some [] => traceOtherwise frames otherwise
    | some rounds =>
      (rounds.mapM fun frame => traceNodes (frame :: frames) body).map List.flatten
    | none => if otherwise.isSome then traceOtherwise frames otherwise else none

/-- The pieces of nodes, one after the other. -/
def traceNodes (frames : Frames) : List Node → Option (List Piece)
  | [] => some []
  | node :: rest => do
    let first ← traceNode frames node
    let others ← traceNodes frames rest
    return first ++ others

/-- The pieces of the second part of a block. -/
def traceOtherwise (frames : Frames) : Option (List Node) → Option (List Piece)
  | none => some []
  | some nodes => traceNodes frames nodes

end

/-- The pieces of a template in a context. -/
def trace? (template : List Node) (context : Json) : Option (List Piece) :=
  traceNodes [⟨context, []⟩] template

/-! ## The text of the pieces -/

/-- Pieces are joined in their order. -/
theorem joined_append (ps qs : List Piece) : joined (ps ++ qs) = joined ps ++ joined qs := by
  simp [joined, String.join_append]

theorem joined_flatten (pss : List (List Piece)) :
    joined pss.flatten = String.join (pss.map joined) := by
  induction pss with
  | nil => rfl
  | cons ps pss ih =>
    rw [List.flatten_cons, joined_append, ih, List.map_cons, String.join_cons]

mutual

theorem renderNode_eq (frames : Frames) (node : Node) :
    renderNode frames node = (traceNode frames node).map joined := by
  match node with
  | .text text => simp [renderNode, traceNode, joined, Piece.text]
  | .value e =>
    rw [renderNode, traceNode]
    cases eval? frames e <;> simp [joined, Piece.text]
  | .block .ifHolds subject body otherwise =>
    rw [renderNode, traceNode]
    cases condition? frames subject with
    | none => rfl
    | some b =>
      cases b with
      | true => exact renderNodes_eq frames body
      | false => exact renderOtherwise_eq frames otherwise
  | .block .ifNot subject body otherwise =>
    rw [renderNode, traceNode]
    cases condition? frames subject with
    | none => rfl
    | some b =>
      cases b with
      | true => exact renderOtherwise_eq frames otherwise
      | false => exact renderNodes_eq frames body
  | .block .forEach subject body otherwise =>
    rw [renderNode, traceNode]
    generalize (eval? frames subject).bind rounds? = rounds
    match rounds with
    | some [] => exact renderOtherwise_eq frames otherwise
    | some (first :: rest) =>
      have hrounds : (fun frame => renderNodes (frame :: frames) body)
          = fun frame => (traceNodes (frame :: frames) body).map joined :=
        funext fun frame => renderNodes_eq (frame :: frames) body
      have hjoin : joined ∘ List.flatten = String.join ∘ List.map joined := funext joined_flatten
      simp only [hrounds, mapM_map, Option.map_map, hjoin]
    | none =>
      cases otherwise with
      | none => rfl
      | some nodes => exact renderNodes_eq frames nodes

/-- What is rendered is what the traced pieces join to, or nothing where nothing is traced. -/
theorem renderNodes_eq (frames : Frames) (nodes : List Node) :
    renderNodes frames nodes = (traceNodes frames nodes).map joined := by
  match nodes with
  | [] => rfl
  | node :: rest =>
    rw [renderNodes, traceNodes, renderNode_eq frames node, renderNodes_eq frames rest]
    cases traceNode frames node with
    | none => rfl
    | some first =>
      cases traceNodes frames rest with
      | none => rfl
      | some others => exact congrArg some (joined_append first others).symm

theorem renderOtherwise_eq (frames : Frames) (otherwise : Option (List Node)) :
    renderOtherwise frames otherwise = (traceOtherwise frames otherwise).map joined := by
  match otherwise with
  | none => rfl
  | some nodes => exact renderNodes_eq frames nodes

end

/-- **The rendered text is made of the pieces.** -/
theorem render?_eq (template : List Node) (context : Json) :
    render? template context = (trace? template context).map joined :=
  renderNodes_eq _ template

end TypedEntities.Template
