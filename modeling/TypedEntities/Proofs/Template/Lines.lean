import Mathlib
import TypedEntities.Proofs.Listing
import TypedEntities.Template.Render

/-!
# Lines of rendered texts

Which lines a template prints is put together from its parts: one after the other (`Prints.append`),
texts without places (`prints_lines`), a line with places (`prints_line`), lines on a condition
(`prints_onlyIf`), and lines for each item of a list, of which the last may differ (`prints_each`).
-/

namespace TypedEntities.Template

/-- Lines as one text. Each ends with a line feed. -/
def lineText (ls : List String) : String := String.join (ls.map (· ++ "\n"))

/-- Nodes are rendered as whole lines. -/
def Prints (frames : Frames) (nodes : List Node) (ls : List String) : Prop :=
  renderNodes frames nodes = some (lineText ls)

variable {frames : Frames} {nodes nodes' : List Node} {ls ls' : List String}

theorem lineText_append (ls ls' : List String) :
    lineText (ls ++ ls') = lineText ls ++ lineText ls' := by
  simp [lineText, String.join_append]

/-- Nodes are rendered one after the other. -/
theorem renderNodes_append (frames : Frames) (nodes nodes' : List Node) :
    renderNodes frames (nodes ++ nodes') = (renderNodes frames nodes).bind fun text =>
      (renderNodes frames nodes').map (text ++ ·) := by
  induction nodes with
  | nil =>
    rw [List.nil_append, renderNodes, Option.bind_some]
    cases renderNodes frames nodes' <;> simp
  | cons node nodes ih =>
    rw [List.cons_append, renderNodes, renderNodes, ih]
    cases renderNode frames node with
    | none => rfl
    | some first =>
      cases renderNodes frames nodes with
      | none => rfl
      | some others =>
        cases renderNodes frames nodes' with
        | none => rfl
        | some rest => exact congrArg some (String.append_assoc ..).symm

/-! ## Parts of templates -/

/-- A condition that has a value holds if the value does. -/
theorem condition?_of_eval? {e : Expr} {v : Json} (h : eval? frames e = some v) :
    condition? frames e = some (holds v) := by
  cases e <;> simp [condition?, h]

/-- The text of nodes is made of the texts of each. -/
theorem renderNodes_of_forall₂ {texts : List String}
    (h : List.Forall₂ (fun node text => renderNode frames node = some text) nodes texts) :
    renderNodes frames nodes = some (String.join texts) := by
  induction h with
  | nil => rfl
  | cons hfirst _ ih =>
    rw [renderNodes, hfirst, ih, String.join_cons]
    rfl

/-- A separator is shown after every round but the last. -/
theorem render_separator {last : Bool} (hlast : eval? frames (.loop .last) = some (.bool last))
    (text : String) :
    renderNode frames (Node.separator text) = some (if last then "" else text) := by
  rw [Node.separator, renderNode, condition?_of_eval? hlast]
  cases last with
  | true => rfl
  | false => simp [holds, renderNodes, renderNode]

/-- What is printed one after the other is printed together. -/
theorem Prints.append (h : Prints frames nodes ls) (h' : Prints frames nodes' ls') :
    Prints frames (nodes ++ nodes') (ls ++ ls') := by
  rw [Prints, renderNodes_append, h, h', lineText_append]
  rfl

theorem prints_nil (frames : Frames) : Prints frames [] [] := rfl

/-- A line is printed as the text of its parts. -/
theorem prints_line {parts : List Node} {text : String} (h : renderNodes frames parts = some text) :
    Prints frames (Node.line parts) [text] := by
  rw [Prints, Node.line, renderNodes_append, h]
  simp [renderNodes, renderNode, lineText]

/-- A line with one place. -/
theorem prints_around {node : Node} {value : String} (h : renderNode frames node = some value)
    (before after : String) :
    Prints frames (Node.line [.text before, node, .text after]) [before ++ value ++ after] := by
  refine prints_line ?_
  simp [renderNodes, renderNode, h, String.append_assoc]

/-- Fixed lines are printed as they stand. -/
theorem prints_lines (frames : Frames) (texts : List String) :
    Prints frames (Node.lines texts) texts := by
  induction texts with
  | nil => exact prints_nil frames
  | cons text texts ih =>
    have hfirst : Prints frames [.text (text ++ "\n")] [text] := by
      simp [Prints, renderNodes, renderNode, lineText]
    exact hfirst.append ih

/-- Lines on a condition. -/
theorem prints_onlyIf {name : String} {b : Bool} {body : List Node}
    (hb : eval? frames (.key name) = some (.bool b)) (h : Prints frames body ls) :
    Prints frames (Node.onlyIf name body) (if b then ls else []) := by
  rw [Prints, Node.onlyIf, renderNodes, renderNode, condition?_of_eval? hb]
  cases b with
  | true =>
    rw [Prints] at h
    simp [holds, h, renderNodes]
  | false => simp [holds, renderOtherwise, renderNodes, lineText]

/-! ## Loops -/

/-- What is made of the items of a list, one after the other, when the last is treated apart. -/
def flatMapLast {α β : Type} (f : α → (last : Bool) → List β) : List α → List β
  | [] => []
  | [a] => f a true
  | a :: b :: rest => f a false ++ flatMapLast f (b :: rest)

theorem flatMapLast_map {α β γ : Type} (f : β → Bool → List γ) (g : α → β) (l : List α) :
    flatMapLast f (l.map g) = flatMapLast (fun a => f (g a)) l := by
  fun_induction flatMapLast (fun a => f (g a)) l with
  | case1 => rfl
  | case2 a => rfl
  | case3 a b rest ih => exact congrArg (f (g a) false ++ ·) ih

theorem mem_of_mem_flatMapLast {α β : Type} {f : α → Bool → List β} {l : List α} {b : β}
    (h : b ∈ flatMapLast f l) : ∃ a ∈ l, ∃ last, b ∈ f a last := by
  fun_induction flatMapLast f l with
  | case1 => cases h
  | case2 a => exact ⟨a, List.mem_singleton_self a, true, h⟩
  | case3 a b' rest ih =>
    rcases List.mem_append.mp h with h | h
    · exact ⟨a, List.mem_cons_self .., false, h⟩
    · obtain ⟨a', ha', last, hb⟩ := ih h
      exact ⟨a', List.mem_cons_of_mem a ha', last, hb⟩

/-- The last item is told by its place. -/
theorem flatMap_zipIdx_eq {α β : Type} (f : α → Bool → List β) (l : List α) (n : Nat) :
    (l.zipIdx n).flatMap (fun p => f p.1 (p.2 + 1 == n + l.length)) = flatMapLast f l := by
  induction l generalizing n with
  | nil => rfl
  | cons a rest ih =>
    have hrest : n + (a :: rest).length = n + 1 + rest.length := by
      rw [List.length_cons]
      omega
    rw [List.zipIdx_cons, List.flatMap_cons, hrest, ih (n + 1)]
    cases rest with
    | nil => simp [flatMapLast]
    | cons b rest =>
      have hfalse : (n + 1 == n + 1 + (b :: rest).length) = false := by simp
      rw [hfalse]
      rfl

/-- The rounds of a loop print their lines in turn. -/
theorem map_mapM_rounds {ρ : Type} {frame : ρ → Frame} {rounds : List ρ} {body : List Node}
    {f : ρ → List String} (h : ∀ r ∈ rounds, Prints (frame r :: frames) body (f r)) :
    ((rounds.map frame).mapM fun r => renderNodes (r :: frames) body).map String.join
      = some (lineText (rounds.flatMap f)) := by
  induction rounds with
  | nil => rfl
  | cons r rounds ih =>
    obtain ⟨hfirst, hrest⟩ := List.forall_mem_cons.mp h
    obtain ⟨texts, htexts, hjoin⟩ := Option.map_eq_some_iff.mp (ih hrest)
    have hall : ((r :: rounds).map frame).mapM (fun r => renderNodes (r :: frames) body)
        = some (lineText (f r) :: texts) := mapM_cons_eq_some.mpr ⟨_, texts, rfl, hfirst, htexts⟩
    rw [hall, List.flatMap_cons, lineText_append, ← hjoin]
    exact congrArg some (String.join_cons ..)

/-- The lines of a loop over a list, item by item; a round knows whether it is the last. -/
theorem prints_each {α : Type} {toJson : α → Json} {l : List α} {name : String} {body : List Node}
    {f : α → Bool → List String}
    (hitems : eval? frames (.key name) = some (.array (l.map toJson)))
    (h : ∀ a ∈ l, ∀ known last,
      eval? (⟨toJson a, known⟩ :: frames) (.loop .last) = some (.bool last) →
      Prints (⟨toJson a, known⟩ :: frames) body (f a last)) :
    Prints frames (Node.each name body) (flatMapLast f l) := by
  -- the last round is the one whose number is the number of items
  have hrounds : (eval? frames (.key name)).bind rounds?
      = some (l.zipIdx.map fun p => itemFrame l.length (toJson p.1, p.2)) := by
    rw [hitems, Option.bind_some, rounds?, List.zipIdx_map, List.map_map, List.length_map]
    rfl
  have hround : ∀ p ∈ l.zipIdx, Prints (itemFrame l.length (toJson p.1, p.2) :: frames) body
      (f p.1 (p.2 + 1 == 0 + l.length)) := fun p hp =>
    h p.1 (List.fst_mem_of_mem_zipIdx hp) _ _ (by rw [Nat.zero_add]; rfl)
  have hall := map_mapM_rounds hround
  rw [flatMap_zipIdx_eq f l 0] at hall
  rw [Prints, Node.each, renderNodes, renderNode, hrounds]
  cases l with
  | nil => rfl
  | cons a rest =>
    rw [List.zipIdx_cons] at hall ⊢
    rw [List.map_cons] at hall ⊢
    simp only [hall, renderNodes]
    simp

end TypedEntities.Template
