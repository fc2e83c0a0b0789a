import Mathlib
import TypedEntities.Proofs.Listing
import TypedEntities.Template.Render

/-!
# Templates that fit their contexts

Rendering fails if a place of the template has no value in the context. `Shape` says what the context
of a template holds, whatever the texts in it and however long its lists. `Scope.admits` checks a
template against shapes alone, and `exists_render?` is what the check is good for: a template that it
admits can be rendered in every context of the shape.

The check knows which paths hold where it is, because the part of a block is only shown if the
condition does: a text that may be missing is there in the part that asks for it.
-/

namespace TypedEntities.Template

/-! ## Shapes -/

/-- What is known of a value. A record is its members, one inside the other. -/
inductive Shape
  /-- Nothing. -/
  | any
  | text
  /-- A text, or null. -/
  | optionalText
  | truth
  | list (item : Shape)
  /-- An object with a member, and what else is known of it. -/
  | member (key : String) (value others : Shape)
deriving DecidableEq, Repr

namespace Shape

/-- A value is as the shape says. -/
def Fits : Shape → Json → Prop
  | any, _ => True
  | text, v => ∃ s, v = .text s
  | optionalText, v => ∃ s, v = .ofText? s
  | truth, v => ∃ b, v = .bool b
  | list item, v => ∃ items, v = .array items ∧ ∀ w ∈ items, item.Fits w
  | member key value others, v => (∃ w, v.member? key = some w ∧ value.Fits w) ∧ others.Fits v

@[simp] theorem fits_any (v : Json) : any.Fits v := trivial

@[simp] theorem fits_text (s : String) : text.Fits (.text s) := ⟨s, rfl⟩

/-- A text that may be missing fits either way. -/
@[simp] theorem fits_optionalText (s : Option String) : optionalText.Fits (.ofText? s) := ⟨s, rfl⟩

@[simp] theorem fits_truth (b : Bool) : truth.Fits (.bool b) := ⟨b, rfl⟩

@[simp] theorem fits_member {key : String} {value others : Shape} {v : Json} :
    (member key value others).Fits v
      ↔ (∃ w, v.member? key = some w ∧ value.Fits w) ∧ others.Fits v := Iff.rfl

/-- A list fits if each entry does. -/
@[simp] theorem fits_list_map {α : Type} {item : Shape} {toJson : α → Json} {l : List α} :
    (list item).Fits (.array (l.map toJson)) ↔ ∀ a ∈ l, item.Fits (toJson a) := by
  constructor
  · intro h a ha
    obtain ⟨items, heq, hitems⟩ := h
    cases heq
    exact hitems _ (List.mem_map_of_mem ha)
  · intro h
    refine ⟨_, rfl, fun w hw => ?_⟩
    obtain ⟨a, ha, rfl⟩ := List.mem_map.mp hw
    exact h a ha

/-- An object with members of the given shapes. -/
def record (members : List (String × Shape)) : Shape :=
  members.foldr (fun m others => member m.1 m.2 others) any

/-- The shape of a member. -/
def find? (key : String) : Shape → Option Shape
  | member key' value others => if key' = key then some value else others.find? key
  | _ => none

/-- The shape of the value below by keys. -/
def descend? (s : Shape) (keys : List String) : Option Shape := keys.foldlM (fun s k => s.find? k) s

/-- A member that a shape knows is there. -/
theorem exists_step? {s inner : Shape} {v : Json} {key : String} (hv : s.Fits v)
    (h : s.find? key = some inner) : ∃ w, step? v key = some w ∧ inner.Fits w := by
  induction s with
  | member key' value others _ ih =>
    obtain ⟨⟨w, hw, hfits⟩, hothers⟩ := hv
    simp only [find?] at h
    split at h
    next hkey =>
      cases h
      refine ⟨w, ?_, hfits⟩
      rw [← hkey]
      -- only an object has members, so nothing else has the shape
      cases v with
      | object members => exact hw
      | _ => cases hw
    next => exact ih hothers h
  | _ => cases h

/-- What a shape has below some keys its values have there. -/
theorem exists_descend? {s inner : Shape} {v : Json} {keys : List String} (hv : s.Fits v)
    (h : s.descend? keys = some inner) :
    ∃ w, Template.descend? v keys = some w ∧ inner.Fits w := by
  induction keys generalizing s v with
  | nil =>
    cases h
    exact ⟨v, rfl, hv⟩
  | cons key keys ih =>
    obtain ⟨next, hnext, hrest⟩ := Option.bind_eq_some_iff.mp h
    obtain ⟨w, hw, hfits⟩ := exists_step? hv hnext
    obtain ⟨u, hu, hinner⟩ := ih hfits hrest
    exact ⟨u, Option.bind_eq_some_iff.mpr ⟨w, hw, hu⟩, hinner⟩

end Shape

/-! ## What is known at a place -/

/-- What is known at a place: the shapes of the contexts around it, the innermost first, each with
whether a loop goes round there, and the paths that hold. -/
structure Scope where
  contexts : List (Shape × Bool)
  held : List (Nat × List String)

/-- What is known of the round of a loop over a list. -/
def LoopVariable.shape? : LoopVariable → Option Shape
  | .index => some .any
  | .first | .last => some .truth
  | .key => none

/-- A frame has a context of the shape, and in a loop what is known about its round. -/
structure FrameFits (c : Shape × Bool) (frame : Frame) : Prop where
  context : c.1.Fits frame.context
  known : c.2 = true → ∀ which s, LoopVariable.shape? which = some s →
    ∃ v, (frame.known.find? fun entry => entry.1 = which).map Prod.snd = some v ∧ s.Fits v

/-- A function of templates makes something of arguments of the given shapes. -/
def resultShape? (function : String) (arguments : List Shape) : Option Shape :=
  match function, arguments with
  | "java_string", [.text] => some .text
  | "eq", [_, _] => some .truth
  | _, _ => none

namespace Scope

/-- What is known at the outermost place of a template. -/
def outermost (s : Shape) : Scope := ⟨[(s, false)], []⟩

/-- What is known in a loop over items of a shape. -/
def enter (scope : Scope) (item : Shape) : Scope := ⟨(item, true) :: scope.contexts, []⟩

/-- What is known where an expression holds. -/
def holding (scope : Scope) : Expr → Scope
  | .path up keys => { scope with held := (up, keys) :: scope.held }
  | _ => scope

/-- The shape of the value of a path: a text that may be missing is there if it holds. -/
def narrow (scope : Scope) (path : Nat × List String) : Shape → Shape
  | .optionalText => if path ∈ scope.held then .text else .optionalText
  | s => s

mutual

/-- The shape of the value of an expression, if it is sure to have one. -/
def shape? (scope : Scope) : Expr → Option Shape
  | .path up keys =>
    (scope.contexts[up]?.bind fun c => c.1.descend? keys).map (scope.narrow (up, keys))
  | .loop which => scope.contexts.head?.bind fun c => if c.2 then which.shape? else none
  | .literal _ => some .text
  | .call function arguments => (scope.shapes? arguments).bind (resultShape? function)

/-- The shapes of the values of expressions, if all are sure to have one. -/
def shapes? (scope : Scope) : List Expr → Option (List Shape)
  | [] => some []
  | e :: rest => do
    let s ← scope.shape? e
    let ss ← scope.shapes? rest
    return s :: ss

end

/-- Whether a condition is sure to be decided: one that calls a function has to have a value. -/
def decides (scope : Scope) : Expr → Bool
  | .call function arguments => (scope.shape? (.call function arguments)).isSome
  | _ => true

mutual

/-- Whether all places of a piece of a template are sure to have values. -/
def admits (scope : Scope) : Node → Bool
  | .text _ => true
  | .value e => (scope.shape? e).isSome
  | .block .ifHolds subject body otherwise =>
    scope.decides subject && (scope.holding subject).admitsAll body
      && scope.admitsOtherwise otherwise
  | .block .ifNot subject body otherwise =>
    scope.decides subject && scope.admitsAll body
      && (scope.holding subject).admitsOtherwise otherwise
  | .block .forEach subject body otherwise =>
    match scope.shape? subject with
    | some (.list item) => (scope.enter item).admitsAll body && scope.admitsOtherwise otherwise
    | _ => false

/-- All nodes of a template have values to render. -/
def admitsAll (scope : Scope) : List Node → Bool
  | [] => true
  | node :: rest => scope.admits node && scope.admitsAll rest

/-- The nodes of an alternative have, if there is one. -/
def admitsOtherwise (scope : Scope) : Option (List Node) → Bool
  | none => true
  | some nodes => scope.admitsAll nodes

end

/-- A scope describes the frames around a place. -/
structure Describes (scope : Scope) (frames : Frames) : Prop where
  contexts : List.Forall₂ FrameFits scope.contexts frames
  held : ∀ path ∈ scope.held, ∀ v, eval? frames (.path path.1 path.2) = some v → holds v = true

variable {scope : Scope} {frames : Frames}

/-- Outside of all loops there is the context alone. -/
theorem describes_outermost {s : Shape} {context : Json} (h : s.Fits context) :
    (outermost s).Describes [⟨context, []⟩] where
  contexts := .cons ⟨h, nofun⟩ .nil
  held := nofun

/-- In a round of a loop its entry stands before what was there. -/
theorem Describes.enter (h : scope.Describes frames) {item : Shape} {frame : Frame}
    (hframe : FrameFits (item, true) frame) : (scope.enter item).Describes (frame :: frames) where
  contexts := .cons hframe h.contexts
  held := nofun

/-- Under a condition it is known to hold. -/
theorem Describes.holding (h : scope.Describes frames) {e : Expr}
    (he : ∀ v, eval? frames e = some v → holds v = true) : (scope.holding e).Describes frames := by
  cases e with
  | path up keys => exact ⟨h.contexts, List.forall_mem_cons.mpr ⟨he, h.held⟩⟩
  | _ => exact h

end Scope

/-! ## Values of expressions -/

/-- A function has a result for values of the shapes that it takes. -/
theorem exists_result? {function : String} {shapes : List Shape} {values : List Json}
    (hvalues : List.Forall₂ Shape.Fits shapes values) {s : Shape}
    (h : resultShape? function shapes = some s) :
    ∃ v, result? function values = some v ∧ s.Fits v := by
  unfold resultShape? at h
  split at h
  next =>
    cases h
    obtain ⟨v, rest, ⟨text, rfl⟩, hrest, rfl⟩ := List.forall₂_cons_left_iff.mp hvalues
    obtain rfl := List.forall₂_nil_left_iff.mp hrest
    exact ⟨.text (Java.literalBody text), rfl, _, rfl⟩
  next =>
    cases h
    obtain ⟨v, others, -, hothers, rfl⟩ := List.forall₂_cons_left_iff.mp hvalues
    obtain ⟨w, rest, -, hrest, rfl⟩ := List.forall₂_cons_left_iff.mp hothers
    obtain rfl := List.forall₂_nil_left_iff.mp hrest
    exact ⟨.bool (sameValue v w), rfl, _, rfl⟩
  next => cases h

section Values

variable {scope : Scope} {frames : Frames}

/-- A text that may be missing is there if it holds. -/
theorem fits_narrow (h : scope.Describes frames) {path : Nat × List String} {s : Shape} {v : Json}
    (hv : eval? frames (.path path.1 path.2) = some v) (hfits : s.Fits v) :
    (scope.narrow path s).Fits v := by
  unfold Scope.narrow
  split
  next =>
    split
    next hheld =>
      have hholds := h.held path hheld v hv
      obtain ⟨text, rfl⟩ := hfits
      cases text with
      | none => cases hholds
      | some text => exact ⟨text, rfl⟩
    next => exact hfits
  next => exact hfits

mutual

/-- **An expression with a shape has a value of the shape.** -/
theorem exists_eval? (h : scope.Describes frames) (e : Expr) {s : Shape}
    (hs : scope.shape? e = some s) : ∃ v, eval? frames e = some v ∧ s.Fits v := by
  match e with
  | .path up keys =>
    obtain ⟨inner, hinner, rfl⟩ := Option.map_eq_some_iff.mp hs
    obtain ⟨c, hc, hkeys⟩ := Option.bind_eq_some_iff.mp hinner
    obtain ⟨frame, hframe, hfits⟩ := exists_getElem?_of_forall₂ h.contexts hc
    obtain ⟨v, hv, hinner⟩ := Shape.exists_descend? hfits.context hkeys
    -- the path leads as deep into the value as into the shape
    have heval : eval? frames (.path up keys) = some v := by
      rw [eval?, hframe]
      exact hv
    exact ⟨v, heval, fits_narrow h heval hinner⟩
  | .loop which =>
    obtain ⟨c, hc, hwhich⟩ := Option.bind_eq_some_iff.mp hs
    rw [List.head?_eq_getElem?] at hc
    obtain ⟨frame, hframe, hfits⟩ := exists_getElem?_of_forall₂ h.contexts hc
    split at hwhich
    next hloop =>
      obtain ⟨v, hv, hshape⟩ := hfits.known hloop which s hwhich
      refine ⟨v, ?_, hshape⟩
      rw [eval?, List.head?_eq_getElem?, hframe]
      exact hv
    next => cases hwhich
  | .literal text =>
    cases hs
    exact ⟨.text text, rfl, text, rfl⟩
  | .call function arguments =>
    obtain ⟨shapes, hshapes, hresult⟩ := Option.bind_eq_some_iff.mp hs
    obtain ⟨values, hvalues, hfits⟩ := exists_evalAll? h arguments hshapes
    obtain ⟨v, hv, hshape⟩ := exists_result? hfits hresult
    refine ⟨v, ?_, hshape⟩
    rw [eval?, hvalues]
    exact hv

/-- So do all arguments of a call. -/
theorem exists_evalAll? (h : scope.Describes frames) (es : List Expr) {shapes : List Shape}
    (hs : scope.shapes? es = some shapes) :
    ∃ values, evalAll? frames es = some values ∧ List.Forall₂ Shape.Fits shapes values := by
  match es with
  | [] =>
    cases hs
    exact ⟨[], rfl, .nil⟩
  | e :: rest =>
    obtain ⟨s, hshape, hs⟩ := Option.bind_eq_some_iff.mp hs
    obtain ⟨ss, hshapes, hs⟩ := Option.bind_eq_some_iff.mp hs
    cases hs
    obtain ⟨v, hv, hfits⟩ := exists_eval? h e hshape
    obtain ⟨vs, hvs, hfitsAll⟩ := exists_evalAll? h rest hshapes
    refine ⟨v :: vs, ?_, .cons hfits hfitsAll⟩
    rw [evalAll?, hv, hvs]
    rfl

end

/-- A condition is decided, and where it holds this is known. -/
theorem exists_condition? (h : scope.Describes frames) {e : Expr} (he : scope.decides e = true) :
    ∃ b, condition? frames e = some b ∧ (b = true → (scope.holding e).Describes frames) := by
  cases e with
  | call function arguments =>
    obtain ⟨s, hs⟩ := Option.isSome_iff_exists.mp he
    obtain ⟨v, hv, -⟩ := exists_eval? h (.call function arguments) hs
    refine ⟨holds v, ?_, fun _ => h⟩
    rw [condition?, hv]
    rfl
  | path up keys =>
    -- a path without a value does not hold
    refine ⟨_, rfl, fun hholds => h.holding fun v hv => ?_⟩
    rw [hv] at hholds
    exact hholds
  | loop which => exact ⟨_, rfl, fun _ => h⟩
  | literal text => exact ⟨_, rfl, fun _ => h⟩

end Values

/-! ## Rendering -/

/-- Of the rounds of a loop over a list all is known but a key. -/
theorem frameFits_itemFrame {item : Shape} {count : Nat} {v : Json × Nat} (h : item.Fits v.1) :
    FrameFits (item, true) (itemFrame count v) where
  context := h
  known _ which s hs := by
    cases which with
    | index =>
      cases hs
      exact ⟨_, rfl, trivial⟩
    | first | last =>
      cases hs
      exact ⟨_, rfl, _, rfl⟩
    | key => cases hs

mutual

/-- A node that is admitted is rendered. -/
theorem exists_renderNode {scope : Scope} {frames : Frames} (h : scope.Describes frames)
    (node : Node) (hnode : scope.admits node = true) :
    ∃ text, renderNode frames node = some text := by
  match node with
  | .text text => exact ⟨text, rfl⟩
  | .value e =>
    obtain ⟨s, hs⟩ := Option.isSome_iff_exists.mp hnode
    obtain ⟨v, hv, -⟩ := exists_eval? h e hs
    refine ⟨plainText v, ?_⟩
    rw [renderNode, hv]
    rfl
  | .block .ifHolds subject body otherwise =>
    simp only [Scope.admits, Bool.and_eq_true] at hnode
    obtain ⟨⟨hsubject, hbody⟩, hotherwise⟩ := hnode
    obtain ⟨b, hb, hholding⟩ := exists_condition? h hsubject
    rw [renderNode, hb]
    -- the body was checked where the condition holds, and is shown only there
    cases b with
    | true => exact exists_renderNodes (hholding rfl) body hbody
    | false => exact exists_renderOtherwise h otherwise hotherwise
  | .block .ifNot subject body otherwise =>
    simp only [Scope.admits, Bool.and_eq_true] at hnode
    obtain ⟨⟨hsubject, hbody⟩, hotherwise⟩ := hnode
    obtain ⟨b, hb, hholding⟩ := exists_condition? h hsubject
    rw [renderNode, hb]
    cases b with
    | true => exact exists_renderOtherwise (hholding rfl) otherwise hotherwise
    | false => exact exists_renderNodes h body hbody
  | .block .forEach subject body otherwise =>
    simp only [Scope.admits] at hnode
    split at hnode
    next item hshape =>
      obtain ⟨hbody, hotherwise⟩ := Bool.and_eq_true_iff.mp hnode
      obtain ⟨v, hv, items, rfl, hitems⟩ := exists_eval? h subject hshape
      have hrounds : (eval? frames subject).bind rounds?
          = some (items.zipIdx.map (itemFrame items.length)) := by
        rw [hv]
        rfl
      have hround : ∀ frame ∈ items.zipIdx.map (itemFrame items.length),
          ∃ text, renderNodes (frame :: frames) body = some text := by
        intro frame hframe
        obtain ⟨v, hv, rfl⟩ := List.mem_map.mp hframe
        have hfits := hitems v.1 (List.fst_mem_of_mem_zipIdx hv)
        exact exists_renderNodes (h.enter (frameFits_itemFrame hfits)) body hbody
      rw [renderNode, hrounds]
      split
      next => exact exists_renderOtherwise h otherwise hotherwise
      next rounds _ heq =>
        cases heq
        obtain ⟨texts, htexts⟩ := exists_mapM hround
        rw [htexts]
        exact ⟨_, rfl⟩
      next heq => cases heq
    next => cases hnode

/-- So are several. -/
theorem exists_renderNodes {scope : Scope} {frames : Frames} (h : scope.Describes frames)
    (nodes : List Node) (hnodes : scope.admitsAll nodes = true) :
    ∃ text, renderNodes frames nodes = some text := by
  match nodes with
  | [] => exact ⟨"", rfl⟩
  | node :: rest =>
    obtain ⟨hnode, hrest⟩ := Bool.and_eq_true_iff.mp hnodes
    obtain ⟨first, hfirst⟩ := exists_renderNode h node hnode
    obtain ⟨others, hothers⟩ := exists_renderNodes h rest hrest
    refine ⟨first ++ others, ?_⟩
    rw [renderNodes, hfirst, hothers]
    rfl

theorem exists_renderOtherwise {scope : Scope} {frames : Frames} (h : scope.Describes frames)
    (otherwise : Option (List Node)) (hotherwise : scope.admitsOtherwise otherwise = true) :
    ∃ text, renderOtherwise frames otherwise = some text := by
  match otherwise with
  | none => exact ⟨"", rfl⟩
  | some nodes => exact exists_renderNodes h nodes hotherwise

end

/-- **A template that is admitted can be rendered**, in every context of the shape. -/
theorem exists_render? {template : List Node} {s : Shape}
    (htemplate : (Scope.outermost s).admitsAll template = true) {context : Json}
    (hcontext : s.Fits context) : ∃ text, render? template context = some text :=
  exists_renderNodes (Scope.describes_outermost hcontext) template htemplate

end TypedEntities.Template
