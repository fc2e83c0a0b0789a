import Mathlib
import TypedEntities.Proofs.Template.Trace
import TypedEntities.Template.EntityList
import TypedEntities.Template.Enumerations
import TypedEntities.Template.Model

/-!
# Comments of rendered texts

A reader goes over the pieces of a rendered text and takes only texts of the template for marks: a
comment goes from where the template opens it to where the template ends it, with all that is filled
in between. Such a comment ends in its place if no earlier `*/` stands in it (`Comment.EndsInPlace`);
the two characters count as they stand, Unicode escapes of them do not.

Which comments a template writes is put together from its parts: one after the other
(`Writes.append`), once for each item (`writes_each`), none where the template has no slash
(`writes_nothing`), and one around a value (`writes_about`) or without any (`writes_plain`).
-/

namespace TypedEntities.Template

/-- What ends a comment. -/
def commentEnd : List Char := ['*', '/']

/-- A comment: what stands between its first `/*` and the slash of the template that ends it, and the
texts that were filled in. -/
structure Comment where
  text : List Char
  filled : List String
deriving DecidableEq, Repr

/-- A comment about a value, between two texts of the template; its last character is the asterisk of
the mark that ends it. -/
def Comment.about (before value after : String) : Comment :=
  ⟨before.toList ++ value.toList ++ after.toList ++ ['*'], [value]⟩

/-- A comment in which nothing is filled in. -/
def Comment.plain (text : String) : Comment := ⟨text.toList ++ ['*'], []⟩

/-- A comment ends where the template ends it, and nothing that was filled in could end it. -/
structure Comment.EndsInPlace (c : Comment) : Prop where
  text : ¬commentEnd <:+: c.text
  filled : ∀ value ∈ c.filled, ¬commentEnd <:+: value.toList

/-! ## Where comments end -/

section Ends

variable {xs ys : List Char}

/-- Without a slash nothing ends a comment. -/
theorem no_commentEnd (h : '/' ∉ xs) : ¬commentEnd <:+: xs :=
  fun hend => h (hend.mem (by simp [commentEnd]))

/-- What ends a comment stands in one of two texts, or its halves meet between them. -/
theorem commentEnd_of_append (h : commentEnd <:+: xs ++ ys) :
    commentEnd <:+: xs ∨ commentEnd <:+: ys
      ∨ (xs.getLast? = some '*' ∧ ys.head? = some '/') := by
  rcases List.infix_append_iff.mp h with hxs | hys | ⟨l₁, l₂, hsplit, hsuffix, hprefix⟩
  · exact .inl hxs
  · exact .inr (.inl hys)
  -- where the two characters fall: behind the seam, on both sides of it, or before it
  match l₁ with
  | [] =>
    obtain rfl : commentEnd = l₂ := hsplit
    exact .inr (.inl hprefix.isInfix)
  | [c] =>
    obtain ⟨rfl, rfl⟩ := List.cons_eq_cons.mp hsplit
    obtain ⟨front, rfl⟩ := hsuffix
    obtain ⟨back, rfl⟩ := hprefix
    exact .inr (.inr ⟨List.getLast?_concat, rfl⟩)
  | c :: c' :: rest =>
    obtain ⟨rfl, rfl, hrest⟩ : '*' = c ∧ '/' = c' ∧ [] = rest ++ l₂ := by
      simpa [commentEnd] using hsplit
    obtain ⟨rfl, -⟩ := List.append_eq_nil_iff.mp hrest.symm
    exact .inl hsuffix.isInfix

/-- Texts that stand around a value in a comment and cannot end it, not even with a half from the
value. -/
structure Surrounds (before after : String) : Prop where
  slash_before : '/' ∉ before.toList
  last : before.toList.getLast? ≠ some '*'
  slash_after : '/' ∉ after.toList

instance (before after : String) : Decidable (Surrounds before after) :=
  decidable_of_iff ('/' ∉ before.toList ∧ before.toList.getLast? ≠ some '*' ∧ '/' ∉ after.toList)
    ⟨fun h => ⟨h.1, h.2.1, h.2.2⟩, fun h => ⟨h.slash_before, h.last, h.slash_after⟩⟩

/-- What stands around a value may be made of two texts on each side. -/
theorem Surrounds.within {outer before after rest : String} (h : Surrounds outer rest)
    (h' : Surrounds before after) : Surrounds (outer ++ before) (after ++ rest) where
  slash_before := by
    rw [String.toList_append]
    exact List.not_mem_append h.slash_before h'.slash_before
  last := by
    rw [String.toList_append, List.getLast?_append]
    have hlast := h'.last
    cases hcase : before.toList.getLast? with
    | none => exact h.last
    | some c =>
      rw [hcase] at hlast
      exact hlast
  slash_after := by
    rw [String.toList_append]
    exact List.not_mem_append h'.slash_after h.slash_after

/-- A comment about a value ends in its place unless the value ends it. -/
theorem Comment.endsInPlace_about_iff {before after value : String} (h : Surrounds before after) :
    (about before value after).EndsInPlace ↔ ¬commentEnd <:+: value.toList := by
  constructor
  · intro hends
    exact hends.filled value (List.mem_singleton_self value)
  · intro hvalue
    refine ⟨?_, fun v hv => List.mem_singleton.mp hv ▸ hvalue⟩
    have hbehind : '/' ∉ after.toList ++ ['*'] := List.not_mem_append h.slash_after (by simp)
    intro hend
    rw [about, List.append_assoc, List.append_assoc] at hend
    -- the end of a comment would lie in one of the three texts or between two of them
    rcases commentEnd_of_append hend with hend | hend | ⟨hlast, -⟩
    · exact no_commentEnd h.slash_before hend
    · rcases commentEnd_of_append hend with hend | hend | ⟨-, hhead⟩
      · exact hvalue hend
      · exact no_commentEnd hbehind hend
      · exact hbehind (List.mem_of_head? hhead)
    · exact h.last hlast

/-- A comment without values ends in its place. -/
theorem Comment.endsInPlace_plain {text : String} (h : '/' ∉ text.toList) :
    (plain text).EndsInPlace :=
  ⟨no_commentEnd (List.not_mem_append h (by simp)), nofun⟩

end Ends

/-! ## Reading -/

/-- How far the comments of a text are read. -/
structure Reader where
  finished : List Comment
  /-- The comment in which the reader is. -/
  current : Option Comment
  /-- Whether a character of the template came last that may begin a mark: outside of comments a
  slash, inside an asterisk. -/
  half : Bool
deriving DecidableEq, Repr

namespace Reader

/-- A reader outside of comments. -/
def outside (finished : List Comment) : Reader := ⟨finished, none, false⟩

/-- Reads a character of the template. -/
def step (r : Reader) (c : Char) : Reader :=
  match r.current with
  | none =>
    if r.half ∧ c = '*' then ⟨r.finished, some ⟨[], []⟩, false⟩ else { r with half := c = '/' }
  | some comment =>
    if r.half ∧ c = '/' then outside (r.finished ++ [comment])
    else ⟨r.finished, some ⟨comment.text ++ [c], comment.filled⟩, c = '*'⟩

/-- Reads a piece. What is filled in holds no marks, and parts those of the template. -/
def read (r : Reader) : Piece → Reader
  | .fixed text => text.toList.foldl step r
  | .filled text =>
    match r.current with
    | none => { r with half := false }
    | some comment =>
      ⟨r.finished, some ⟨comment.text ++ text.toList, comment.filled ++ [text]⟩, false⟩

end Reader

/-- The comments of a text of which no more than the text is left after them. -/
def comments? (pieces : List Piece) : Option (List Comment) :=
  match pieces.foldl Reader.read (.outside []) with
  | ⟨finished, none, _⟩ => some finished
  | _ => none

/-! ## Characters of the template -/

section Characters

variable (finished : List Comment) {cs : List Char}

/-- Without a slash no comment begins. -/
theorem foldl_step_outside (h : '/' ∉ cs) :
    cs.foldl Reader.step (.outside finished) = .outside finished := by
  induction cs with
  | nil => rfl
  | cons c cs ih =>
    rw [List.mem_cons, not_or] at h
    obtain ⟨hc, hcs⟩ := h
    have hstep : Reader.step (.outside finished) c = .outside finished := by
      simp [Reader.step, Reader.outside, Ne.symm hc]
    rw [List.foldl_cons, hstep]
    exact ih hcs

/-- Without a slash no comment ends. -/
theorem foldl_step_inside (h : '/' ∉ cs) (comment : Comment) (half : Bool) :
    ∃ half', cs.foldl Reader.step ⟨finished, some comment, half⟩
      = ⟨finished, some ⟨comment.text ++ cs, comment.filled⟩, half'⟩ := by
  induction cs generalizing comment half with
  | nil => exact ⟨half, by simp⟩
  | cons c cs ih =>
    rw [List.mem_cons, not_or] at h
    obtain ⟨hc, hcs⟩ := h
    have hstep : Reader.step ⟨finished, some comment, half⟩ c
        = ⟨finished, some ⟨comment.text ++ [c], comment.filled⟩, c = '*'⟩ := by
      simp [Reader.step, Ne.symm hc]
    obtain ⟨half', hrest⟩ := ih hcs ⟨comment.text ++ [c], comment.filled⟩ (c = '*')
    refine ⟨half', ?_⟩
    rw [List.foldl_cons, hstep, hrest, List.append_assoc]
    rfl

/-- A comment begins at its mark. -/
theorem foldl_step_opening {front before : List Char} (hfront : '/' ∉ front)
    (hbefore : '/' ∉ before) :
    ∃ half, (front ++ '/' :: '*' :: before).foldl Reader.step (.outside finished)
      = ⟨finished, some ⟨before, []⟩, half⟩ := by
  have hmark : ('/' :: '*' :: before).foldl Reader.step (.outside finished)
      = before.foldl Reader.step ⟨finished, some ⟨[], []⟩, false⟩ := rfl
  -- up to the mark the reader is outside, and behind it inside
  rw [List.foldl_append, foldl_step_outside finished hfront, hmark]
  exact foldl_step_inside finished hbefore ⟨[], []⟩ false

/-- A comment ends at its mark. -/
theorem foldl_step_closing {after back : List Char} (hafter : '/' ∉ after) (hback : '/' ∉ back)
    (comment : Comment) (half : Bool) :
    (after ++ '*' :: '/' :: back).foldl Reader.step ⟨finished, some comment, half⟩
      = .outside (finished ++ [⟨comment.text ++ after ++ ['*'], comment.filled⟩]) := by
  obtain ⟨half', hrest⟩ := foldl_step_inside finished hafter comment half
  have hmark : ∀ c : Comment, ('*' :: '/' :: back).foldl Reader.step ⟨finished, some c, half'⟩
      = back.foldl Reader.step (.outside (finished ++ [⟨c.text ++ ['*'], c.filled⟩])) := by
    intro c
    simp [Reader.step, Reader.outside]
  rw [List.foldl_append, hrest, hmark]
  exact foldl_step_outside _ hback

end Characters

/-! ## Nodes -/

/-- Nodes write comments, one after the other, and stand outside of comments themselves. -/
def Writes (frames : Frames) (nodes : List Node) (comments : List Comment) : Prop :=
  ∀ pieces, traceNodes frames nodes = some pieces → ∀ finished,
    pieces.foldl Reader.read (.outside finished) = .outside (finished ++ comments)

section Nodes

variable {frames : Frames} {nodes nodes' : List Node} {cs cs' : List Comment}

theorem exists_of_traceNodes_append {pieces : List Piece}
    (h : traceNodes frames (nodes ++ nodes') = some pieces) :
    ∃ ps ps', traceNodes frames nodes = some ps ∧ traceNodes frames nodes' = some ps'
      ∧ pieces = ps ++ ps' := by
  induction nodes generalizing pieces with
  | nil => exact ⟨[], pieces, rfl, h, rfl⟩
  | cons node nodes ih =>
    obtain ⟨first, hfirst, h⟩ := Option.bind_eq_some_iff.mp h
    obtain ⟨others, hothers, h⟩ := Option.bind_eq_some_iff.mp h
    cases h
    obtain ⟨ps, ps', hps, hps', rfl⟩ := ih hothers
    refine ⟨first ++ ps, ps', ?_, hps', (List.append_assoc ..).symm⟩
    rw [traceNodes, hfirst, hps]
    rfl

/-- The comments of nodes and of those after them. -/
theorem Writes.append (h : Writes frames nodes cs) (h' : Writes frames nodes' cs') :
    Writes frames (nodes ++ nodes') (cs ++ cs') := by
  intro pieces hpieces finished
  obtain ⟨ps, ps', hps, hps', rfl⟩ := exists_of_traceNodes_append hpieces
  rw [List.foldl_append, h ps hps, h' ps' hps', List.append_assoc]

/-- Whether a text has no slash, read from its bytes: they are at hand where the characters of a
text must be decoded first. -/
def slashFree (text : String) : Bool := !text.toByteArray.data.toList.contains 47

theorem slash_notMem_of_slashFree {text : String} (h : slashFree text = true) :
    '/' ∉ text.toList := by
  intro hmem
  have hbytes : text.toByteArray.data.toList = text.toList.flatMap String.utf8EncodeChar := by
    rw [← String.utf8Encode_toList, List.utf8Encode, List.data_toByteArray]
  have hslash : String.utf8EncodeChar '/' = [47] := by decide
  have hbyte : 47 ∈ text.toByteArray.data.toList := by
    rw [hbytes]
    exact List.mem_flatMap.mpr ⟨'/', hmem, hslash ▸ List.mem_singleton_self _⟩
  rw [slashFree, List.contains_iff_mem.mpr hbyte] at h
  cases h

mutual

/-- Whether no text of a node holds a slash. -/
def Node.isSlashless : Node → Bool
  | .text text => slashFree text
  | .value _ => true
  | .block _ _ body otherwise => allSlashless body && noneOrSlashless otherwise

def allSlashless : List Node → Bool
  | [] => true
  | node :: rest => node.isSlashless && allSlashless rest

def noneOrSlashless : Option (List Node) → Bool
  | none => true
  | some nodes => allSlashless nodes

end

/-- A piece without a slash of the template. -/
def Piece.IsSlashless : Piece → Prop
  | fixed text => '/' ∉ text.toList
  | filled _ => True

mutual

theorem isSlashless_of_traceNode {frames : Frames} {pieces : List Piece} (node : Node)
    (hnode : node.isSlashless = true) (h : traceNode frames node = some pieces) :
    ∀ p ∈ pieces, p.IsSlashless := by
  match node with
  | .text text =>
    cases h
    intro p hp
    rw [List.mem_singleton.mp hp]
    exact slash_notMem_of_slashFree hnode
  | .value e =>
    obtain ⟨v, -, rfl⟩ := Option.map_eq_some_iff.mp h
    intro p hp
    rw [List.mem_singleton.mp hp]
    trivial
  | .block .ifHolds subject body otherwise =>
    obtain ⟨hbody, hotherwise⟩ := Bool.and_eq_true_iff.mp hnode
    obtain ⟨b, -, h⟩ := Option.bind_eq_some_iff.mp h
    cases b with
    | true => exact isSlashless_of_traceNodes body hbody h
    | false => exact isSlashless_of_traceOtherwise otherwise hotherwise h
  | .block .ifNot subject body otherwise =>
    obtain ⟨hbody, hotherwise⟩ := Bool.and_eq_true_iff.mp hnode
    obtain ⟨b, -, h⟩ := Option.bind_eq_some_iff.mp h
    cases b with
    | true => exact isSlashless_of_traceOtherwise otherwise hotherwise h
    | false => exact isSlashless_of_traceNodes body hbody h
  | .block .forEach subject body otherwise =>
    obtain ⟨hbody, hotherwise⟩ := Bool.and_eq_true_iff.mp hnode
    rw [traceNode] at h
    generalize (eval? frames subject).bind rounds? = rounds at h
    match rounds with
    | some [] => exact isSlashless_of_traceOtherwise otherwise hotherwise h
    | some (first :: rest) =>
      -- a piece of a loop is traced in one of the rounds
      obtain ⟨pss, hpss, rfl⟩ := Option.map_eq_some_iff.mp h
      intro p hp
      obtain ⟨ps, hps, hp⟩ := List.mem_flatten.mp hp
      obtain ⟨frame, -, hframe⟩ := exists_left_of_mem (mapM_eq_some.mp hpss) hps
      exact isSlashless_of_traceNodes body hbody hframe p hp
    | none =>
      cases otherwise with
      | none => cases h
      | some nodes => exact isSlashless_of_traceNodes nodes hotherwise h

theorem isSlashless_of_traceNodes {frames : Frames} {pieces : List Piece} (nodes : List Node)
    (hnodes : allSlashless nodes = true) (h : traceNodes frames nodes = some pieces) :
    ∀ p ∈ pieces, p.IsSlashless := by
  match nodes with
  | [] =>
    cases h
    nofun
  | node :: rest =>
    obtain ⟨hnode, hrest⟩ := Bool.and_eq_true_iff.mp hnodes
    obtain ⟨first, hfirst, h⟩ := Option.bind_eq_some_iff.mp h
    obtain ⟨others, hothers, h⟩ := Option.bind_eq_some_iff.mp h
    cases h
    rw [List.forall_mem_append]
    exact ⟨isSlashless_of_traceNode node hnode hfirst,
      isSlashless_of_traceNodes rest hrest hothers⟩

theorem isSlashless_of_traceOtherwise {frames : Frames} {pieces : List Piece}
    (otherwise : Option (List Node)) (hotherwise : noneOrSlashless otherwise = true)
    (h : traceOtherwise frames otherwise = some pieces) : ∀ p ∈ pieces, p.IsSlashless := by
  match otherwise with
  | none =>
    cases h
    nofun
  | some nodes => exact isSlashless_of_traceNodes nodes hotherwise h

end

theorem foldl_read_outside {pieces : List Piece} (h : ∀ p ∈ pieces, p.IsSlashless)
    (finished : List Comment) :
    pieces.foldl Reader.read (.outside finished) = .outside finished := by
  induction pieces with
  | nil => rfl
  | cons p pieces ih =>
    obtain ⟨hp, hrest⟩ := List.forall_mem_cons.mp h
    have hread : Reader.read (.outside finished) p = .outside finished := by
      cases p with
      | fixed text => exact foldl_step_outside finished hp
      | filled text => rfl
    rw [List.foldl_cons, hread]
    exact ih hrest

/-- A template without a slash writes no comment, whatever is filled in. -/
theorem writes_nothing (h : allSlashless nodes = true) : Writes frames nodes [] := by
  intro pieces hpieces finished
  rw [foldl_read_outside (isSlashless_of_traceNodes nodes h hpieces), List.append_nil]

/-- Nodes between parts without a slash. -/
theorem Writes.between {front back : List Node} (h : Writes frames nodes cs)
    (hfront : allSlashless front = true) (hback : allSlashless back = true) :
    Writes frames (front ++ (nodes ++ back)) cs := by
  have := (writes_nothing hfront).append (h.append (writes_nothing hback))
  rwa [List.nil_append, List.append_nil] at this

/-! ## Loops -/

/-- The pieces of a loop over a list are those of its rounds. -/
theorem exists_of_traceNodes_each {name : String} {items : List Json} {body : List Node}
    (hitems : eval? frames (.key name) = some (.array items)) {pieces : List Piece}
    (h : traceNodes frames (Node.each name body) = some pieces) :
    ∃ pss, List.Forall₂ (fun frame ps => traceNodes (frame :: frames) body = some ps)
        (items.zipIdx.map (itemFrame items.length)) pss ∧ pieces = pss.flatten := by
  obtain ⟨first, hfirst, h⟩ := Option.bind_eq_some_iff.mp h
  cases h
  have hrounds : (eval? frames (.key name)).bind rounds?
      = some (items.zipIdx.map (itemFrame items.length)) := by
    rw [hitems]
    rfl
  rw [traceNode, hrounds] at hfirst
  rw [List.append_nil]
  -- over no items the second part of the block is shown, and a loop has none
  cases items with
  | nil =>
    cases hfirst
    exact ⟨[], .nil, rfl⟩
  | cons item items =>
    obtain ⟨pss, hpss, rfl⟩ := Option.map_eq_some_iff.mp hfirst
    exact ⟨pss, mapM_eq_some.mp hpss, rfl⟩

/-- The comments of rounds, one after the other. -/
theorem foldl_read_rounds {α : Type} {toJson : α → Json} {body : List Node}
    {f : α → List Comment} {l : List α}
    (h : ∀ a ∈ l, ∀ known, Writes (⟨toJson a, known⟩ :: frames) body (f a))
    {rounds : List Frame} (hrounds : rounds.map Frame.context = l.map toJson)
    {pss : List (List Piece)}
    (hpss : List.Forall₂ (fun frame ps => traceNodes (frame :: frames) body = some ps) rounds pss)
    (finished : List Comment) :
    pss.flatten.foldl Reader.read (.outside finished) = .outside (finished ++ l.flatMap f) := by
  induction hpss generalizing l finished with
  | nil =>
    obtain rfl := List.map_eq_nil_iff.mp hrounds.symm
    simp
  | @cons frame ps rounds pss hframe _ ih =>
    obtain ⟨a, l, rfl, ha, hl⟩ := List.map_eq_cons_iff.mp hrounds.symm
    obtain ⟨hfirst, hrest⟩ := List.forall_mem_cons.mp h
    have hwrites : Writes (frame :: frames) body (f a) := by
      have := hfirst frame.known
      rwa [ha] at this
    rw [List.flatten_cons, List.foldl_append, hwrites ps hframe, ih hrest hl.symm,
      List.flatMap_cons, List.append_assoc]

/-- The comments of a loop over a list, item by item. -/
theorem writes_each {α : Type} {toJson : α → Json} {l : List α} {name : String}
    (hitems : eval? frames (.key name) = some (.array (l.map toJson))) {body : List Node}
    {f : α → List Comment}
    (h : ∀ a ∈ l, ∀ known, Writes (⟨toJson a, known⟩ :: frames) body (f a)) :
    Writes frames (Node.each name body) (l.flatMap f) := by
  intro pieces hpieces finished
  obtain ⟨pss, hpss, rfl⟩ := exists_of_traceNodes_each hitems hpieces
  refine foldl_read_rounds h ?_ hpss finished
  have hcontext : Frame.context ∘ itemFrame (l.map toJson).length = Prod.fst := rfl
  rw [List.map_map, hcontext, List.zipIdx_map_fst]

/-! ## Comments of the template -/

theorem traceNodes_texts (texts : List String) :
    traceNodes frames (texts.map .text) = some (texts.map .fixed) := by
  induction texts with
  | nil => rfl
  | cons text texts ih =>
    rw [List.map_cons, traceNodes, ih]
    rfl

/-- Texts are read as one. -/
theorem foldl_read_fixed (texts : List String) (r : Reader) :
    (texts.map Piece.fixed).foldl Reader.read r
      = (texts.flatMap String.toList).foldl Reader.step r := by
  induction texts generalizing r with
  | nil => rfl
  | cons text texts ih =>
    rw [List.map_cons, List.foldl_cons, ih, List.flatMap_cons, List.foldl_append]
    rfl

/-- The comment that texts of the template write around a value. -/
theorem writes_about {opening closing : List String} {front back : List Char} {before after : String}
    (hopening : opening.flatMap String.toList = front ++ '/' :: '*' :: before.toList)
    (hclosing : closing.flatMap String.toList = after.toList ++ '*' :: '/' :: back)
    (hfront : '/' ∉ front) (h : Surrounds before after) (hback : '/' ∉ back) {e : Expr}
    {value : String} (he : eval? frames e = some (.text value)) :
    Writes frames (opening.map .text ++ .value e :: closing.map .text)
      [.about before value after] := by
  intro pieces hpieces finished
  obtain ⟨ps, ps', hps, hps', rfl⟩ := exists_of_traceNodes_append hpieces
  rw [traceNodes_texts] at hps
  cases hps
  rw [traceNodes, traceNode, he, traceNodes_texts] at hps'
  cases hps'
  obtain ⟨half, hinside⟩ := foldl_step_opening finished hfront h.slash_before
  have hvalue : Reader.read ⟨finished, some ⟨before.toList, []⟩, half⟩ (.filled value)
      = ⟨finished, some ⟨before.toList ++ value.toList, [value]⟩, false⟩ := rfl
  show (opening.map Piece.fixed ++ .filled value :: closing.map Piece.fixed).foldl _ _ = _
  rw [List.foldl_append, foldl_read_fixed, hopening, hinside, List.foldl_cons, hvalue,
    foldl_read_fixed, hclosing, foldl_step_closing _ h.slash_after hback]
  rfl

/-- The comment that texts of the template write alone. -/
theorem writes_plain {texts : List String} {front back : List Char} {text : String}
    (htexts : texts.flatMap String.toList
      = front ++ '/' :: '*' :: text.toList ++ '*' :: '/' :: back)
    (hfront : '/' ∉ front) (htext : '/' ∉ text.toList) (hback : '/' ∉ back) :
    Writes frames (texts.map .text) [.plain text] := by
  intro pieces hpieces finished
  rw [traceNodes_texts] at hpieces
  cases hpieces
  have hnone : '/' ∉ ([] : List Char) := List.not_mem_nil
  obtain ⟨half, hinside⟩ := foldl_step_opening finished hfront hnone
  have hsplit : texts.flatMap String.toList
      = (front ++ '/' :: '*' :: []) ++ (text.toList ++ '*' :: '/' :: back) := by
    rw [htexts]
    simp
  rw [foldl_read_fixed, hsplit, List.foldl_append, hinside, foldl_step_closing _ htext hback]
  rfl

end Nodes

/-! ## The templates of the sources outside of their comments -/

/-- The parts of the templates before, between and after their comments hold no slash. -/
structure SlashlessParts : Prop where
  fieldEnd : allSlashless (fieldPart.drop 6) = true
  phaseGroupEnd : allSlashless (phaseGroup.drop 7) = true
  modelStart : allSlashless (entityModel.take 9) = true
  modelMiddle : allSlashless ((entityModel.drop 16).take 25) = true
  interfaceStart : allSlashless (entity.take 7) = true
  interfaceEnd : allSlashless (entity.drop 14) = true
  entityListStart : allSlashless (entityList.take 14) = true
  entityListEnd : allSlashless (entityList.drop 21) = true
  listStart : allSlashless (list.take 9) = true
  listEnd : allSlashless (list.drop 16) = true
  phasesStart : allSlashless (phases.take 9) = true
  phasesMiddle : allSlashless ((phases.drop 13).take 4) = true
  classEnd : allSlashless (Node.lines ["\x7d"]) = true

/-- One look through all templates, which the theorems on each of them share. -/
theorem slashlessParts : SlashlessParts := by
  constructor <;> decide +kernel

end TypedEntities.Template
