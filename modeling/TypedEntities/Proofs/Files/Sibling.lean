import Mathlib
import TypedEntities.Proofs.Files.Path
import TypedEntities.Proofs.Listing

/-!
# Files beside each other

A path leads to the directory of its parent and one part further (`exists_last_part`). If that part is
a name, the path with another extension leads to another name in the same directory
(`withExtension_cases`), unless it had the extension before (`extensionOf?_of_stem`). A path that does
not end in a name stays as it is.
-/

namespace TypedEntities.Path

/-! ## Extensions -/

/-- What comes after the last point of a name, unless the point begins the name. -/
def extensionOf? (name : List Char) : Option (List Char) :=
  match name.reverse.dropWhile (· ≠ '.') with
  | [] => none
  | _ :: before => if before.isEmpty then none else some (name.reverse.takeWhile (· ≠ '.')).reverse

/-- The extension of the last name of a path that ends in one. -/
def extension? (path : String) : Option String :=
  match dropIdle (segments path).reverse with
  | last :: _ =>
    if isIdle last || last = ['.', '.'] then none else (extensionOf? last).map String.ofList
  | [] => none

/-- Exchanging the extension changes a name, unless it is the one that is there. -/
theorem extensionOf?_of_stem {name extension : List Char}
    (h : stem name ++ '.' :: extension = name) : extensionOf? name = some extension := by
  have hlonger : name ≠ name ++ '.' :: extension := fun heq => by
    simpa using congrArg List.length heq
  unfold stem at h
  unfold extensionOf?
  have hsplit := List.takeWhile_append_dropWhile (p := (· ≠ '.')) (l := name.reverse)
  cases hback : name.reverse.dropWhile (· ≠ '.') with
  | nil =>
    rw [hback] at h
    exact absurd h.symm hlonger
  | cons c before =>
    rw [hback] at h hsplit
    simp only at h ⊢
    split at h
    next => exact absurd h.symm hlonger
    next hbefore =>
      rw [if_neg hbefore]
      -- both the extension and what was taken come after the last point of the name
      have hname : before.reverse ++ c :: (name.reverse.takeWhile (· ≠ '.')).reverse = name := by
        simpa using congrArg List.reverse hsplit
      have htail := List.append_cancel_left (h.trans hname.symm)
      rw [(List.cons.inj htail).2]

/-! ## Segments and their parts -/

theorem slash_notMem_segments {path : String} : ∀ segment ∈ segments path, '/' ∉ segment := by
  unfold segments
  induction path.toList with
  | nil => simp
  | cons c rest ih =>
    rw [List.splitOn_cons_eq_if_modifyHead]
    split
    next => exact List.forall_mem_cons.mpr ⟨List.not_mem_nil, ih⟩
    next hc =>
      cases hrest : rest.splitOn '/' with
      | nil => simp
      | cons first others =>
        rw [hrest] at ih
        obtain ⟨hfirst, hothers⟩ := List.forall_mem_cons.mp ih
        refine List.forall_mem_cons.mpr ⟨?_, hothers⟩
        -- a character that does not split is not a slash
        exact List.not_mem_cons_of_ne_of_not_mem (fun heq => hc (by simp [← heq])) hfirst

/-- The parts of segments. -/
def partsOf : List (List Char) → List Part
  | [] => []
  | first :: rest =>
    let start : List Part :=
      if first = [] then (if rest.isEmpty then [] else [.root])
      else if first = ['.'] then [.here]
      else (Part.ofSegment? first).toList
    start ++ rest.filterMap Part.ofSegment?

theorem parts_eq_partsOf (path : String) : parts path = partsOf (segments path) := by
  unfold parts partsOf
  cases segments path <;> rfl

/-- The parts of segments that more come after: an empty one alone is the root then. -/
def partsBefore (segs : List (List Char)) : List Part :=
  if segs = [[]] then [.root] else partsOf segs

/-- All segments count as parts unless there is only an empty one. -/
theorem partsBefore_of_ne {segs : List (List Char)} (h : segs ≠ [[]]) :
    partsBefore segs = partsOf segs := if_neg h

theorem partsOf_concat {segs : List (List Char)} (h : segs ≠ []) (segment : List Char) :
    partsOf (segs ++ [segment]) = partsBefore segs ++ (Part.ofSegment? segment).toList := by
  cases segs with
  | nil => exact absurd rfl h
  | cons first rest =>
    unfold partsBefore
    rw [List.cons_append, partsOf, List.filterMap_append, filterMap_ofSegment?_singleton]
    by_cases hfirst : first = []
    · cases rest <;> simp [hfirst, partsOf]
    · simp [hfirst, partsOf]

theorem partsBefore_concat {segs : List (List Char)} (h : segs ≠ []) (segment : List Char) :
    partsBefore (segs ++ [segment]) = partsBefore segs ++ (Part.ofSegment? segment).toList := by
  rw [partsBefore_of_ne (by simp [List.append_eq_singleton_iff, h]), partsOf_concat h]

/-! ## Idle segments -/

/-- Of segments that are not idle at the end, the last one is left, or the first alone. -/
theorem dropIdle_cases {segs : List (List Char)} (h : segs ≠ []) :
    (∃ first, dropIdle segs = [first])
      ∨ ∃ last next outer, dropIdle segs = last :: next :: outer ∧ isIdle last = false := by
  fun_induction dropIdle segs with
  | case1 => exact absurd rfl h
  | case2 first => exact .inl ⟨first, rfl⟩
  | case3 segment next rest _ ih => exact ih (List.cons_ne_nil _ _)
  | case4 segment next rest hidle =>
    exact .inr ⟨segment, next, rest, rfl, Bool.eq_false_iff.mpr hidle⟩

theorem dropIdle_suffix (segs : List (List Char)) : dropIdle segs <:+ segs := by
  fun_induction dropIdle segs with
  | case1 => exact List.suffix_rfl
  | case2 => exact List.suffix_rfl
  | case3 segment next rest _ ih => exact ih.trans (List.suffix_cons _ _)
  | case4 => exact List.suffix_rfl

/-- A segment that is not idle ends what is dropped. -/
theorem dropIdle_of_not_isIdle {last : List Char} (h : isIdle last = false)
    (outer : List (List Char)) : dropIdle (last :: outer) = last :: outer := by
  cases outer with
  | nil => rfl
  | cons next outer => rw [dropIdle, h, if_neg (by simp)]

/-- Idle segments make no parts. -/
theorem partsBefore_dropIdle (segs : List (List Char)) :
    partsBefore (dropIdle segs).reverse = partsBefore segs.reverse := by
  fun_induction dropIdle segs with
  | case1 => rfl
  | case2 => rfl
  | case3 segment next rest hidle ih =>
    have hnone : Part.ofSegment? segment = none := by simpa [isIdle] using hidle
    rw [ih, List.reverse_cons (a := segment), partsBefore_concat (by simp), hnone]
    simp
  | case4 => rfl

/-- Segments are found again in the path that they make. -/
theorem segments_ofSegments {segs : List (List Char)} (h : segs ≠ [])
    (hslash : ∀ segment ∈ segs, '/' ∉ segment) : segments (ofSegments segs) = segs := by
  unfold segments ofSegments
  rw [String.toList_ofList]
  exact List.splitOn_intercalate '/' hslash h

theorem parts_ofReversed {segs : List (List Char)} (h : segs ≠ [])
    (hslash : ∀ segment ∈ segs, '/' ∉ segment) :
    parts (ofReversed segs) = partsBefore segs.reverse := by
  unfold ofReversed
  split
  next hroot =>
    subst hroot
    decide
  next hroot =>
    rw [parts_eq_partsOf, segments_ofSegments (by simpa using h) (by simpa using hslash),
      partsBefore_of_ne (by simpa [List.reverse_eq_iff] using hroot)]

/-- The parts of a path are those of its segments without the idle ones at the end. -/
theorem parts_eq_partsBefore {path : String} (h : segments path ≠ [[]]) :
    parts path = partsBefore (dropIdle (segments path).reverse).reverse := by
  rw [partsBefore_dropIdle, List.reverse_reverse, partsBefore_of_ne h, parts_eq_partsOf]

/-! ## The last part -/

theorem reverse_segments_ne_nil (path : String) : (segments path).reverse ≠ [] := by
  simp [segments]

theorem dropIdle_of_parent?_eq_none {path : String} (h : parent? path = none) :
    dropIdle (segments path).reverse = [[]] := by
  unfold parent? at h
  rcases dropIdle_cases (reverse_segments_ne_nil path) with
    ⟨first, hfirst⟩ | ⟨last, next, outer, hlast, -⟩
  · rw [hfirst] at h ⊢
    simp only [ite_eq_left_iff, reduceCtorEq, imp_false, not_not] at h
    rw [h]
  · rw [hlast] at h
    cases h

/-- A path without a parent leads nowhere else than to the root. -/
theorem parts_of_parent?_eq_none {path : String} (h : parent? path = none) :
    parts path = [] ∨ parts path = [.root] := by
  by_cases hempty : segments path = [[]]
  · left
    rw [parts_eq_partsOf, hempty]
    rfl
  · right
    rw [parts_eq_partsBefore hempty, dropIdle_of_parent?_eq_none h]
    rfl

/-- A segment that is neither empty nor a point is a part. -/
theorem exists_ofSegment? {segment : List Char} (hempty : segment ≠ []) (hpoint : segment ≠ ['.']) :
    ∃ part, Part.ofSegment? segment = some part := by
  by_cases hpoints : segment = ['.', '.']
  · exact ⟨.above, by rw [hpoints]; rfl⟩
  · exact ⟨_, Part.ofSegment?_eq_name hempty hpoint hpoints⟩

/-- A segment alone that is not empty leads where it says. -/
theorem parts_of_lone {path : String} {first : List Char}
    (h : dropIdle (segments path).reverse = [first]) (hnonempty : first ≠ []) :
    parts path = partsOf [first] := by
  have hpath : segments path ≠ [[]] := by
    intro hempty
    rw [hempty] at h
    exact hnonempty (List.cons.inj h).1.symm
  rw [parts_eq_partsBefore hpath, h, List.reverse_singleton]
  exact partsBefore_of_ne (by simpa using hnonempty)

/-- A last segment that counts comes after the parts of those before it. -/
theorem parts_of_nested {path : String} {last next : List Char} {outer : List (List Char)}
    (h : dropIdle (segments path).reverse = last :: next :: outer) :
    parts path = partsBefore (next :: outer).reverse ++ (Part.ofSegment? last).toList := by
  have hpath : segments path ≠ [[]] := by
    intro hempty
    rw [hempty] at h
    cases h
  rw [parts_eq_partsBefore hpath, h, List.reverse_cons, partsBefore_concat (by simp)]

/-- The segments before the last one lead where they lead without their idle ones. -/
theorem parts_ofReversed_dropIdle {segs : List (List Char)} (h : segs ≠ [])
    (hslash : ∀ segment ∈ segs, '/' ∉ segment) :
    parts (ofReversed (dropIdle segs)) = partsBefore segs.reverse := by
  have hne : dropIdle segs ≠ [] := by
    rcases dropIdle_cases h with ⟨_, heq⟩ | ⟨_, _, _, heq, -⟩ <;> simp [heq]
  rw [parts_ofReversed hne fun segment hmem => hslash segment ((dropIdle_suffix _).subset hmem),
    partsBefore_dropIdle]

/-- The last segment of a path that counts: `last`, with those before it, `outer`, in reverse. The
first segment may be idle; it counts as a point, or not at all. -/
theorem exists_last_part {path parent : String} (h : parent? path = some parent) :
    ∃ last outer part, dropIdle (segments path).reverse = last :: outer
      ∧ (isIdle last = true → part = .here) ∧ (isIdle last = false → Part.ofSegment? last = some part)
      ∧ parts path = parts parent ++ [part]
      ∧ parts parent = if outer = [] then [] else partsBefore outer.reverse := by
  have hslash : ∀ segment ∈ dropIdle (segments path).reverse, '/' ∉ segment := fun segment hmem =>
    slash_notMem_segments segment (List.mem_reverse.mp ((dropIdle_suffix _).subset hmem))
  unfold parent? at h
  rcases dropIdle_cases (reverse_segments_ne_nil path) with
    ⟨first, hfirst⟩ | ⟨last, next, outer, hlast, hidle⟩
  · -- one segment is left, which has nothing above
    rw [hfirst] at h
    simp only at h
    split at h
    next => cases h
    next hnonempty =>
      obtain rfl : "" = parent := Option.some.inj h
      have hparts := parts_of_lone hfirst hnonempty
      have hnone : parts "" = [] := by decide
      by_cases hpoint : first = ['.']
      · subst hpoint
        exact ⟨['.'], [], .here, hfirst, fun _ => rfl, by decide, by rw [hparts, hnone]; rfl, hnone⟩
      · obtain ⟨part, hpart⟩ := exists_ofSegment? hnonempty hpoint
        refine ⟨first, [], part, hfirst, fun hidle => ?_, fun _ => hpart, ?_, hnone⟩
        · simp [isIdle, hpart] at hidle
        · rw [hparts, hnone, partsOf, if_neg hnonempty, if_neg hpoint, hpart]
          rfl
  · -- what is left ends with a segment that is not idle, and others are above
    rw [hlast] at h hslash
    obtain rfl := Option.some.inj h
    obtain ⟨part, hpart⟩ : ∃ part, Part.ofSegment? last = some part := by
      simpa [isIdle, Option.isNone_eq_false_iff, Option.isSome_iff_exists] using hidle
    have hparent := parts_ofReversed_dropIdle (List.cons_ne_nil next outer)
      (List.forall_mem_cons.mp hslash).2
    refine ⟨last, next :: outer, part, hlast, fun hnone => ?_, fun _ => hpart, ?_, ?_⟩
    · rw [hidle] at hnone
      cases hnone
    · rw [parts_of_nested hlast, hpart, hparent]
      rfl
    · rw [hparent, if_neg (List.cons_ne_nil _ _)]

/-! ## Another extension -/

/-- A path that does not end in a name. -/
def IsNameless (path : String) : Prop := ∀ front name, parts path ≠ front ++ [.name name]

theorem isNameless_of_parts {path : String} {front : List Part} {part : Part}
    (h : parts path = front ++ [part]) (hpart : ∀ name, part ≠ .name name) : IsNameless path := by
  intro front' name heq
  exact hpart name (List.singleton_inj.mp (List.append_inj_right' (h.symm.trans heq) rfl))

/-- A path without a parent has no name at its end. -/
theorem isNameless_of_parent?_eq_none {path : String} (h : parent? path = none) :
    IsNameless path := by
  rcases parts_of_parent?_eq_none h with hparts | hparts
  · intro front name heq
    rw [hparts] at heq
    simp at heq
  · exact isNameless_of_parts (hparts.trans (List.nil_append _).symm) (by rintro name ⟨⟩)

/-- A path without a parent has no name whose extension could be another. -/
theorem withExtension_of_parent?_eq_none {path : String} (h : parent? path = none)
    (extension : String) : withExtension path extension = path := by
  unfold withExtension
  rw [dropIdle_of_parent?_eq_none h]
  rfl

/-- A segment that counts and does not lead back is a name. -/
theorem ofSegment?_of_isIdle_eq_false {segment : List Char} (hidle : isIdle segment = false)
    (habove : segment ≠ ['.', '.']) :
    Part.ofSegment? segment = some (.name (String.ofList segment)) := by
  refine Part.ofSegment?_eq_name ?_ ?_ habove
  · rintro rfl
    cases hidle
  · rintro rfl
    cases hidle

/-- The stem is a part of the name. -/
theorem mem_stem {name : List Char} {c : Char} (h : c ∈ stem name) : c ∈ name := by
  unfold stem at h
  split at h
  next => exact h
  next d before hback =>
    split at h
    next => exact h
    next =>
      have hsub := (List.dropWhile_suffix (· ≠ '.')).subset (hback ▸ List.mem_cons_of_mem d
        (List.mem_reverse.mp h))
      exact List.mem_reverse.mp hsub

/-- A name with another extension is a name, since it is longer than two points. -/
theorem isName_stem {name extension : List Char} (hname : '/' ∉ name) (hslash : '/' ∉ extension)
    (hlength : 2 ≤ extension.length) : IsName (String.ofList (stem name ++ '.' :: extension)) := by
  refine isName_of_length ?_ ?_
  · rw [String.toList_ofList, List.mem_append, List.mem_cons]
    rintro (hc | hc | hc)
    · exact hname (mem_stem hc)
    · exact absurd hc (by decide)
    · exact hslash hc
  · rw [String.toList_ofList, List.length_append, List.length_cons]
    omega

/-- A name behind segments is the last part. -/
theorem parts_ofSegments_concat {name : List Char} (h : IsName (String.ofList name))
    {segs : List (List Char)} (hsegs : ∀ segment ∈ segs, '/' ∉ segment) :
    parts (ofSegments (segs ++ [name]))
      = (if segs = [] then [] else partsBefore segs) ++ [.name (String.ofList name)] := by
  have hpart := h.part
  have hnoSlash := h.noSlash
  rw [String.toList_ofList] at hpart hnoSlash
  have hall : ∀ segment ∈ segs ++ [name], '/' ∉ segment :=
    List.forall_mem_append.mpr ⟨hsegs, List.forall_mem_singleton.mpr hnoSlash⟩
  rw [parts_eq_partsOf, segments_ofSegments (by simp) hall]
  split
  next hnil =>
    have halone := h.parts
    rw [parts_eq_partsOf, h.segments, String.toList_ofList] at halone
    rw [hnil, List.nil_append, List.nil_append, halone]
  next hcons => rw [partsOf_concat hcons, hpart]; rfl

/-- With another extension a path leads to another name in the directory of its parent, or it stays as
it is because it does not end in a name. -/
theorem withExtension_cases (path : String) {extension : String} (hslash : '/' ∉ extension.toList)
    (hlength : 2 ≤ extension.toList.length) :
    (withExtension path extension = path ∧ IsNameless path)
      ∨ ∃ parent name, parent? path = some parent
        ∧ parts path = parts parent ++ [.name (String.ofList name)]
        ∧ parts (withExtension path extension)
          = parts parent ++ [.name (String.ofList (stem name ++ '.' :: extension.toList))]
        ∧ extension? path = (extensionOf? name).map String.ofList := by
  cases hparent : parent? path with
  | none =>
    exact .inl
      ⟨withExtension_of_parent?_eq_none hparent extension, isNameless_of_parent?_eq_none hparent⟩
  | some parent =>
    obtain ⟨last, outer, part, hlast, hhere, hpart, hparts, houter⟩ := exists_last_part hparent
    have hnoSlash : ∀ segment ∈ last :: outer, '/' ∉ segment := fun segment hmem =>
      slash_notMem_segments segment
        (List.mem_reverse.mp ((dropIdle_suffix _).subset (hlast ▸ hmem)))
    obtain ⟨hlastSlash, houterSlash⟩ := List.forall_mem_cons.mp hnoSlash
    unfold withExtension extension?
    rw [hlast]
    by_cases hname : isIdle last = false ∧ last ≠ ['.', '.']
    · right
      obtain ⟨hidle, habove⟩ := hname
      obtain rfl : .name (String.ofList last) = part :=
        Option.some.inj
          ((ofSegment?_of_isIdle_eq_false hidle habove).symm.trans (hpart hidle))
      have hkeep : ¬(isIdle last || decide (last = ['.', '.'])) = true := by simp [hidle, habove]
      refine ⟨parent, last, rfl, hparts, ?_, by simp only [if_neg hkeep]⟩
      simp only [if_neg hkeep]
      rw [List.reverse_cons, parts_ofSegments_concat (isName_stem hlastSlash hslash hlength)
        (fun segment hmem => houterSlash segment (List.mem_reverse.mp hmem)), houter]
      simp only [List.reverse_eq_nil_iff]
    · left
      have hkeep : (isIdle last || decide (last = ['.', '.'])) = true := by
        rw [not_and_or, Bool.not_eq_false, not_not] at hname
        simpa using hname
      refine ⟨by simp only [if_pos hkeep], isNameless_of_parts hparts ?_⟩
      -- the last part is the place that the path begins at, or the directory above
      cases hidle : isIdle last with
      | true =>
        rw [hhere hidle]
        rintro name ⟨⟩
      | false =>
        have habove : last = ['.', '.'] := by simpa [hidle] using hkeep
        have hsome := hpart hidle
        rw [habove] at hsome
        obtain rfl : .above = part := Option.some.inj hsome
        rintro name ⟨⟩

/-! ## Joined paths -/

/-- A path that goes on with the segments of another has its extension, unless it ends as only a
directory can. -/
theorem extension?_of_segments {path path' : String} {front : List (List Char)} (hfront : front ≠ [])
    (h : segments path' = front ++ segments path) :
    endsAsDirectory path' = true ∨ extension? path' = extension? path := by
  obtain ⟨next, outer, houter⟩ := List.exists_cons_of_ne_nil (List.reverse_ne_nil_iff.mpr hfront)
  cases hlast : (segments path).reverse with
  | nil => exact absurd hlast (reverse_segments_ne_nil path)
  | cons last others =>
    have hback : (segments path').reverse = last :: (others ++ next :: outer) := by
      rw [h, List.reverse_append, hlast, houter]
      rfl
    -- there is a segment above the last, so the last is dropped only if it is idle
    obtain ⟨second, rest, hrest⟩ : ∃ second rest, others ++ next :: outer = second :: rest :=
      List.exists_cons_of_ne_nil (by simp)
    unfold endsAsDirectory extension?
    rw [hback, hlast, hrest]
    cases hidle : isIdle last with
    | true => exact .inl hidle
    | false =>
      right
      rw [dropIdle_of_not_isIdle hidle, dropIdle_of_not_isIdle hidle]

/-- A joined path has the extension of its right side, unless it ends as a directory. -/
theorem extension?_join (left right : String) :
    endsAsDirectory (join left right) = true
      ∨ extension? (join left right) = extension? right := by
  by_cases hright : right.toList.head? = some '/'
  · exact .inr (by rw [join, if_pos hright])
  by_cases hopen : IsOpen left
  · rw [join_of_isOpen hopen hright]
    rcases hopen with rfl | hlast
    · rw [String.empty_append]
      exact .inr rfl
    · obtain ⟨front, rfl⟩ := exists_of_getLast?_eq_slash hlast
      exact extension?_of_segments (List.splitOn_ne_nil _ _) (segments_slash front right)
  · rw [join_of_not_isOpen hopen hright]
    exact extension?_of_segments (List.splitOn_ne_nil _ _) (segments_slash left right)

/-! ## Parts -/

/-- A character of a path that parts nothing stands in one of its names. -/
theorem exists_name_of_mem {path : String} {c : Char} (hc : c ∈ path.toList) (hslash : c ≠ '/')
    (hpoint : c ≠ '.') : ∃ name, .name name ∈ parts path ∧ c ∈ name.toList := by
  obtain ⟨piece, hpiece, hmem⟩ := (eq_or_mem_piece '/' hc).resolve_left hslash
  have hempty : piece ≠ [] := List.ne_nil_of_mem hmem
  have hhere : piece ≠ ['.'] := fun heq => hpoint (by simpa [heq] using hmem)
  have habove : piece ≠ ['.', '.'] := fun heq => hpoint (by simpa [heq] using hmem)
  -- a piece with another character than points is a name
  have hpart := Part.ofSegment?_eq_name hempty hhere habove
  refine ⟨String.ofList piece, ?_, by rwa [String.toList_ofList]⟩
  rw [parts_eq_partsOf]
  cases hsegments : segments path with
  | nil => exact absurd hsegments (List.splitOn_ne_nil _ _)
  | cons first rest =>
    have hpiece' : piece ∈ first :: rest := hsegments ▸ hpiece
    rcases List.mem_cons.mp hpiece' with rfl | hrest
    · refine List.mem_append_left _ ?_
      rw [if_neg hempty, if_neg hhere, hpart]
      exact List.mem_singleton_self _
    · exact List.mem_append_right _ (List.mem_filterMap.mpr ⟨piece, hrest, hpart⟩)

/-- A root or a single point is the first part of a path, or none. -/
theorem cases_of_mem_tail {path : String} {part : Part} (h : part ∈ (parts path).tail) :
    part = .above ∨ ∃ name, part = .name name := by
  -- only the first segment is read as a root or a point
  have hsegment : ∀ rest : List (List Char), part ∈ rest.filterMap Part.ofSegment? →
      part = .above ∨ ∃ name, part = .name name := by
    intro rest hrest
    obtain ⟨segment, -, heq⟩ := List.mem_filterMap.mp hrest
    unfold Part.ofSegment? at heq
    split at heq
    next => cases heq
    next => cases heq
    next => exact .inl (Option.some.inj heq).symm
    next => exact .inr ⟨_, (Option.some.inj heq).symm⟩
  rw [parts_eq_partsOf] at h
  cases hsegments : segments path with
  | nil => exact absurd hsegments (List.splitOn_ne_nil _ _)
  | cons first rest =>
    rw [hsegments] at h
    simp only [partsOf] at h
    generalize hstart : (if first = [] then if rest.isEmpty then [] else [Part.root]
      else if first = ['.'] then [Part.here] else (Part.ofSegment? first).toList) = start at h
    -- the first segment has one part at most, so the tail is made by the others
    have hlength : start.length ≤ 1 := by
      rw [← hstart]
      split
      next => split <;> simp
      next =>
        split
        next => simp
        next => cases Part.ofSegment? first <;> simp
    match start with
    | [] => exact hsegment rest (List.mem_of_mem_tail h)
    | [_] => exact hsegment rest h

end TypedEntities.Path
