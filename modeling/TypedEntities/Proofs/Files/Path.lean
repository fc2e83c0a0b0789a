import Mathlib
import TypedEntities.Files.Path

/-!
# Paths that are joined

A path is read segment by segment. Joining a name to a path adds one segment, whatever the path is:
`parts_join` says so of the parts that count, and `segments_join` of the text itself, for a path that
has no empty segment. Paths with one key have the same parts (`parts_eq_of_sortKey_eq`).
-/

namespace TypedEntities.Path

variable {path left right : String}

/-! ## Segments -/

theorem segments_eq_singleton (h : '/' ∉ path.toList) : segments path = [path.toList] :=
  List.splitOn_eq_singleton h

/-- A slash between two texts keeps their segments apart. -/
theorem segments_slash (left right : String) :
    segments (left ++ "/" ++ right) = segments left ++ segments right := by
  unfold segments
  rw [String.toList_append, String.toList_append, List.append_assoc]
  exact List.splitOn_append_cons_self ..

/-- Paths with the same segments are the same text. -/
theorem eq_of_segments_eq (h : segments left = segments right) : left = right := by
  have hjoin := congrArg (List.intercalate ['/']) h
  unfold segments at hjoin
  rw [List.intercalate_splitOn, List.intercalate_splitOn] at hjoin
  exact String.toList_injective hjoin

/-- What a path ends in comes after its last slash. -/
theorem exists_of_getLast?_eq_slash (h : path.toList.getLast? = some '/') :
    ∃ front, path = front ++ "/" := by
  obtain ⟨chars, hchars⟩ := List.getLast?_eq_some_iff.mp h
  refine ⟨String.ofList chars, String.toList_injective ?_⟩
  rw [String.toList_append, String.toList_ofList]
  exact hchars

/-! ## Names -/

/-- A text that is one part of a path and stands for itself. -/
structure IsName (name : String) : Prop where
  noSlash : '/' ∉ name.toList
  part : Part.ofSegment? name.toList = some (.name name)

/-- A segment that is neither empty nor one or two points is a name. -/
theorem Part.ofSegment?_eq_name {segment : List Char} (hempty : segment ≠ [])
    (hpoint : segment ≠ ['.']) (hpoints : segment ≠ ['.', '.']) :
    Part.ofSegment? segment = some (.name (String.ofList segment)) := by
  unfold Part.ofSegment?
  split
  next => exact absurd rfl hempty
  next => exact absurd rfl hpoint
  next => exact absurd rfl hpoints
  next => rfl

/-- A text that is neither empty nor one or two points stands for itself. -/
theorem isName_of_ne {name : String} (hslash : '/' ∉ name.toList) (hempty : name.toList ≠ [])
    (hpoint : name.toList ≠ ['.']) (hpoints : name.toList ≠ ['.', '.']) : IsName name :=
  ⟨hslash, by rw [Part.ofSegment?_eq_name hempty hpoint hpoints, String.ofList_toList]⟩

/-- A text of more than two characters stands for itself. -/
theorem isName_of_length {name : String} (hslash : '/' ∉ name.toList)
    (hlength : 2 < name.toList.length) : IsName name := by
  refine isName_of_ne hslash ?_ ?_ ?_ <;> exact fun heq => by simp [heq] at hlength

theorem IsName.segments {name : String} (h : IsName name) : segments name = [name.toList] :=
  segments_eq_singleton h.noSlash

theorem IsName.ne_nil {name : String} (h : IsName name) : name.toList ≠ [] := by
  intro hnil
  have hpart := h.part
  rw [hnil] at hpart
  cases hpart

theorem IsName.head?_ne {name : String} (h : IsName name) : name.toList.head? ≠ some '/' :=
  fun hhead => h.noSlash (List.mem_of_head? hhead)

/-! ## Joining -/

/-- A path below which names can be put without a slash between. -/
def IsOpen (path : String) : Prop := path = "" ∨ path.toList.getLast? = some '/'

theorem join_of_isOpen (h : IsOpen left) (hright : right.toList.head? ≠ some '/') :
    join left right = left ++ right := by
  unfold join IsOpen at *
  rw [if_neg hright, if_pos h]

theorem join_of_not_isOpen (h : ¬IsOpen left) (hright : right.toList.head? ≠ some '/') :
    join left right = left ++ "/" ++ right := by
  unfold join IsOpen at *
  rw [if_neg hright, if_neg h]

theorem filterMap_ofSegment?_singleton (segment : List Char) :
    [segment].filterMap Part.ofSegment? = (Part.ofSegment? segment).toList := by
  cases hpart : Part.ofSegment? segment <;> simp [hpart]

/-- One segment more adds the part that it is. -/
theorem parts_of_segments_concat {path' : String} {segment : List Char}
    (h : segments path' = segments path ++ [segment]) (hpath : path ≠ "") :
    parts path' = parts path ++ (Part.ofSegment? segment).toList := by
  cases hsegments : segments path with
  | nil => exact absurd hsegments (List.splitOn_ne_nil _ _)
  | cons first rest =>
    have hrest : first = [] → rest.isEmpty = false := by
      rintro rfl
      cases rest with
      | nil => exact absurd (eq_of_segments_eq (show segments path = segments "" from hsegments)) hpath
      | cons second rest => rfl
    unfold parts
    rw [h, hsegments, List.cons_append, ← filterMap_ofSegment?_singleton]
    by_cases hfirst : first = []
    · simp [hfirst, hrest hfirst, List.filterMap_append]
    · simp [hfirst, List.filterMap_append]

/-- A name is one part. -/
theorem IsName.parts {name : String} (h : IsName name) : parts name = [.name name] := by
  have hpoint : name.toList ≠ ['.'] := by
    intro heq
    have hpart := h.part
    rw [heq] at hpart
    cases hpart
  unfold Path.parts
  rw [h.segments]
  show (if name.toList = [] then _ else _) ++ [] = _
  rw [if_neg h.ne_nil, if_neg hpoint, h.part]
  rfl

/-- **Joining a name adds one part**, whatever the path is. -/
theorem parts_join {name : String} (h : IsName name) (path : String) :
    parts (join path name) = parts path ++ [.name name] := by
  have hparts : (Part.ofSegment? name.toList).toList = [.name name] := by rw [h.part]; rfl
  by_cases hopen : IsOpen path
  · rw [join_of_isOpen hopen h.head?_ne]
    rcases hopen with rfl | hlast
    · rw [String.empty_append, h.parts]
      rfl
    · obtain ⟨front, rfl⟩ := exists_of_getLast?_eq_slash hlast
      have hname : segments (front ++ "/" ++ name) = segments front ++ [name.toList] := by
        rw [segments_slash, h.segments]
      have hslash : segments (front ++ "/") = segments front ++ [[]] := by
        have hempty := segments_slash front ""
        rwa [String.append_empty] at hempty
      by_cases hfront : front = ""
      · -- the path is the root alone
        subst hfront
        have hroot : ∀ segment, segments "" ++ [segment] = [[], segment] := fun _ => rfl
        rw [hroot] at hname hslash
        unfold Path.parts
        rw [hname, hslash]
        show [Part.root] ++ List.filterMap _ [name.toList]
          = ([Part.root] ++ List.filterMap _ [[]]) ++ [.name name]
        rw [filterMap_ofSegment?_singleton, filterMap_ofSegment?_singleton, hparts]
        rfl
      · -- the empty segment at the end of the path has no meaning
        rw [parts_of_segments_concat hname hfront, parts_of_segments_concat hslash hfront, hparts]
        simp [Part.ofSegment?]
  · have hpath : path ≠ "" := fun hempty => hopen (.inl hempty)
    rw [join_of_not_isOpen hopen h.head?_ne, ← hparts]
    refine parts_of_segments_concat ?_ hpath
    rw [segments_slash, h.segments]

/-- A name and one below it are joined in one step or in two. -/
theorem join_join {name : String} (h : IsName name) (path below : String)
    (hbelow : below.toList.head? ≠ some '/') :
    join (join path name) below = join path (name ++ "/" ++ below) := by
  -- the joined path ends in a name, so a slash is put behind it
  have hclosed : ¬IsOpen (join path name) := by
    have hlast : ∀ front : String, ¬IsOpen (front ++ name) := by
      rintro front (hempty | hslash)
      · have hnil : front.toList ++ name.toList = [] := by
          rw [← String.toList_append, hempty]
          rfl
        exact h.ne_nil (List.append_eq_nil_iff.mp hnil).2
      · rw [String.toList_append, List.getLast?_append_of_ne_nil _ h.ne_nil] at hslash
        exact h.noSlash (List.mem_of_getLast? hslash)
    by_cases hopen : IsOpen path
    · rw [join_of_isOpen hopen h.head?_ne]
      exact hlast path
    · rw [join_of_not_isOpen hopen h.head?_ne]
      exact hlast (path ++ "/")
  have hhead : (name ++ "/" ++ below).toList.head? ≠ some '/' := by
    rw [String.toList_append, String.toList_append, List.append_assoc,
      List.head?_append_of_ne_nil _ h.ne_nil]
    exact h.head?_ne
  rw [join_of_not_isOpen hclosed hbelow]
  by_cases hopen : IsOpen path
  · rw [join_of_isOpen hopen h.head?_ne, join_of_isOpen hopen hhead]
    simp only [String.append_assoc]
  · rw [join_of_not_isOpen hopen h.head?_ne, join_of_not_isOpen hopen hhead]
    simp only [String.append_assoc]

/-- Joining to a path without empty segments adds the segments of what is joined. -/
theorem segments_join (hpath : [] ∉ segments left) (hright : right.toList.head? ≠ some '/') :
    segments (join left right) = segments left ++ segments right := by
  have hclosed : ¬IsOpen left := by
    rintro (rfl | hlast)
    · exact hpath (List.mem_singleton.mpr rfl)
    · obtain ⟨front, rfl⟩ := exists_of_getLast?_eq_slash hlast
      have hempty := segments_slash front ""
      rw [String.append_empty] at hempty
      rw [hempty] at hpath
      exact hpath (List.mem_append_right _ (List.mem_singleton.mpr rfl))
  rw [join_of_not_isOpen hclosed hright, segments_slash]

/-- A path whose segments all stand for themselves has just these parts. -/
theorem parts_eq_map_name (h : ∀ segment ∈ segments path,
      Part.ofSegment? segment = some (.name (String.ofList segment))) :
    parts path = (segments path).map fun segment => .name (String.ofList segment) := by
  have hall : ∀ l : List (List Char),
      (∀ segment ∈ l, Part.ofSegment? segment = some (.name (String.ofList segment))) →
      l.filterMap Part.ofSegment? = l.map fun segment => .name (String.ofList segment) := by
    intro l hl
    rw [← List.filterMap_eq_map]
    exact List.filterMap_congr hl
  cases hsegments : segments path with
  | nil => exact absurd hsegments (List.splitOn_ne_nil _ _)
  | cons first rest =>
    rw [hsegments] at h
    have hfirst := h first (List.mem_cons_self ..)
    -- the first segment is a name, so it is neither of the two that are read otherwise
    have hempty : first ≠ [] := by
      rintro rfl
      cases hfirst
    have hpoint : first ≠ ['.'] := by
      rintro rfl
      cases hfirst
    unfold Path.parts
    rw [hsegments]
    show (if first = [] then _ else _) ++ _ = _
    rw [if_neg hempty, if_neg hpoint, hfirst,
      hall rest fun segment hmem => h segment (List.mem_cons_of_mem _ hmem)]
    rfl

/-! ## Keys -/

/-- The key of a part begins with a digit for its kind. -/
theorem Part.sortKey_inj {a b : Part} (h : a.sortKey = b.sortKey) : a = b := by
  -- the keys begin with digits that tell the kinds of parts apart
  have hname : ∀ text, (Part.name text).sortKey.toList = '3' :: text.toList := by
    intro text
    show ("3" ++ text).toList = _
    rw [String.toList_append]
    rfl
  have hchars := congrArg String.toList h
  cases a with
  | name text =>
    cases b with
    | name text' =>
      rw [hname, hname] at hchars
      rw [String.toList_injective (List.cons_eq_cons.mp hchars).2]
    | root | here | above =>
      rw [hname] at hchars
      cases hchars
  | root | here | above =>
    cases b with
    | name text' =>
      rw [hname] at hchars
      cases hchars
    | root | here | above => first | rfl | cases hchars

/-- Paths with one key have the same parts. -/
theorem sortKey_inj : sortKey left = sortKey right ↔ parts left = parts right := by
  constructor
  · intro h
    exact List.map_injective_iff.mpr (fun _ _ hab => Part.sortKey_inj hab) (congrArg Texts.list h)
  · intro h
    unfold sortKey
    rw [h]

end TypedEntities.Path
