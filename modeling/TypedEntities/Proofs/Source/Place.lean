import Mathlib
import TypedEntities.Proofs.Files.Path
import TypedEntities.Proofs.Java.Distinct
import TypedEntities.Proofs.Java.TypeExpr
import TypedEntities.Proofs.Source.Model
import TypedEntities.Source.Emitted

/-!
# Where a source is put

The file of a source is given by a folder of the package and a stem, which is the name of the class
in it: its `Place`. Whatever the names that a server gives, folders and stems are plain names, so
the path is made of the segments of the package, those of the folder and one more
(`segments_file`), and different places are different files in every directory (`file_inj`).
-/

namespace TypedEntities

open TypedEntities.Java (typeName modelClass interfaceName isWordChar)
open TypedEntities.Path (parts segments IsName)

/-! ## Segments of packages and names of types -/

namespace Settings

/-- A letter or an underscore, then letters, digits and underscores: word characters that do not
start with a digit. -/
theorem isPackageSegment_iff {text : List Char} : isPackageSegment text = true
    ↔ text ≠ [] ∧ (∀ c ∈ text, isWordChar c) ∧ ∀ c ∈ text.head?, c.isDigit = false := by
  cases text with
  | nil => simp [isPackageSegment]
  | cons d rest =>
    have hfirst : (d.isAlpha || d == '_') = true ↔ isWordChar d ∧ d.isDigit = false := by
      rw [Bool.eq_false_iff, ne_eq, Java.isWordChar_iff_toNat, Java.isDigit_iff_toNat]
      simp only [Char.isAlpha, Bool.or_eq_true, beq_iff_eq, Java.isUpper_iff_toNat,
        Java.isLower_iff_toNat, Java.eq_underscore_iff_toNat]
      omega
    have hrest : (rest.all fun c => c.isAlphanum || c == '_') = true ↔ ∀ c ∈ rest, isWordChar c :=
      List.all_eq_true
    unfold isPackageSegment
    rw [Bool.and_eq_true, hfirst, hrest]
    simp only [List.forall_mem_cons, List.head?_cons, Option.mem_some_iff, forall_eq']
    tauto

/-- A type name with something behind it is a segment if that is one. -/
theorem isPackageSegment_typeName_append (text : String) {suffix : String}
    (h : isPackageSegment suffix.toList = true) :
    isPackageSegment (typeName text ++ suffix).toList = true := by
  obtain ⟨hne, hchars, hhead⟩ := isPackageSegment_iff.mp h
  rw [isPackageSegment_iff, String.toList_append]
  refine ⟨fun hnil => hne (List.append_eq_nil_iff.mp hnil).2, fun c hc => ?_, ?_⟩
  · rcases List.mem_append.mp hc with hc | hc
    · exact Java.isWordChar_of_mem_typeName c hc
    · exact hchars c hc
  · -- the type name may be empty, and then the suffix begins the name
    by_cases hempty : (typeName text).toList = []
    · rwa [hempty, List.nil_append]
    · rw [List.head?_append_of_ne_nil _ hempty, typeName, String.toList_ofList]
      exact Java.head?_guardDigit _

theorem isPackageSegment_of_isConstant {constant : String} (h : Java.IsConstant constant) :
    isPackageSegment constant.toList = true := by
  refine isPackageSegment_iff.mpr ⟨h.ne_nil, fun c hc => ?_, h.head⟩
  have hconstant := Java.isConstantChar_iff_toNat.mp (h.chars c hc)
  rw [Java.isWordChar_iff_toNat]
  omega

/-- A segment of word characters has no slash. -/
theorem slash_notMem {text : List Char} (h : isPackageSegment text = true) : '/' ∉ text := by
  intro hmem
  exact absurd ((isPackageSegment_iff.mp h).2.1 _ hmem) (by decide)

/-- A segment of a package is a name in a path. -/
theorem isName_of_isPackageSegment {name : String} (h : isPackageSegment name.toList = true) :
    IsName name := by
  have hpoint : '.' ∉ name.toList := fun hmem =>
    absurd ((isPackageSegment_iff.mp h).2.1 _ hmem) (by decide)
  exact Path.isName_of_ne (slash_notMem h) (isPackageSegment_iff.mp h).1
    (fun hone => hpoint (hone ▸ List.mem_cons_self ..))
    (fun htwo => hpoint (htwo ▸ List.mem_cons_self ..))

end Settings

/-! ## Places -/

/-- A folder of the package and the name of a class. -/
structure Place where
  folder : String
  stem : String
deriving DecidableEq, Repr

/-- The folders of a package. -/
def Place.folders : List String := ["model", "entities", "enums/lists", "enums"]

/-- A place that a source can have: one of the folders, and a stem that can name a class. -/
structure Place.IsLegal (p : Place) : Prop where
  folder : p.folder ∈ Place.folders
  stem : Settings.isPackageSegment p.stem.toList = true

/-- The file at a place. -/
def Place.file (p : Place) (l : Layout) : String := l.javaFile p.folder p.stem

/-- The place of a source. -/
def Source.place : Source → Place
  | .list s => ⟨"enums/lists", s.list.identifier⟩
  | .phases _ => ⟨"enums", "Phases"⟩
  | .model m => ⟨"model", m.className⟩
  | .interface i => ⟨"model", i.name⟩
  | .entityList l => ⟨"entities", l.className⟩

theorem Layout.file_eq (l : Layout) (s : Source) : l.file s = s.place.file l := by
  cases s <;> rfl

theorem Source.folder_mem (s : Source) : s.place.folder ∈ Place.folders := by
  cases s <;> simp [place, Place.folders]

/-- Of all sources only the enumerations of lists have a stem that is not made legal right here. -/
theorem Source.isLegal_place {s : Source} (h : ∀ list, s = .list list →
      Settings.isPackageSegment list.list.identifier.toList = true) : s.place.IsLegal := by
  refine ⟨s.folder_mem, ?_⟩
  cases s with
  | list list => exact h list rfl
  | phases phases =>
    show Settings.isPackageSegment "Phases".toList = true
    decide
  | model m => exact Settings.isPackageSegment_typeName_append m.entity (by decide)
  | interface i => exact Settings.isPackageSegment_typeName_append i.entity (by decide)
  | entityList l => exact Settings.isPackageSegment_typeName_append l.entity (by decide)

namespace Place

variable {p p' : Place} {l : Layout}

theorem IsLegal.isName (h : p.IsLegal) : IsName (p.stem ++ ".java") := by
  have hslash := Settings.slash_notMem h.stem
  refine Path.isName_of_length ?_ ?_
  · rw [String.toList_append, List.mem_append, not_or]
    exact ⟨hslash, by decide⟩
  · rw [String.toList_append, List.length_append]
    have : ".java".toList.length = 5 := by decide
    omega

/-- Every folder adds its own parts to those of a directory. -/
theorem parts_join_folder {folder : String} (h : folder ∈ folders) (directory : String) :
    parts (Path.join directory folder) = parts directory ++ parts folder := by
  have hsimple : ∀ name, Settings.isPackageSegment name.toList = true →
      parts (Path.join directory name) = parts directory ++ parts name := by
    intro name hname
    have hisName := Settings.isName_of_isPackageSegment hname
    rw [Path.parts_join hisName, hisName.parts]
  have henums : IsName "enums" := Settings.isName_of_isPackageSegment (by decide)
  have hlists : IsName "lists" := Settings.isName_of_isPackageSegment (by decide)
  -- the enumerations of lists are two folders down
  have hnested : Path.join directory "enums/lists"
      = Path.join (Path.join directory "enums") "lists" :=
    (Path.join_join henums directory "lists" (by decide)).symm
  fin_cases h
  · exact hsimple "model" (by decide)
  · exact hsimple "entities" (by decide)
  · show parts (Path.join directory "enums/lists") = _
    rw [hnested, Path.parts_join hlists, Path.parts_join henums, List.append_assoc]
    rfl
  · exact hsimple "enums" (by decide)

theorem parts_file (h : p.IsLegal) (l : Layout) :
    parts (p.file l) = parts l.directory ++ parts p.folder ++ [.name (p.stem ++ ".java")] := by
  show parts (Path.join (Path.join l.directory p.folder) (p.stem ++ ".java")) = _
  rw [Path.parts_join h.isName, parts_join_folder h.folder]

/-- Different folders have different parts. -/
theorem folder_inj {folder folder' : String} (h : folder ∈ folders) (h' : folder' ∈ folders)
    (heq : parts folder = parts folder') : folder = folder' := by
  fin_cases h <;> fin_cases h' <;> first | rfl | exact absurd heq (by decide)

/-- **Different places are different files**, in every directory, and not only as texts. -/
theorem file_inj (h : p.IsLegal) (h' : p'.IsLegal) :
    Path.sortKey (p.file l) = Path.sortKey (p'.file l) ↔ p = p' := by
  rw [Path.sortKey_inj, parts_file h, parts_file h']
  constructor
  · intro heq
    obtain ⟨hfolder, hstem⟩ := List.append_inj' heq rfl
    have hname : p.stem ++ ".java" = p'.stem ++ ".java" := by
      obtain ⟨hpart, -⟩ := List.cons_eq_cons.mp hstem
      exact Path.Part.name.inj hpart
    have hfolders := folder_inj h.folder h'.folder (List.append_cancel_left hfolder)
    cases p
    cases p'
    rw [Place.mk.injEq]
    exact ⟨hfolders, (String.append_left_inj _).mp hname⟩
  · rintro rfl
    rfl

/-- The segments of a file are those of the directory, of the folder and of its name. -/
theorem segments_file (h : p.IsLegal) (hdirectory : [] ∉ segments l.directory) :
    segments (p.file l)
      = segments l.directory ++ segments p.folder ++ [(p.stem ++ ".java").toList] := by
  have hfolder : p.folder.toList.head? ≠ some '/' ∧ [] ∉ segments p.folder := by
    have hall : ∀ folder ∈ folders, folder.toList.head? ≠ some '/' ∧ [] ∉ segments folder := by
      decide
    exact hall p.folder h.folder
  have hjoin := Path.segments_join hdirectory hfolder.1
  have hopen : [] ∉ segments (Path.join l.directory p.folder) := by
    rw [hjoin, List.mem_append, not_or]
    exact ⟨hdirectory, hfolder.2⟩
  show segments (Path.join (Path.join l.directory p.folder) (p.stem ++ ".java")) = _
  rw [Path.segments_join hopen h.isName.head?_ne, hjoin, h.isName.segments]

end Place

end TypedEntities
