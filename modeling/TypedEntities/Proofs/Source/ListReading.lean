import Mathlib
import TypedEntities.Proofs.Settings.Setting
import TypedEntities.Proofs.Source.Comments
import TypedEntities.Proofs.Source.Enumeration

/-!
# Lists are read back from their sources

The source of a list begins with some lines before the header and those that
`Java.Enumeration.lines` has for the list (`exists_render_list`). So the enumeration is read back from
the source, with all that the list holds: `Lists.reads_build`.
-/

namespace TypedEntities

open TypedEntities.Metadata
open TypedEntities.Java (EnumConstant Enumeration isWordChar)
open TypedEntities.Template

/-! ## What a list declares -/

/-- The constant that an item is to be, marked if the item is deprecated. -/
def ListItem.constant (i : ListItem) : EnumConstant :=
  ⟨i.activity = .deprecated, i.identifier, i.id, i.name⟩

/-- The enumeration that a list is to be. An empty logical name is none. -/
def ListEnum.enumeration (list : ListEnum) : Enumeration :=
  ⟨list.identifier, list.items.map ListItem.constant, list.logicalName.filter (· ≠ "")⟩

/-- The lines of the source of a list before its header. -/
def ListSource.preamble (s : ListSource) : List String :=
  ["package " ++ s.package ++ ".enums.lists;",
    "",
    "import com.hpe.adm.nga.sdk.model.EntityModel;",
    "import com.hpe.adm.nga.sdk.model.FieldModel;",
    "import com.hpe.adm.nga.sdk.model.StringFieldModel;",
    "",
    "/**",
    " * Values of the " ++ s.list.identifier ++ " list.",
    " * Generated from workspace metadata, do not edit.",
    " */"]

/-! ## What the template prints -/

section Template

open Node

variable {frames : Frames} {known : List (LoopVariable × Json)}

/-- The part of the template before the header. -/
def listPreamble : List Node :=
  line ["package ", key "package", ".enums.lists;"] ++ enumerationImports
    ++ line [" * Values of the ", key "identifier", " list."] ++ generatedNotice

/-- The part of the template from the header to the logical name. -/
def listDeclaration : List Node :=
  line ["public enum ", key "identifier", " \x7b"]
    ++ (each "items" (onlyIf "deprecated" (lines ["    @Deprecated"]) ++ constantLine "    ")
      ++ (lines ["    ;", ""]
        ++ line ["    public static final String LOGICAL_NAME = ", Template.logicalName, ";"]))

theorem list_eq : Template.list = (listPreamble ++ listDeclaration) ++ (lines [""]
    ++ enumerationMembers "    " "identifier" "list_node" ++ lines ["\x7d"]) := by
  simp only [Template.list, listPreamble, listDeclaration, List.append_assoc]

/-- The line of a constant, where the round is known to be the last or not. -/
theorem prints_constantLine (i : ListItem) {last : Bool}
    (hlast : eval? (⟨i.toJson, known⟩ :: frames) (.loop .last) = some (.bool last)) :
    Prints (⟨i.toJson, known⟩ :: frames) (constantLine "    ") [i.constant.text last] := by
  have hseparator : renderNode (⟨i.toJson, known⟩ :: frames) (separator ",")
      = some (if last then "" else ",") := render_separator hlast ","
  have hnodes : renderNodes (⟨i.toJson, known⟩ :: frames)
      ["    ", key "identifier", "(\"", quoted (.key "id"), "\", \"", quoted (.key "name"), "\")",
        separator ","]
      = some (String.join ["    ", i.identifier, "(\"", Java.literalBody i.id, "\", \"",
        Java.literalBody i.name, "\")", if last then "" else ","]) :=
    renderNodes_of_forall₂ (.cons rfl (.cons rfl (.cons rfl (.cons rfl (.cons rfl (.cons rfl
      (.cons rfl (.cons hseparator .nil))))))))
  refine prints_line (hnodes.trans ?_)
  simp [EnumConstant.text, ListItem.constant, String.join_cons, String.append_assoc]

/-- The template prints each constant as it is expected to stand. -/
theorem prints_constant (i : ListItem) {last : Bool}
    (hlast : eval? (⟨i.toJson, known⟩ :: frames) (.loop .last) = some (.bool last)) :
    Prints (⟨i.toJson, known⟩ :: frames)
      (onlyIf "deprecated" (lines ["    @Deprecated"]) ++ constantLine "    ")
      (i.constant.lines last) :=
  (prints_onlyIf rfl (prints_lines _ ["    @Deprecated"])).append (prints_constantLine i hlast)

/-- An empty logical name does not hold, and neither does none. -/
theorem render_logicalName {name : Option String}
    (hname : eval? frames (.key "logical_name") = some (.ofText? name)) :
    renderNode frames Template.logicalName
      = some (Java.initializer (name.filter (· ≠ ""))) := by
  rw [Template.logicalName, renderNode, condition?_of_eval? hname]
  cases name with
  | none => rfl
  | some name =>
    have hquoted : renderNode frames (quoted (.key "logical_name"))
        = some (Java.literalBody name) := by
      rw [quoted, Expr.javaString, renderNode, eval?, evalAll?, hname]
      rfl
    have hliteral : renderNodes frames ["\"", quoted (.key "logical_name"), "\""]
        = some (String.join ["\"", Java.literalBody name, "\""]) :=
      renderNodes_of_forall₂ (.cons rfl (.cons hquoted (.cons rfl .nil)))
    by_cases hempty : name = ""
    · subst hempty
      rfl
    · simp [holds, Json.ofText?, hempty, hliteral, Option.filter, Java.initializer, String.join_cons,
        String.append_assoc]

/-- It prints what stands before the enumeration. -/
theorem prints_preamble (s : ListSource) :
    Prints [⟨s.toJson, []⟩] listPreamble s.preamble := by
  have hpackage : Prints [⟨s.toJson, []⟩] (line ["package ", key "package", ".enums.lists;"])
      ["package " ++ s.package ++ ".enums.lists;"] := prints_around rfl _ _
  have hvalues : Prints [⟨s.toJson, []⟩] (line [" * Values of the ", key "identifier", " list."])
      [" * Values of the " ++ s.list.identifier ++ " list."] := prints_around rfl _ _
  exact ((hpackage.append (prints_lines _ _)).append hvalues).append (prints_lines _ _)

/-- It prints the enumeration. -/
theorem prints_enumeration (s : ListSource) :
    Prints [⟨s.toJson, []⟩] listDeclaration s.list.enumeration.lines := by
  have hheader : Prints [⟨s.toJson, []⟩] (line ["public enum ", key "identifier", " \x7b"])
      [Java.headerText s.list.identifier] := prints_around rfl _ _
  have hitems : Prints [⟨s.toJson, []⟩]
      (each "items" (onlyIf "deprecated" (lines ["    @Deprecated"]) ++ constantLine "    "))
      (flatMapLast EnumConstant.lines s.list.enumeration.constants) := by
    rw [ListEnum.enumeration, flatMapLast_map]
    exact prints_each rfl fun i _ known last hlast => prints_constant i hlast
  have hend : Prints [⟨s.toJson, []⟩]
      (line ["    public static final String LOGICAL_NAME = ", Template.logicalName, ";"])
      [Java.logicalNameText s.list.enumeration.logicalName] :=
    prints_around (render_logicalName rfl) "    public static final String LOGICAL_NAME = " ";"
  exact hheader.append (hitems.append ((prints_lines _ ["    ;", ""]).append hend))

/-- The source of a list begins with the lines before its header and those of its enumeration. -/
theorem exists_render_list (s : ListSource) :
    ∃ rest, Engine.standard.render (Source.list s).kind.templateName (Source.list s).context
      = .ok (lineText (s.preamble ++ s.list.enumeration.lines) ++ rest) := by
  obtain ⟨text, htext, hrender⟩ := (Source.list s).exists_render
  have hfront := (prints_preamble s).append (prints_enumeration s)
  have hwhole : renderNodes [⟨s.toJson, []⟩] Template.list = some text := htext
  rw [list_eq, renderNodes_append, hfront, Option.bind_some] at hwhole
  obtain ⟨rest, -, rfl⟩ := Option.map_eq_some_iff.mp hwhole
  exact ⟨rest, hrender⟩

end Template

/-! ## Reading it back -/

open Java (IsPlain isPlain_of_isQuiet isPlain_between skipPreamble)

namespace ListSource

variable {s : ListSource} (hpackage : Settings.isPackage s.package = true)
include hpackage

theorem isClause_package :
    Java.isClause ("package " ++ s.package ++ ".enums.lists;").toList = true := by
  have hne : ".enums.lists;".toList ≠ [] := by decide
  have hlast : ".enums.lists;".toList.getLast? = some ';' := by decide
  have hchars : s.package.toList.all fun c => isWordChar c || c == '.' || c == ' ' := by
    refine List.all_eq_true.mpr fun c hc => ?_
    rcases Java.isWordChar_or_eq_point_of_mem_package hpackage c hc with hword | rfl
    · rw [hword]
      rfl
    · rfl
  rw [Java.isClause, String.toList_append, String.toList_append, List.append_assoc,
    List.dropLast_append_of_ne_nil (by simp), List.dropLast_append_of_ne_nil hne,
    List.getLast?_append, List.getLast?_append, hlast, List.all_append, List.all_append, hchars,
    List.isPrefixOf_iff_prefix.mpr (List.prefix_append ..)]
  simp only [Bool.true_or, Option.some_or, Bool.true_and]
  decide

variable (hlist : Settings.isPackageSegment s.list.identifier.toList = true)
include hlist

theorem isPlain_preamble : ∀ l ∈ s.preamble, IsPlain l.toList := by
  have hpackageLine : IsPlain ("package " ++ s.package ++ ".enums.lists;").toList :=
    isPlain_between (by decide) (Java.isWordChar_or_eq_point_of_mem_package hpackage) (by decide)
  have hvaluesLine : IsPlain (" * Values of the " ++ s.list.identifier ++ " list.").toList :=
    isPlain_between (by decide)
      (fun c hc => .inl ((Settings.isPackageSegment_iff.mp hlist).2.1 c hc)) (by decide)
  simp only [preamble, List.forall_mem_cons]
  refine ⟨hpackageLine, ?_, ?_, ?_, ?_, ?_, ?_, hvaluesLine, ?_, ?_, nofun⟩ <;>
    exact isPlain_of_isQuiet (by decide)

/-- What stands before the enumeration is passed over as a whole. -/
theorem skipPreamble_preamble (rest : List (List Char)) :
    skipPreamble false (s.preamble.map String.toList ++ rest) = skipPreamble false rest := by
  have hempty : "".toList = [] := by decide
  have hentity : Java.isClause "import com.hpe.adm.nga.sdk.model.EntityModel;".toList := by decide
  have hfield : Java.isClause "import com.hpe.adm.nga.sdk.model.FieldModel;".toList := by decide
  have hstring : Java.isClause "import com.hpe.adm.nga.sdk.model.StringFieldModel;".toList := by
    decide
  -- an identifier has no slash, so it does not end the comment
  have hvalues :
      ¬commentEnd <:+: (" * Values of the " ++ s.list.identifier ++ " list.").toList := by
    have hslash := Settings.slash_notMem hlist
    refine no_commentEnd ?_
    rw [String.toList_append, String.toList_append]
    exact List.not_mem_append (List.not_mem_append (by decide) hslash) (by decide)
  have hnotice : ¬commentEnd <:+: " * Generated from workspace metadata, do not edit.".toList := by
    decide
  simp only [preamble, List.map_cons, List.map_nil, List.cons_append, List.nil_append, hempty]
  rw [Java.skipPreamble_clause (isClause_package hpackage), Java.skipPreamble_empty,
    Java.skipPreamble_clause hentity, Java.skipPreamble_clause hfield,
    Java.skipPreamble_clause hstring, Java.skipPreamble_empty,
    Java.skipPreamble_opening (by decide) (by decide) (by decide),
    Java.skipPreamble_inside hvalues, Java.skipPreamble_inside hnotice,
    Java.skipPreamble_closing (by decide) (by decide)]

end ListSource

/-- The lists of a workspace have constants, and all identifiers can name something. -/
theorem Lists.isLegal_enumeration {roots values : List ListNode} {ignored : Table String Unit}
    {list : ListEnum} (h : list ∈ (Lists.build roots values ignored).enums) :
    list.enumeration.IsLegal := by
  have hidentifier := Settings.isPackageSegment_of_isConstant (Lists.isConstant_identifier h)
  have hmem : list ∈ enumsOf values [] (named (survivingRoots roots ignored)) :=
    (List.mergeSort_perm ..).subset h
  rw [← map_snd_homes, List.mem_map] at hmem
  obtain ⟨home, hhome, rfl⟩ := hmem
  obtain ⟨vs, heq, -⟩ := exists_eq_enumOf _ _ hhome
  -- the first constant is that of the root, and those of the values were told apart from it
  have hidentifiers : home.2.items.map ListItem.identifier = home.2.identifier
      :: Java.distinctConstants (vs.map sibling) (some home.2.identifier) := by
    have hlength : (Java.distinctConstants (vs.map sibling) (some home.2.identifier)).length
        = vs.length := by rw [Java.length_distinctConstants, List.length_map]
    rw [heq]
    exact congrArg _ (map_identifier_zipWith_item hlength)
  refine ⟨hidentifier, ?_, fun c hc => ?_⟩
  · intro hnil
    rw [ListEnum.enumeration, List.map_eq_nil_iff] at hnil
    rw [hnil] at hidentifiers
    cases hidentifiers
  · obtain ⟨i, hi, rfl⟩ := List.mem_map.mp hc
    have hmem := List.mem_map_of_mem (f := ListItem.identifier) hi
    rw [hidentifiers] at hmem
    rcases List.mem_cons.mp hmem with heq | hmem
    · show Settings.isPackageSegment i.identifier.toList = true
      rwa [heq]
    · exact Settings.isPackageSegment_of_isConstant (Java.isConstant_of_mem _ _ hmem)

/-- **Lists are read back.** Whatever the texts that a server sends, the enumeration of a list that
is read from its source has the list's name, its items as constants in their order, each with its id
and its name, marked if it is deprecated, and the list's logical name. -/
theorem Lists.reads_build {s : Settings} (hs : s.check = .ok s) (roots values : List ListNode)
    (ignored : Table String Unit) :
    ∀ list ∈ (Lists.build roots values ignored).enums, ∃ source,
      Engine.standard.render SourceKind.list.templateName
          ((Package.ofSettings s).listSource list).context = .ok source
        ∧ Java.readEnumeration? source = some list.enumeration := by
  intro list hlist
  have hlegal := Lists.isLegal_enumeration hlist
  have hpackage : Settings.isPackage (Package.ofSettings s).name = true :=
    Settings.isPackage_of_check hs
  have hplain := ListSource.isPlain_preamble (s := ⟨(Package.ofSettings s).name, list⟩) hpackage
    hlegal.identifier
  have hskip := ListSource.skipPreamble_preamble (s := ⟨(Package.ofSettings s).name, list⟩) hpackage
    hlegal.identifier
  obtain ⟨rest, hrender⟩ := exists_render_list ⟨(Package.ofSettings s).name, list⟩
  exact ⟨_, hrender, Enumeration.readEnumeration?_lineText hlegal hplain hskip rest⟩

/-- Settings in which all is set that has to be. -/
def Settings.sufficient : Settings :=
  ⟨"https://octane.example.com", 1001, 1002, ⟨"id", "secret"⟩, false, .default, .empty, "generated",
    "com.acme.sdk", 60000⟩

/-- A list that is named by a quote, a brace, a line end and the end of a comment. -/
def Lists.quotedRoots : List ListNode := [⟨"l1", "\"\x7d\n*/", some "", .active, none⟩]

/-- A value that is named by a Unicode escape, a quote, a comma and a line end. -/
def Lists.quotedValues : List ListNode :=
  [⟨"v\\", "\\u000a\",\r", none, .deprecated, some "l1"⟩]

theorem Lists.reads_build_quoted :
    Settings.sufficient.check = .ok Settings.sufficient
      ∧ (Lists.build quotedRoots quotedValues .empty).enums.length = 1
      ∧ ∀ list ∈ (Lists.build quotedRoots quotedValues .empty).enums, ∃ source,
        Engine.standard.render SourceKind.list.templateName
            ((Package.ofSettings .sufficient).listSource list).context = .ok source
          ∧ Java.readEnumeration? source = some list.enumeration :=
  have hcheck : Settings.sufficient.check = .ok Settings.sufficient := rfl
  ⟨hcheck, length_enums_build _ _ _, reads_build hcheck _ _ _⟩

end TypedEntities
