import Mathlib
import TypedEntities.Proofs.Generation.References
import TypedEntities.Proofs.Source.Place
import TypedEntities.Proofs.Source.Rendering
import TypedEntities.Proofs.Template.Comment

/-!
# Comments of the sources

Names and labels of the server stand in comments of the sources. `Source.comments` lists the
comments of a source, `Source.exists_comments` says that these and no others stand in the rendered
text. Labels are made fit for comments and identifiers of lists have no slash; the names of entity
types are filled in as they are. So a source keeps its comments unless such a name ends one:
`Package.keepsComments_sources`.

Comments are read character by character. Java replaces Unicode escapes before it looks for comments,
so an escape of the asterisk or the slash ends one as well; this is not looked for here, only `*/` as
it stands. (Where literals are read back, escapes are considered: `Java.plainLines`.)
-/

namespace TypedEntities

open TypedEntities.Metadata
open TypedEntities.Template (Comment Surrounds commentEnd)

/-! ## The comments of a source -/

namespace Source

/-- How the comment of a class goes on after its first sentence. -/
def noticeEnd : String := "\n * Generated from workspace metadata, do not edit.\n "

/-- The comment of a class, about a value between two texts. -/
def notice (before value after : String) : Comment :=
  .about ("*\n" ++ before) value (after ++ noticeEnd)

/-- The comment of a member, about a value between two texts. -/
def remark (before value after : String) : Comment :=
  .about ("*\n     * " ++ before) value (after ++ "\n     ")

/-- What stands around the value in the comment of a class can stand around one. -/
theorem surrounds_notice {before after : String} (h : Surrounds before after) :
    Surrounds ("*\n" ++ before) (after ++ noticeEnd) :=
  Surrounds.within (by decide) h

theorem surrounds_remark {before after : String} (h : Surrounds before after) :
    Surrounds ("*\n     * " ++ before) (after ++ "\n     ") :=
  Surrounds.within (by decide) h

/-- The comments of a source, in the order in which they stand there. -/
def comments : Source → List Comment
  | .model m =>
    notice " * Typed model of the " m.entity " entity type."
      :: m.fields.map fun f => remark "" f.label ""
  | .interface i => [notice " * Marker interface of the " i.entity " entity type."]
  | .entityList l => [notice " * Collection accessor of the " l.entity " entity type."]
  | .list s => [notice " * Values of the " s.list.identifier " list."]
  | .phases s =>
    .plain ("*\n * Workflow phases per entity type." ++ noticeEnd)
      :: s.groups.map fun g => remark "Phases of " g.entity "."

/-! ### Texts around the values -/

theorem surrounds_model : Surrounds " * Typed model of the " " entity type." := by decide

theorem surrounds_label : Surrounds "" "" := by decide

theorem surrounds_interface : Surrounds " * Marker interface of the " " entity type." := by decide

theorem surrounds_entityList : Surrounds " * Collection accessor of the " " entity type." := by
  decide

theorem surrounds_list : Surrounds " * Values of the " " list." := by decide

theorem surrounds_phaseGroup : Surrounds "Phases of " "." := by decide

/-- The comment of the class of all phases holds no value. -/
theorem slash_notMem_phases :
    '/' ∉ ("*\n * Workflow phases per entity type." ++ noticeEnd).toList :=
  Template.slash_notMem_of_slashFree (by decide +kernel)

end Source

/-! ## What the templates write -/

section Parts

open Template Node

variable {frames : Frames} {before after name value : String}

/-- The comment of a class. -/
theorem writes_notice (h : Surrounds before after)
    (he : eval? frames (.key name) = some (.text value)) :
    Writes frames (lines ["/**"] ++ line [text before, key name, text after] ++ generatedNotice)
      [Source.notice before value after] := by
  have hopening : ["/**" ++ "\n", before].flatMap String.toList
      = [] ++ '/' :: '*' :: ("*\n" ++ before).toList := by simp
  have hclosing : [after, "\n", " * Generated from workspace metadata, do not edit." ++ "\n",
        " */" ++ "\n"].flatMap String.toList
      = (after ++ Source.noticeEnd).toList ++ '*' :: '/' :: ['\n'] := by
    simp [Source.noticeEnd]
  exact writes_about hopening hclosing (by simp) (Source.surrounds_notice h) (by simp) he

/-- A template whose only comment is that of the class: behind its first `n` nodes, and seven nodes
long. -/
theorem writes_class {nodes : List Node} (n : Nat)
    (hparts : nodes = nodes.take n
      ++ ((lines ["/**"] ++ line [text before, key name, text after] ++ generatedNotice)
        ++ nodes.drop (n + 7)))
    (hfront : allSlashless (nodes.take n) = true) (hback : allSlashless (nodes.drop (n + 7)) = true)
    (h : Surrounds before after) (he : eval? frames (.key name) = some (.text value)) :
    Writes frames nodes [Source.notice before value after] := by
  rw [hparts]
  exact (writes_notice h he).between hfront hback

/-- The comment of a member, whose line may end with the value. -/
theorem writes_remark {start : String} (hstart : start = "     * " ++ before)
    {rest : List String} (hrest : rest.flatMap String.toList = after.toList)
    (h : Surrounds before after) (he : eval? frames (.key name) = some (.text value)) :
    Writes frames (lines ["", "    /**"]
      ++ line (text start :: key name :: rest.map text) ++ lines ["     */"])
      [Source.remark before value after] := by
  have hopening : ["" ++ "\n", "    /**" ++ "\n", start].flatMap String.toList
      = ['\n', ' ', ' ', ' ', ' '] ++ '/' :: '*' :: ("*\n     * " ++ before).toList := by
    simp [hstart]
  have hclosing : (rest ++ ["\n", "     */" ++ "\n"]).flatMap String.toList
      = (after ++ "\n     ").toList ++ '*' :: '/' :: ['\n'] := by
    rw [List.flatMap_append, hrest]
    simp
  have hwrites := writes_about hopening hclosing (by simp) (Source.surrounds_remark h) (by simp) he
  simpa [lines, line, key, Source.remark] using hwrites

end Parts

section Templates

open Template Node

variable (frames : Frames) (known : List (LoopVariable × Json))

/-- A field has a comment with its label; its getter and its setters have none. -/
theorem writes_fieldPart (f : FieldSource) :
    Writes (⟨f.toJson, known⟩ :: frames) fieldPart [Source.remark "" f.label ""] := by
  have hparts : fieldPart = []
      ++ ((lines ["", "    /**"] ++ line ["     * ", key "label"] ++ lines ["     */"])
        ++ fieldPart.drop 6) := rfl
  have hstart : "     * " = "     * " ++ "" := by simp
  have hrest : ([] : List String).flatMap String.toList = "".toList := rfl
  rw [hparts]
  exact (writes_remark hstart hrest Source.surrounds_label rfl).between rfl slashlessParts.fieldEnd

/-- The enumeration of the phases of an entity type has a comment with the type's name. -/
theorem writes_phaseGroup (g : PhaseGroup) :
    Writes (⟨g.toJson, known⟩ :: frames) phaseGroup [Source.remark "Phases of " g.entity "."] := by
  have hparts : phaseGroup = []
      ++ ((lines ["", "    /**"] ++ line ["     * Phases of ", key "entity", "."]
          ++ lines ["     */"])
        ++ phaseGroup.drop 7) := rfl
  have hstart : "     * Phases of " = "     * " ++ "Phases of " := by simp
  have hrest : ["."].flatMap String.toList = ".".toList := rfl
  rw [hparts]
  exact (writes_remark hstart hrest Source.surrounds_phaseGroup rfl).between rfl
    slashlessParts.phaseGroupEnd

theorem writes_entityModel (m : ModelSource) :
    Writes [⟨m.toJson, []⟩] entityModel (Source.model m).comments := by
  have hparts : entityModel = entityModel.take 9
      ++ ((lines ["/**"] ++ line [" * Typed model of the ", key "entity_name", " entity type."]
            ++ generatedNotice
          ++ ((entityModel.drop 16).take 25 ++ each "fields" fieldPart))
        ++ lines ["\x7d"]) := rfl
  -- the 25 nodes between the comment of the class and those of the fields make the constructors
  have hquiet : Writes [⟨m.toJson, []⟩] ((entityModel.drop 16).take 25) [] :=
    writes_nothing slashlessParts.modelMiddle
  have hfields : Writes [⟨m.toJson, []⟩] (each "fields" fieldPart)
      (m.fields.flatMap fun f => [Source.remark "" f.label ""]) :=
    writes_each rfl fun f _ known => writes_fieldPart _ known f
  rw [hparts, Source.comments, List.map_eq_flatMap]
  exact ((writes_notice Source.surrounds_model rfl).append (hquiet.append hfields)).between
    slashlessParts.modelStart slashlessParts.classEnd

theorem writes_entity (i : InterfaceSource) :
    Writes [⟨i.toJson, []⟩] entity (Source.interface i).comments :=
  writes_class 7 rfl slashlessParts.interfaceStart slashlessParts.interfaceEnd
    Source.surrounds_interface rfl

theorem writes_entityList (l : EntityListSource) :
    Writes [⟨l.toJson, []⟩] entityList (Source.entityList l).comments :=
  writes_class 14 rfl slashlessParts.entityListStart slashlessParts.entityListEnd
    Source.surrounds_entityList rfl

theorem writes_list (s : ListSource) :
    Writes [⟨s.toJson, []⟩] list (Source.list s).comments :=
  writes_class 9 rfl slashlessParts.listStart slashlessParts.listEnd Source.surrounds_list rfl

theorem writes_phases (s : PhasesSource) :
    Writes [⟨s.toJson, []⟩] phases (Source.phases s).comments := by
  have hparts : phases = phases.take 9
      ++ ((lines ["/**", " * Workflow phases per entity type."] ++ generatedNotice
          ++ ((phases.drop 13).take 4 ++ each "groups" phaseGroup))
        ++ lines ["\x7d"]) := rfl
  -- the only comment with nothing of the workspace in it
  have hnotice : Writes [⟨s.toJson, []⟩]
      (lines ["/**", " * Workflow phases per entity type."] ++ generatedNotice)
      [.plain ("*\n * Workflow phases per entity type." ++ Source.noticeEnd)] := by
    have htexts : ["/**" ++ "\n", " * Workflow phases per entity type." ++ "\n",
          " * Generated from workspace metadata, do not edit." ++ "\n", " */" ++ "\n"].flatMap
          String.toList
        = [] ++ '/' :: '*' :: ("*\n * Workflow phases per entity type."
            ++ Source.noticeEnd).toList ++ '*' :: '/' :: ['\n'] := by
      simp [Source.noticeEnd]
    exact writes_plain htexts (by simp) Source.slash_notMem_phases (by simp)
  have hquiet : Writes [⟨s.toJson, []⟩] ((phases.drop 13).take 4) [] :=
    writes_nothing slashlessParts.phasesMiddle
  have hgroups : Writes [⟨s.toJson, []⟩] (each "groups" phaseGroup)
      (s.groups.flatMap fun g => [Source.remark "Phases of " g.entity "."]) :=
    writes_each rfl fun g _ known => writes_phaseGroup _ known g
  rw [hparts, Source.comments, List.map_eq_flatMap]
  exact (hnotice.append (hquiet.append hgroups)).between slashlessParts.phasesStart
    slashlessParts.classEnd

/-- The comments that the template of a source writes. -/
theorem Source.writes_template (s : Source) :
    Writes [⟨s.context, []⟩] s.kind.template s.comments := by
  cases s with
  | list s => exact writes_list s
  | phases s => exact writes_phases s
  | model m => exact writes_entityModel m
  | interface i => exact writes_entity i
  | entityList l => exact writes_entityList l

end Templates

/-! ## Where the comments end -/

namespace Source

/-- The rendered source keeps its comments: each ends where the template ends it, and no value that
stands in one could end it earlier. -/
def KeepsComments (s : Source) : Prop :=
  ∃ pieces comments, Engine.standard.render s.kind.templateName s.context
      = .ok (Template.joined pieces)
    ∧ Template.trace? s.kind.template s.context = some pieces
    ∧ Template.comments? pieces = some comments
    ∧ ∀ c ∈ comments, c.EndsInPlace

/-- The comments of a rendered source are those that are listed for it. -/
theorem exists_comments (s : Source) :
    ∃ pieces, Engine.standard.render s.kind.templateName s.context = .ok (Template.joined pieces)
      ∧ Template.trace? s.kind.template s.context = some pieces
      ∧ Template.comments? pieces = some s.comments := by
  obtain ⟨text, htext, hrender⟩ := s.exists_render
  rw [Template.render?_eq] at htext
  obtain ⟨pieces, hpieces, rfl⟩ := Option.map_eq_some_iff.mp htext
  refine ⟨pieces, hrender, hpieces, ?_⟩
  rw [Template.comments?, s.writes_template pieces hpieces []]
  rfl

theorem keepsComments_iff (s : Source) : s.KeepsComments ↔ ∀ c ∈ s.comments, c.EndsInPlace := by
  obtain ⟨pieces, hrender, htrace, hcomments⟩ := s.exists_comments
  constructor
  · rintro ⟨pieces', comments', -, htrace', hcomments', hends⟩
    obtain rfl := Option.some.inj (htrace.symm.trans htrace')
    obtain rfl := Option.some.inj (hcomments.symm.trans hcomments')
    exact hends
  · intro hends
    exact ⟨pieces, s.comments, hrender, htrace, hcomments, hends⟩

end Source

/-! ## Texts fit for comments -/

theorem head?_commentChars (text : List Char) : (commentChars text).head? = text.head? := by
  fun_cases commentChars text <;> rfl

/-- **What is made fit for a comment cannot end it**, whatever the text. -/
theorem no_commentEnd_commentChars (text : List Char) :
    ¬commentEnd <:+: commentChars text := by
  fun_induction commentChars text with
  | case1 rest ih =>
    -- none of the first three characters begins a mark
    simpa [commentEnd, List.infix_cons_iff, List.cons_prefix_cons] using ih
  | case2 c rest h ih =>
    intro hend
    rcases List.infix_cons_iff.mp hend with hend | hend
    · obtain ⟨rfl, hrest⟩ := List.cons_prefix_cons.mp hend
      have hhead : rest.head? = some '/' := by
        obtain ⟨back, hback⟩ := hrest
        rw [← head?_commentChars, ← hback]
        rfl
      obtain ⟨tail, rfl⟩ := List.head?_eq_some_iff.mp hhead
      exact h tail rfl rfl
    · exact ih hend
  | case3 => simp [commentEnd]

/-- The label of a field of a model is fit for a comment. -/
theorem ModelSource.no_commentEnd_label {package : String} {entity : Entity} {r : Resolver}
    {m : ModelSource} (h : ModelSource.of package entity r = .ok m) {f : FieldSource}
    (hf : f ∈ m.fields) : ¬commentEnd <:+: f.label.toList := by
  obtain ⟨fields, combinations, -, -, rfl⟩ := ModelSource.of_ok h
  obtain ⟨⟨field, types⟩, -, rfl⟩ := List.mem_map.mp hf
  show ¬commentEnd <:+: (commentText _).toList
  rw [commentText, String.toList_ofList]
  exact no_commentEnd_commentChars _

/-- The identifier of a list can name a constant. -/
theorem Lists.isConstant_identifier {roots values : List ListNode} {ignored : Table String Unit}
    {list : ListEnum} (h : list ∈ (Lists.build roots values ignored).enums) :
    Java.IsConstant list.identifier :=
  Java.isConstant_of_mem _ _ ((Lists.identifiers_build_perm roots values ignored).subset
    (List.mem_map_of_mem h))

/-- The identifier of a list has no slash. -/
theorem Lists.no_commentEnd_identifier {roots values : List ListNode} {ignored : Table String Unit}
    {list : ListEnum} (h : list ∈ (Lists.build roots values ignored).enums) :
    ¬commentEnd <:+: list.identifier.toList :=
  Template.no_commentEnd
    (Settings.slash_notMem (Settings.isPackageSegment_of_isConstant (Lists.isConstant_identifier h)))

/-! ## Which sources keep their comments -/

namespace Source

theorem endsInPlace_notice_iff {before value after : String} (h : Surrounds before after) :
    (notice before value after).EndsInPlace ↔ ¬commentEnd <:+: value.toList :=
  Comment.endsInPlace_about_iff (surrounds_notice h)

theorem endsInPlace_remark_iff {before value after : String} (h : Surrounds before after) :
    (remark before value after).EndsInPlace ↔ ¬commentEnd <:+: value.toList :=
  Comment.endsInPlace_about_iff (surrounds_remark h)

/-- The names and labels of the server that stand in comments of a source. -/
def remarked : Source → List String
  | .model m => m.entity :: m.fields.map FieldSource.label
  | .interface i => [i.entity]
  | .entityList l => [l.entity]
  | .list s => [s.list.identifier]
  | .phases s => s.groups.map PhaseGroup.entity

/-- A source keeps its comments exactly if none of the texts that stand in them ends one. -/
theorem keepsComments_iff_remarked (s : Source) :
    s.KeepsComments ↔ ∀ text ∈ s.remarked, ¬commentEnd <:+: text.toList := by
  rw [keepsComments_iff]
  cases s with
  | model m =>
    have hlabel : ∀ f : FieldSource, (remark "" f.label "").EndsInPlace
        ↔ ¬commentEnd <:+: f.label.toList := fun f => endsInPlace_remark_iff surrounds_label
    simp only [comments, remarked, List.forall_mem_cons, List.forall_mem_map,
      endsInPlace_notice_iff surrounds_model, hlabel]
  | interface i =>
    simp only [comments, remarked, List.forall_mem_singleton,
      endsInPlace_notice_iff surrounds_interface]
  | entityList l =>
    simp only [comments, remarked, List.forall_mem_singleton,
      endsInPlace_notice_iff surrounds_entityList]
  | list s =>
    simp only [comments, remarked, List.forall_mem_singleton,
      endsInPlace_notice_iff surrounds_list]
  | phases s =>
    have hplain := Comment.endsInPlace_plain slash_notMem_phases
    have hentity : ∀ g : PhaseGroup, (remark "Phases of " g.entity ".").EndsInPlace
        ↔ ¬commentEnd <:+: g.entity.toList := fun g =>
      endsInPlace_remark_iff surrounds_phaseGroup
    simp only [comments, remarked, List.forall_mem_cons, List.forall_mem_map, hplain, hentity,
      true_and]

end Source

namespace Package

variable {p : Package} {r : Resolver} {entity : Entity} {sources : List Source}

/-- The sources of an entity type keep their comments exactly if its name does not end one. Labels
never do. -/
theorem keepsComments_of_entitySources (h : p.entitySources r entity = .ok sources) {s : Source}
    (hs : s ∈ sources) : s.KeepsComments ↔ ¬commentEnd <:+: entity.name.toList := by
  obtain ⟨m, hm, rfl⟩ := entitySources_ok h
  rw [Source.keepsComments_iff_remarked]
  rcases List.mem_cons.mp hs with rfl | hs
  · have hlabels : ∀ f ∈ m.fields, ¬commentEnd <:+: f.label.toList := fun f hf =>
      ModelSource.no_commentEnd_label hm hf
    rw [Source.remarked, List.forall_mem_cons, List.forall_mem_map, (ModelSource.uses_of hm).1]
    exact and_iff_left hlabels
  rcases List.mem_cons.mp hs with rfl | hs
  · exact List.forall_mem_singleton
  · obtain ⟨l, hl, rfl⟩ := List.mem_map.mp (Option.toList_map .. ▸ hs)
    rw [Source.remarked, List.forall_mem_singleton, entity_of? (Option.mem_toList.mp hl)]

/-- **Which comments the server's texts can end.** Labels of fields and identifiers of lists never
end a comment. Names of entity types stand in comments as they are: the sources of an entity type,
and the class of all phases, keep their comments exactly if the names in them have no `*/`. Unicode
escapes are not replaced before. -/
theorem keepsComments_sources (p : Package) :
    (∀ r entity sources, p.entitySources r entity = .ok sources → ∀ s ∈ sources,
        (s.KeepsComments ↔ ¬commentEnd <:+: entity.name.toList))
      ∧ (∀ roots values ignored, ∀ list ∈ (Lists.build roots values ignored).enums,
        (p.listSource list).KeepsComments)
      ∧ ∀ phases : Phases, (p.phasesSource phases).KeepsComments
        ↔ ∀ g ∈ phases.groups, ¬commentEnd <:+: g.entity.toList := by
  refine ⟨fun r entity sources h s hs => keepsComments_of_entitySources h hs,
    fun roots values ignored list hlist => ?_, fun phases => ?_⟩
  · rw [Source.keepsComments_iff_remarked]
    exact List.forall_mem_singleton.mpr (Lists.no_commentEnd_identifier hlist)
  · rw [Source.keepsComments_iff_remarked]
    exact List.forall_mem_map

/-! ## A strange label and a strange name -/

def sdk : Package := ⟨"sdk", ⟨"sdk"⟩⟩

/-- What resolves the fields of a workspace without other entity types. -/
def bare : Resolver := ⟨.ofList [], .empty, .empty⟩

/-- A type with a field whose label has what ends a comment. -/
def labelled : Entity :=
  (Entity.named "defect").withFields
    [{ Field.referring "owner" false [Target.entity "task"] with label := "*/ int x; /*" }]

/-- Both sources of the type keep their comments. -/
theorem keepsComments_labelled :
    ∃ sources, sdk.entitySources bare labelled = .ok sources
      ∧ sources.map Source.kind = [.model, .interface] ∧ ∀ s ∈ sources, s.KeepsComments := by
  have hok : ((sdk.entitySources bare labelled).map (List.map Source.kind)).toOption
      = some [.model, .interface] := by decide +kernel
  have hname : ¬commentEnd <:+: labelled.name.toList := by decide
  obtain ⟨sources, hsources, hkinds⟩ := Outcome.exists_of_toOption_map hok
  refine ⟨sources, hsources, hkinds, fun s hs => ?_⟩
  exact ((keepsComments_sources sdk).1 bare labelled sources hsources s hs).mpr hname

/-- A type with a collection whose name has what ends a comment. -/
def starred : Entity := (Entity.named "a*/b").addFeature (.rest "abs" ["GET"])

/-- None of the three sources of the type keeps its comments. -/
theorem not_keepsComments_starred :
    ∃ sources, sdk.entitySources bare starred = .ok sources
      ∧ sources.map Source.kind = [.model, .interface, .entityList]
      ∧ ∀ s ∈ sources, ¬s.KeepsComments := by
  have hok : ((sdk.entitySources bare starred).map (List.map Source.kind)).toOption
      = some [.model, .interface, .entityList] := by decide +kernel
  have hname : commentEnd <:+: starred.name.toList := by decide
  obtain ⟨sources, hsources, hkinds⟩ := Outcome.exists_of_toOption_map hok
  refine ⟨sources, hsources, hkinds, fun s hs hkeeps => ?_⟩
  exact (keepsComments_of_entitySources hsources hs).mp hkeeps hname

end Package

end TypedEntities
