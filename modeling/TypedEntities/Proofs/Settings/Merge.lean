import Mathlib
import TypedEntities.Proofs.Settings.Setting

/-!
# Settings from many sources

Settings are put together in steps: a setting is set, or a settings file fills in what is open. For
each setting by itself the steps come to a simple law (`Draft.value_run`): the last that set it
counts, else the first file that says something for it. So it does not matter where the files stand
among the other steps, nor in which order different settings are set.

What is missing or not allowed is looked for in a fixed order, and `Draft.finishes` says which
failure is reported. The rules are stated as what they ask for (`Rule.Kept`), not as how it is
checked.
-/

namespace TypedEntities

/-! ## What is read -/

/-- What is taken off the end of a text is nothing but the character. -/
theorem Text.exists_trimEnd_append (c : Char) (text : List Char) :
    ∃ n, text = trimEnd c text ++ List.replicate n c := by
  have hall : ∀ d ∈ text.reverse.takeWhile (· == c), d = c := by
    intro d hd
    simpa using List.mem_takeWhile_imp hd
  refine ⟨(text.reverse.takeWhile (· == c)).length, ?_⟩
  rw [← List.reverse_replicate, ← List.eq_replicate_of_mem hall, trimEnd, ← List.reverse_append,
    List.takeWhile_append_dropWhile, List.reverse_reverse]

/-- A server is read without the slashes at its end. -/
theorem Setting.exists_read_server (address : String) :
    ∃ n, address.toList = (read server address : String).toList ++ List.replicate n '/' := by
  obtain ⟨n, hn⟩ := Text.exists_trimEnd_append '/' address.toList
  refine ⟨n, ?_⟩
  show address.toList = (String.ofList _).toList ++ _
  rwa [String.toList_ofList]

/-- The ids that are read are what stands between commas, without blanks around it, where that is
anything. -/
theorem Setting.mem_read_ignoredLists_iff {ids id : String} :
    id ∈ (read ignoredLists ids : TextSet).keys
      ↔ id ≠ "" ∧ ∃ part ∈ ids.toList.splitOn ',', id.toList = Text.trim part := by
  show id ∈ (TextSet.ofList _).keys ↔ _
  rw [TextSet.ofList, Table.mem_keys_ofList]
  simp only [List.map_map, List.mem_map, List.mem_filter, Function.comp_apply]
  constructor
  · rintro ⟨_, ⟨⟨part, hpart, rfl⟩, hne⟩, rfl⟩
    refine ⟨fun hempty => ?_, part, hpart, String.toList_ofList⟩
    have hnil := congrArg String.toList hempty
    rw [String.toList_ofList] at hnil
    rw [hnil] at hne
    exact absurd hne (by decide)
  · rintro ⟨hne, part, hpart, htext⟩
    refine ⟨id.toList, ⟨⟨part, hpart, htext.symm⟩, ?_⟩, String.ofList_toList⟩
    simpa using hne

/-! ## Steps -/

/-- One step of putting settings together. -/
inductive Step
  | set (s : Setting) (given : s.Given)
  | file (file : SettingsFile)

namespace Step

/-- The setting that a step sets. -/
def about : Step → Option Setting
  | set s _ => some s
  | file _ => none

/-- What a setting is set to in a step that sets it. -/
def given? (s : Setting) : Step → Option s.Given
  | set s' given => if h : s' = s then some (h ▸ given) else none
  | file _ => none

/-- What the file of a step says for a setting. -/
def filled? (s : Setting) : Step → Option s.Value
  | set _ _ => none
  | file f => f.value s

/-- What steps come to for a setting: the last that set it, else the first file with something for
it. -/
def merged (steps : List Step) (s : Setting) : Option s.Value :=
  (steps.filterMap (given? s)).getLast?.map s.read <|> (steps.filterMap (filled? s)).head?

/-- A step that sets the ignored lists sets some. -/
def SetsSome (step : Step) : Prop :=
  ∀ ids, step = set .ignoredLists ids → (parseIgnoredLists ids).isEmpty = false

end Step

namespace Draft

/-- The draft after a step. -/
def apply (d : Draft) : Step → Draft
  | .set s given => d.set s given
  | .file f => d.fill f

/-- The draft that steps come to. -/
def run (steps : List Step) : Draft := steps.foldl apply empty

variable {d : Draft} {steps steps' : List Step}

theorem run_append_singleton (steps : List Step) (step : Step) :
    run (steps ++ [step]) = (run steps).apply step := by
  rw [run, List.foldl_append]
  rfl

/-! ## One step -/

/-- A step that sets a setting to something leaves it with what was read. -/
theorem value_set_of_setsSome {s : Setting} {given : s.Given} (h : (Step.set s given).SetsSome) :
    (d.set s given).value s = some (s.read given) := by
  rw [value_set]
  cases s with
  | ignoredLists => exact if_neg (Bool.eq_false_iff.mp (h given rfl))
  | _ => rfl

/-! ## All steps -/

/-- **The law of each setting**: the last that set it counts, else the first file with something for
it. -/
theorem value_run (h : ∀ step ∈ steps, step.SetsSome) (s : Setting) :
    (run steps).value s = Step.merged steps s := by
  induction steps using List.reverseRecOn with
  | nil => exact value_empty s
  | append_singleton steps step ih =>
    have ih := ih fun step hstep => h step (List.mem_append_left _ hstep)
    -- from the end, since a file only fills what the steps before have left open
    rw [run_append_singleton, Step.merged, List.filterMap_append, List.filterMap_append]
    cases step with
    | file f =>
      rw [apply, value_fill, ih, Step.merged]
      simp [Step.given?, Step.filled?, List.head?_append, Option.or_assoc]
    | set s' given =>
      by_cases hs : s' = s
      · subst hs
        rw [apply, value_set_of_setsSome (h _ (by simp))]
        simp [Step.given?]
      · rw [apply, value_set_of_ne given (Ne.symm hs), ih, Step.merged]
        simp [Step.given?, Step.filled?, hs]

/-- Steps about one setting alone decide what it is set to. -/
theorem filterMap_given? (s : Setting) (steps : List Step) :
    (steps.filter fun step => step.about = some s).filterMap (Step.given? s)
      = steps.filterMap (Step.given? s) := by
  rw [List.filterMap_filter]
  refine List.filterMap_congr fun step _ => ?_
  cases step with
  | file => rfl
  | set s' given =>
    by_cases hs : s' = s <;> simp [Step.about, Step.given?, hs]

/-- Files alone decide what is filled in. -/
theorem filterMap_filled? (s : Setting) (steps : List Step) :
    (steps.filter fun step => step.about = none).filterMap (Step.filled? s)
      = steps.filterMap (Step.filled? s) := by
  rw [List.filterMap_filter]
  refine List.filterMap_congr fun step _ => ?_
  cases step <;> rfl

/-- The order of steps counts among those that set one setting, and among the files. -/
theorem run_eq_of_filter (h : ∀ step ∈ steps, step.SetsSome)
    (hsame : ∀ about, (steps'.filter fun step => step.about = about)
      = steps.filter fun step => step.about = about) :
    run steps' = run steps := by
  have h' : ∀ step ∈ steps', step.SetsSome := by
    intro step hstep
    have hmem : step ∈ steps'.filter fun step' => step'.about = step.about :=
      List.mem_filter.mpr ⟨hstep, decide_eq_true rfl⟩
    rw [hsame] at hmem
    exact h step (List.mem_of_mem_filter hmem)
  refine eq_of_value fun s => ?_
  rw [value_run h' s, value_run h s, Step.merged, ← filterMap_given? s steps', hsame,
    filterMap_given? s steps, ← filterMap_filled? s steps', hsame, filterMap_filled? s steps]
  rfl

end Draft

/-! ## Rules -/

/-- One of the rules that settings have to keep. -/
inductive Rule
  | server
  | sharedSpace
  | workspace
  | clientId
  | clientSecret
  | package
  | timeout

namespace Rule

/-- The rules in the order in which they are checked. -/
def all : List Rule := [server, sharedSpace, workspace, clientId, clientSecret, package, timeout]

theorem mem_all (rule : Rule) : rule ∈ all := by
  cases rule <;> simp [all]

/-- A letter or an underscore, then letters, digits and underscores. -/
def IsSegment (segment : List Char) : Prop :=
  ∃ c rest, segment = c :: rest ∧ (c.isAlpha ∨ c = '_') ∧ ∀ d ∈ rest, d.isAlphanum ∨ d = '_'

/-- What a rule asks for. -/
def Kept (settings : Settings) : Rule → Prop
  | server =>
    "http://".toList <+: settings.server.toList ∨ "https://".toList <+: settings.server.toList
  | sharedSpace => 0 < settings.sharedSpace
  | workspace => 0 < settings.workspace
  | clientId => ∃ c ∈ settings.credentials.clientId.toList, Text.isBlank c = false
  | clientSecret => settings.credentials.secret ≠ ""
  | package => ∃ segments, segments ≠ [] ∧ (∀ segment ∈ segments, IsSegment segment)
    ∧ settings.package.toList = ['.'].intercalate segments
  | timeout => 0 < settings.timeout

/-- The setting that a rule is about. -/
def setting : Rule → Setting
  | server => .server
  | sharedSpace => .sharedSpace
  | workspace => .workspace
  | clientId => .clientId
  | clientSecret => .clientSecret
  | package => .package
  | timeout => .timeout

/-- The reason that is given when a rule is not kept. -/
def reason (settings : Settings) : Rule → String
  | server => "must start with http:// or https://"
  | sharedSpace | workspace => "must be a positive id"
  | clientId | clientSecret => "cannot be empty"
  | package => s!"'{settings.package}' is not a valid Java package name"
  | timeout => "must be greater than zero"

/-- How a rule is checked. -/
def check (settings : Settings) : Rule → Bool
  | server => Settings.isWebAddress settings.server
  | sharedSpace => settings.sharedSpace ≠ 0
  | workspace => settings.workspace ≠ 0
  | clientId => !(Text.trim settings.credentials.clientId.toList).isEmpty
  | clientSecret => settings.credentials.secret ≠ ""
  | package => Settings.isPackage settings.package
  | timeout => settings.timeout ≠ 0

theorem rules_eq (settings : Settings) :
    settings.rules = all.map fun rule =>
      (rule.check settings, rule.setting.name, rule.reason settings) := rfl

/-- Nothing is left of a text whose characters are all blank. -/
theorem trim_eq_nil_iff {text : List Char} :
    Text.trim text = [] ↔ ∀ c ∈ text, Text.isBlank c = true := by
  rw [Text.trim, List.reverse_eq_nil_iff, List.dropWhile_eq_nil_iff]
  constructor
  · intro h
    rw [← List.dropWhile_eq_nil_iff]
    by_contra hne
    -- the first character that is left would not be blank
    have hhead := List.head_dropWhile_not Text.isBlank hne
    have := h _ (List.mem_reverse.mpr (List.head_mem hne))
    rw [hhead] at this
    cases this
  · intro h c hc
    exact h c ((List.dropWhile_sublist _).subset (List.mem_reverse.mp hc))

theorem isPackageSegment_iff_isSegment {segment : List Char} :
    Settings.isPackageSegment segment = true ↔ IsSegment segment := by
  cases segment with
  | nil => simp [Settings.isPackageSegment, IsSegment]
  | cons c rest => simp [Settings.isPackageSegment, IsSegment]

theorem IsSegment.point_notMem {segment : List Char} (h : IsSegment segment) : '.' ∉ segment := by
  obtain ⟨c, rest, rfl, hc, hrest⟩ := h
  intro hmem
  rcases List.mem_cons.mp hmem with rfl | hmem
  · exact absurd hc (by decide)
  · exact absurd (hrest _ hmem) (by decide)

theorem isPackage_iff {package : String} :
    Settings.isPackage package = true ↔ ∃ segments, segments ≠ []
      ∧ (∀ segment ∈ segments, IsSegment segment)
      ∧ package.toList = ['.'].intercalate segments := by
  rw [Settings.isPackage, List.all_eq_true]
  simp only [isPackageSegment_iff_isSegment]
  constructor
  · intro h
    exact ⟨_, List.splitOn_ne_nil _ _, h, (List.intercalate_splitOn '.').symm⟩
  · rintro ⟨segments, hne, hsegments, heq⟩
    rw [heq, List.splitOn_intercalate '.' (fun s hs => (hsegments s hs).point_notMem) hne]
    exact hsegments

/-- A rule is checked by what it asks for. -/
theorem check_iff {settings : Settings} {rule : Rule} :
    rule.check settings = true ↔ rule.Kept settings := by
  cases rule with
  | server => simp [check, Kept, Settings.isWebAddress, List.isPrefixOf_iff_prefix]
  | clientId =>
    rw [check, Kept, Bool.not_eq_true', List.isEmpty_eq_false_iff, ne_eq, trim_eq_nil_iff]
    push Not
    simp only [Bool.not_eq_true]
  | clientSecret => simp [check, Kept]
  | package => exact isPackage_iff
  | sharedSpace | workspace | timeout =>
    rw [check, Kept, decide_eq_true_iff, ← Nat.pos_iff_ne_zero]

end Rule

/-! ## How settings are finished -/

/-- How settings are finished. -/
inductive Finishes (merged : (s : Setting) → Option s.Value) : Except Failure Settings → Prop
  /-- A setting without a default is open. The first such setting is named. -/
  | missing {before after : List Setting} {s : Setting}
      (hrequired : Setting.required = before ++ s :: after)
      (hbefore : ∀ s' ∈ before, merged s' ≠ none) (hopen : merged s = none) :
      Finishes merged (.error (.configuration s!"missing required setting '{s.name}'"))
  /-- Nothing is missing, and a rule is not kept. The first such rule is reported. -/
  | invalid {settings : Settings} {before after : List Rule} {rule : Rule}
      (hcompletes : settings.Completes merged) (hrules : Rule.all = before ++ rule :: after)
      (hbefore : ∀ r ∈ before, r.Kept settings) (hrule : ¬ rule.Kept settings) :
      Finishes merged (.error (.validation rule.setting.name (rule.reason settings)))
  /-- Nothing is missing, and all rules are kept. -/
  | done {settings : Settings} (hcompletes : settings.Completes merged)
      (hrules : ∀ rule : Rule, rule.Kept settings) : Finishes merged (.ok settings)

namespace Draft

variable {d : Draft} {settings : Settings} {steps : List Step}

/-- A draft is complete, or the first setting that is missing is named. -/
theorem complete_cases (d : Draft) :
    (∃ settings, d.complete = .ok settings)
      ∨ ∃ before s after, Setting.required = before ++ s :: after
        ∧ (∀ s' ∈ before, d.value s' ≠ none) ∧ d.value s = none
        ∧ d.complete = .error (.configuration s!"missing required setting '{s.name}'") := by
  unfold complete
  cases hserver : d.server with
  | none => exact .inr ⟨[], .server, _, rfl, nofun, hserver, rfl⟩
  | some server =>
    cases hsharedSpace : d.sharedSpace with
    | none =>
      exact .inr ⟨[.server], .sharedSpace, _, rfl, by simp [value, hserver], hsharedSpace, rfl⟩
    | some sharedSpace =>
      cases hworkspace : d.workspace with
      | none =>
        exact .inr ⟨[.server, .sharedSpace], .workspace, _, rfl,
          by simp [value, hserver, hsharedSpace], hworkspace, rfl⟩
      | some workspace =>
        cases hclientId : d.clientId with
        | none =>
          exact .inr ⟨[.server, .sharedSpace, .workspace], .clientId, _, rfl,
            by simp [value, hserver, hsharedSpace, hworkspace], hclientId, rfl⟩
        | some clientId =>
          cases hclientSecret : d.clientSecret with
          | none =>
            exact .inr ⟨[.server, .sharedSpace, .workspace, .clientId], .clientSecret, _, rfl,
              by simp [value, hserver, hsharedSpace, hworkspace, hclientId], hclientSecret, rfl⟩
          | some clientSecret => exact .inl ⟨_, rfl⟩

/-- All rules are kept, or the first that is not is reported. -/
theorem check_cases (settings : Settings) :
    (settings.check = .ok settings ∧ ∀ rule : Rule, rule.Kept settings)
      ∨ ∃ before rule after, Rule.all = before ++ rule :: after
        ∧ (∀ r ∈ before, r.Kept settings) ∧ ¬ rule.Kept settings
        ∧ settings.check = .error (.validation rule.setting.name (rule.reason settings)) := by
  have hfault : settings.fault? = (Rule.all.find? fun rule => !rule.check settings).map
      fun rule => .validation rule.setting.name (rule.reason settings) := by
    rw [Settings.fault?, Rule.rules_eq, List.find?_map, Option.map_map]
    rfl
  unfold Settings.check
  rw [hfault]
  cases hfind : Rule.all.find? fun rule => !rule.check settings with
  | none =>
    refine .inl ⟨rfl, fun rule => Rule.check_iff.mp ?_⟩
    have hrule := List.find?_eq_none.mp hfind rule rule.mem_all
    simpa using hrule
  | some rule =>
    obtain ⟨hrule, before, after, hrules, hbefore⟩ := List.find?_eq_some_iff_append.mp hfind
    refine .inr ⟨before, rule, after, hrules, fun r hr => Rule.check_iff.mp ?_, ?_, rfl⟩
    · simpa using hbefore r hr
    · rw [← Rule.check_iff]
      simpa using hrule

theorem finishes (d : Draft) : Finishes d.value d.finish := by
  rcases complete_cases d with ⟨settings, hcomplete⟩ | ⟨_, s, _, hrequired, hbefore, hopen, herror⟩
  · have hcompletes := completes_of_complete hcomplete
    rw [finish, hcomplete]
    show Finishes d.value settings.check
    rcases check_cases settings with
      ⟨hcheck, hrules⟩ | ⟨_, rule, _, hrules, hbefore, hrule, hcheck⟩
    · rw [hcheck]
      exact .done hcompletes hrules
    · rw [hcheck]
      exact .invalid hcompletes hrules hbefore hrule
  · rw [finish, herror]
    exact .missing hrequired hbefore hopen

/-- **Settings from many sources** are finished by the law of each setting: with what it gives, or with
the failure for the first setting that is missing or not allowed. Other orders of the steps come to
the same, as long as those that set one setting and the files keep theirs. -/
theorem finishes_run (h : ∀ step ∈ steps, step.SetsSome) :
    Finishes (Step.merged steps) (run steps).finish
      ∧ (∀ s, (run steps).value s = Step.merged steps s)
      ∧ (∀ steps', (∀ about, (steps'.filter fun step => step.about = about)
          = steps.filter fun step => step.about = about) →
        (run steps').finish = (run steps).finish)
      ∧ (∀ address, (Setting.read .server address : String).toList.getLast? ≠ some '/'
        ∧ ∃ n, address.toList
          = (Setting.read .server address : String).toList ++ List.replicate n '/')
      ∧ ∀ ids id : String, id ∈ (Setting.read .ignoredLists ids : TextSet).keys
        ↔ id ≠ "" ∧ ∃ part ∈ ids.toList.splitOn ',', id.toList = Text.trim part := by
  have hvalue : (run steps).value = Step.merged steps := funext (value_run h)
  refine ⟨hvalue ▸ finishes (run steps), value_run h, fun steps' hsame => ?_, fun address => ?_,
    fun ids id => Setting.mem_read_ignoredLists_iff⟩
  · rw [run_eq_of_filter h hsame]
  · exact ⟨Setting.getLast?_read_server_ne address, Setting.exists_read_server address⟩

/-- Two files around settings that are set: only the first file that says something counts, and what
is set counts more. -/
theorem finishes_run_files :
    let steps : List Step :=
      [.file { SettingsFile.empty with workspace := some 7, ignoredLists := ["9"] },
        .set .server "https://octane.example.com//",
        .set .ignoredLists " 1500,, 1501",
        .file { SettingsFile.empty with workspace := some 8, sharedSpace := some 1001 },
        .set .server "http://localhost/"]
    (∀ step ∈ steps, step.SetsSome)
      ∧ (run steps).value .server = some "http://localhost"
      ∧ (run steps).value .workspace = some (7 : Nat)
      ∧ Finishes (Step.merged steps) (run steps).finish := by
  have hsets : ∀ ids, (Step.set Setting.ignoredLists " 1500,, 1501") = .set .ignoredLists ids
      → (parseIgnoredLists ids).isEmpty = false := by
    intro ids hids
    cases hids
    decide +kernel
  intro steps
  have h : ∀ step ∈ steps, step.SetsSome := by
    simp only [steps, List.forall_mem_cons, List.not_mem_nil, false_implies, implies_true, and_true]
    exact ⟨nofun, nofun, hsets, nofun, nofun⟩
  have hrun := finishes_run h
  exact ⟨h, (hrun.2.1 .server).trans rfl, (hrun.2.1 .workspace).trans rfl, hrun.1⟩

end Draft

end TypedEntities
