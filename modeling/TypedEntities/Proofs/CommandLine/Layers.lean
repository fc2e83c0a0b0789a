import Mathlib
import TypedEntities.CommandLine.Command
import TypedEntities.Proofs.CommandLine.Scan
import TypedEntities.Proofs.Settings.Setting

/-!
# Flags, environment and settings file

A setting is what a flag gives, or else what an environment variable says, or else what the settings
file says, or else the default (`settingsOf_layered`). Two settings are only layered in part. A switch
is on as soon as one layer turns it on: a variable that says `false` counts as nothing said, and the
file decides. Ignored lists of which none is left count as nothing said as well.
-/

namespace TypedEntities.CommandLine

/-! ## Options and their variables -/

/-- The options that `generate` knows. -/
abbrev generateSpecs : List (OptionSpec OptionKey) :=
  generateOptions ++ globalOptions ++ [helpOption]

/-- The option that a key is for. -/
def specOf? (key : OptionKey) : Option (OptionSpec OptionKey) :=
  generateSpecs.find? fun spec => spec.key = key

theorem mem_of_specOf? {key : OptionKey} {spec : OptionSpec OptionKey} (h : specOf? key = some spec) :
    spec ∈ generateSpecs ∧ spec.key = key :=
  ⟨List.mem_of_find?_eq_some h, by simpa using List.find?_some h⟩

theorem nodup_keys_generateSpecs : (generateSpecs.map OptionSpec.key).Nodup := by decide

/-- The options of `generate` are the flags, each of the kind that its option takes, completed by what
the environment says. -/
structure Completes (environment : String → Option String) (flags a : Arguments) : Prop where
  value : ∀ key spec, specOf? key = some spec →
    valueOf? a key = (valueOf? flags key <|> spec.ofEnvironment? environment)
  admits : ∀ key spec, specOf? key = some spec →
    ∀ v, valueOf? flags key = some v → spec.takes.Admits v

variable {environment : String → Option String} {flags a inner : Arguments}
  {spec : OptionSpec OptionKey} {arguments : List String} {name format : String}

/-- A flag holds what its option takes. -/
theorem admits_of_fits (h : flags.Fits generateSpecs) (hspec : spec ∈ generateSpecs) {v : Value}
    (hv : valueOf? flags spec.key = some v) : spec.takes.Admits v := by
  obtain ⟨g, hg, rfl⟩ := Option.map_eq_some_iff.mp hv
  obtain ⟨spec', hspec', hkey, hadmits⟩ := h g (List.mem_of_find?_eq_some hg)
  have hsame : g.1 = spec.key := by simpa using List.find?_some hg
  -- no two options have the same key
  rw [List.inj_on_of_nodup_map nodup_keys_generateSpecs hspec hspec' (hsame.symm.trans hkey.symm)]
  exact hadmits

/-- Flags to which the environment is added are completed by it. -/
theorem completes_of_addEnvironment (hfits : flags.Fits generateSpecs)
    (h : Scan.addEnvironment environment flags generateSpecs = .ok a) :
    Completes environment flags a where
  value key spec hspec := by
    obtain ⟨hmem, rfl⟩ := mem_of_specOf? hspec
    unfold valueOf?
    rw [Scan.find?_of_addEnvironment nodup_keys_generateSpecs hmem h]
    cases flags.find? fun g => g.1 = spec.key with
    | some g => rfl
    | none => cases spec.ofEnvironment? environment <;> rfl
  admits key spec hspec v hv := by
    obtain ⟨hmem, rfl⟩ := mem_of_specOf? hspec
    exact admits_of_fits hfits hmem hv

namespace Completes

variable (h : Completes environment flags a) (key : OptionKey) (hspec : specOf? key = some spec)
include h hspec

/-- The text of an option is that of its flag, or else that of its variable. -/
theorem textOf?_eq (htakes : spec.takes = .text ∨ spec.takes = .path) :
    textOf? a key = (textOf? flags key <|> spec.variableName.bind environment) := by
  unfold textOf?
  rw [h.value key spec hspec, OptionSpec.ofEnvironment?_text htakes]
  cases hflag : valueOf? flags key with
  | none => cases spec.variableName.bind environment <;> rfl
  | some v =>
    obtain ⟨text, rfl⟩ := Takes.exists_text htakes (h.admits key spec hspec v hflag)
    rfl

/-- The number of an option is that of its flag, or else that of its variable if it is one. -/
theorem numberOf?_eq (htakes : spec.takes = .number) :
    numberOf? a key
      = (numberOf? flags key <|> (spec.variableName.bind environment).bind parseNumber?) := by
  unfold numberOf?
  rw [h.value key spec hspec, OptionSpec.ofEnvironment?_number htakes]
  cases hflag : valueOf? flags key with
  | none => cases (spec.variableName.bind environment).bind parseNumber? <;> rfl
  | some v =>
    obtain ⟨n, rfl⟩ := Takes.exists_number (htakes ▸ h.admits key spec hspec v hflag)
    rfl

/-- A switch is on if its flag is given or its variable says so. -/
theorem isOn_eq (htakes : spec.takes = .nothing) :
    isOn a key = (isOn flags key || spec.variableName.bind environment = some "true") := by
  unfold isOn
  rw [h.value key spec hspec, OptionSpec.ofEnvironment?_nothing htakes]
  cases hflag : valueOf? flags key with
  | none => by_cases htrue : spec.variableName.bind environment = some "true" <;> simp [htrue]
  | some v =>
    obtain rfl := Takes.eq_on (htakes ▸ h.admits key spec hspec v hflag)
    rfl

end Completes

/-! ## Parsing with and without environment -/

/-- Options that are accepted with an environment are accepted without one. -/
theorem parseOptions_completes (h : parseOptions generateSpecs environment arguments = .ok a) :
    ∃ flags, parseOptions generateSpecs (fun _ => none) arguments = .ok flags
      ∧ Completes environment flags a := by
  obtain ⟨⟨s, rest⟩, hrun, h⟩ := Outcome.bind_eq_ok.mp h
  cases rest with
  | nil =>
    obtain ⟨flags, hsettle, h⟩ := Outcome.bind_eq_ok.mp h
    refine ⟨flags, ?_, completes_of_addEnvironment (Scan.fits_of_run_settle hrun hsettle) h⟩
    exact Outcome.bind_eq_ok.mpr
      ⟨(s, []), hrun, Outcome.bind_eq_ok.mpr ⟨flags, hsettle, Scan.addEnvironment_none ..⟩⟩
  | cons argument rest => cases h

/-- Only the command that generates reads options for it, and it hands on all of them. -/
theorem parseCommand_generate
    (h : parseCommand environment name arguments = .ok (.generate a, inner)) :
    name = "generate" ∧ inner = a ∧ parseOptions generateSpecs environment arguments = .ok a := by
  unfold parseCommand at h
  split at h
  next =>
    obtain ⟨given, hgiven, h⟩ := Outcome.bind_eq_ok.mp h
    cases h
    exact ⟨rfl, rfl, hgiven⟩
  next =>
    obtain ⟨given, -, h⟩ := Outcome.bind_eq_ok.mp h
    cases h
  next => split at h <;> cases h
  next => cases h

/-- What is accepted with an environment is accepted without one, with the options that it says left
out. -/
theorem parse_completes (h : parse environment arguments = .ok ⟨.generate a, format⟩) :
    ∃ flags, parse (fun _ => none) arguments = .ok ⟨.generate flags, format⟩
      ∧ Completes environment flags a := by
  obtain ⟨⟨s, rest⟩, hrun, h⟩ := Outcome.bind_eq_ok.mp h
  cases rest with
  | nil =>
    obtain ⟨_, -, h⟩ := Outcome.bind_eq_ok.mp h
    cases h
  | cons name rest =>
    cases hover : s.optionsOver with
    | true =>
      simp only [hover] at h
      cases h
    | false =>
      simp only [hover] at h
      obtain ⟨⟨command, inner⟩, hcommand, h⟩ := Outcome.bind_eq_ok.mp h
      obtain ⟨outer, hsettle, h⟩ := Outcome.bind_eq_ok.mp h
      cases h
      -- what stands before the command has no variables, so only its own options differ
      obtain ⟨rfl, rfl, hoptions⟩ := parseCommand_generate hcommand
      obtain ⟨flags, hflags, hcompletes⟩ := parseOptions_completes hoptions
      refine ⟨flags, ?_, hcompletes⟩
      -- no variable says the form
      have hformat : textOf? flags .format = textOf? inner .format := by
        rw [hcompletes.textOf?_eq .format rfl (.inl rfl)]
        simp
      refine Outcome.bind_eq_ok.mpr ⟨(s, "generate" :: rest), hrun, ?_⟩
      simp only [hover]
      refine Outcome.bind_eq_ok.mpr ⟨(.generate flags, flags), ?_, ?_⟩
      · exact Outcome.bind_eq_ok.mpr ⟨flags, hflags, rfl⟩
      · exact Outcome.bind_eq_ok.mpr ⟨outer, hsettle, by rw [hformat]; rfl⟩

/-! ## What options set -/

section Options

variable {given? : (s : Setting) → Option s.Given} {s s' : Setting} {d : Draft} {l : List Setting}

/-- Sets a setting if there is something to set it to. -/
def setGiven (given? : (s : Setting) → Option s.Given) (d : Draft) (s : Setting) : Draft :=
  setIf (given? s) (fun d given => d.set s given) d

/-- What a setting holds that is set if there is something to set it to. -/
def taken (given : Option s.Given) : Option s.Value := given.bind fun given => s.counted (s.read given)

/-- A setting that was open has what it is set to. -/
theorem value_setGiven (hopen : d.value s = none) : (setGiven given? d s).value s = taken (given? s) := by
  unfold setGiven
  cases given? s with
  | none => exact hopen
  | some given => exact Draft.value_set d s given

/-- The other settings are left alone. -/
theorem value_setGiven_of_ne (h : s' ≠ s) : (setGiven given? d s).value s' = d.value s' := by
  unfold setGiven
  cases given? s with
  | none => rfl
  | some given => exact Draft.value_set_of_ne given h

/-- A setting that is not among them is left alone. -/
theorem value_foldl_setGiven_of_notMem (h : s ∉ l) :
    (l.foldl (setGiven given?) d).value s = d.value s := by
  induction l generalizing d with
  | nil => rfl
  | cons first rest ih =>
    obtain ⟨hfirst, hrest⟩ := List.ne_and_not_mem_of_not_mem_cons h
    exact (ih hrest).trans (value_setGiven_of_ne hfirst)

/-- Where each setting is set once at most, each has what it is set to. -/
theorem value_foldl_setGiven (hnodup : l.Nodup) (hopen : d.value s = none) (h : s ∈ l) :
    (l.foldl (setGiven given?) d).value s = taken (given? s) := by
  induction l generalizing d with
  | nil => cases h
  | cons first rest ih =>
    obtain ⟨hfirst, hrest⟩ := List.nodup_cons.mp hnodup
    by_cases hs : s = first
    · subst hs
      exact (value_foldl_setGiven_of_notMem hfirst).trans (value_setGiven hopen)
    · exact ih hrest ((value_setGiven_of_ne hs).trans hopen) (List.mem_of_ne_of_mem hs h)

end Options

/-- What options set a setting to. -/
def optionOf? (a : Arguments) : (s : Setting) → Option s.Given
  | .server => textOf? a .server
  | .sharedSpace => numberOf? a .sharedSpace
  | .workspace => numberOf? a .workspace
  | .clientId => textOf? a .clientId
  | .clientSecret => textOf? a .clientSecret
  | .trustAllCertificates => if isOn a .trustAllCerts then some true else none
  | .apiMode => if isOn a .techPreview then some ApiMode.technicalPreview else none
  | .ignoredLists => textOf? a .ignoredListIds
  | .outputDirectory => textOf? a .output
  | .package => textOf? a .package
  | .timeout => (numberOf? a .timeout).map (1000 * ·)

/-- The draft that options make has for each setting what they set it to. -/
theorem value_draftOf (a : Arguments) (s : Setting) : (draftOf a).value s = taken (optionOf? a s) := by
  have hdraft : draftOf a = Setting.all.foldl (setGiven (optionOf? a)) Draft.empty := rfl
  rw [hdraft]
  exact value_foldl_setGiven Setting.nodup_all (Draft.value_empty s) s.mem_all

/-! ## What flags and environment set -/

/-- What flags and environment set a setting to: a flag counts, and else its variable. A switch is
turned on by either and turned off by none. -/
def said (flags : Arguments) (environment : String → Option String) : (s : Setting) → Option s.Given
  | .server => textOf? flags .server <|> environment "OCTANE_SERVER"
  | .sharedSpace =>
    numberOf? flags .sharedSpace <|> (environment "OCTANE_SHARED_SPACE").bind parseNumber?
  | .workspace => numberOf? flags .workspace <|> (environment "OCTANE_WORKSPACE").bind parseNumber?
  | .clientId => textOf? flags .clientId <|> environment "OCTANE_CLIENT_ID"
  | .clientSecret => textOf? flags .clientSecret <|> environment "OCTANE_CLIENT_SECRET"
  | .trustAllCertificates =>
    if isOn flags .trustAllCerts || environment "OCTANE_TRUST_ALL_CERTS" = some "true" then some true
    else none
  | .apiMode =>
    if isOn flags .techPreview || environment "OCTANE_TECH_PREVIEW" = some "true" then
      some ApiMode.technicalPreview
    else none
  | .ignoredLists => textOf? flags .ignoredListIds <|> environment "OCTANE_IGNORED_LIST_IDS"
  | .outputDirectory => textOf? flags .output <|> environment "OCTANE_OUTPUT_DIR"
  | .package => textOf? flags .package <|> environment "OCTANE_PACKAGE"
  | .timeout =>
    (numberOf? flags .timeout <|> (environment "OCTANE_TIMEOUT").bind parseNumber?).map (1000 * ·)

/-- Options that are completed by the environment set what flags and environment say. -/
theorem optionOf?_eq_said (h : Completes environment flags a) (s : Setting) :
    optionOf? a s = said flags environment s := by
  cases s with
  | server => exact h.textOf?_eq .server rfl (.inl rfl)
  | sharedSpace => exact h.numberOf?_eq .sharedSpace rfl rfl
  | workspace => exact h.numberOf?_eq .workspace rfl rfl
  | clientId => exact h.textOf?_eq .clientId rfl (.inl rfl)
  | clientSecret => exact h.textOf?_eq .clientSecret rfl (.inl rfl)
  | trustAllCertificates =>
    exact congrArg (fun on => if on then some true else none) (h.isOn_eq .trustAllCerts rfl rfl)
  | apiMode =>
    exact congrArg (fun on => if on then some ApiMode.technicalPreview else none)
      (h.isOn_eq .techPreview rfl rfl)
  | ignoredLists => exact h.textOf?_eq .ignoredListIds rfl (.inl rfl)
  | outputDirectory => exact h.textOf?_eq .output rfl (.inr rfl)
  | package => exact h.textOf?_eq .package rfl (.inl rfl)
  | timeout => exact congrArg (Option.map (1000 * ·)) (h.numberOf?_eq .timeout rfl rfl)

/-! ## All layers -/

/-- Settings that flags, environment and settings file make: each is what the first of them says that
says anything, or else the default. -/
def Layered (flags : Arguments) (environment : String → Option String) (file : SettingsFile)
    (settings : Settings) : Prop :=
  settings.Completes fun s => taken (said flags environment s) <|> file.value s

/-- **Flags win over the environment, and the environment over the settings file.** What a file says
makes no difference for what flags and environment set. -/
theorem settingsOf_layered (h : parse environment arguments = .ok ⟨.generate a, format⟩) :
    ∃ flags, parse (fun _ => none) arguments = .ok ⟨.generate flags, format⟩
      ∧ textOf? a .config = (textOf? flags .config <|> environment "OCTANE_MODELGEN_CONFIG")
      ∧ (∀ disk path settings, settingsOf disk path a = .ok settings →
          ∃ file, chooseFile disk path a = .ok file ∧ Layered flags environment file settings)
      ∧ ∀ disk path file disk' path' file', chooseFile disk path a = .ok file →
          chooseFile disk' path' a = .ok file' →
          (∀ s, taken (said flags environment s) = none → file.value s = file'.value s) →
          settingsOf disk path a = settingsOf disk' path' a := by
  obtain ⟨flags, hflags, hcompletes⟩ := parse_completes h
  have hvalue : ∀ s, (draftOf a).value s = taken (said flags environment s) := fun s =>
    (value_draftOf a s).trans (congrArg taken (optionOf?_eq_said hcompletes s))
  refine ⟨flags, hflags, hcompletes.textOf?_eq .config rfl (.inr rfl), ?_, ?_⟩
  · intro disk path settings hsettings
    obtain ⟨file, hfile, hfinish⟩ := Outcome.bind_eq_ok.mp hsettings
    have hfilled : ((draftOf a).fill file).value
        = fun s => taken (said flags environment s) <|> file.value s := by
      funext s
      rw [Draft.value_fill, hvalue]
    refine ⟨file, hfile, ?_⟩
    rw [Layered, ← hfilled]
    exact Draft.completes_of_finish hfinish
  · -- the file only fills what is open, so it is asked for nothing else
    intro disk path file disk' path' file' hfile hfile' halike
    have hfill : (draftOf a).fill file = (draftOf a).fill file' :=
      Draft.fill_eq_of_value fun s hopen => halike s ((hvalue s).symm.trans hopen)
    unfold settingsOf
    rw [hfile, hfile']
    exact congrArg Draft.finish hfill

/-! ## A variable that turns a switch off -/

/-- All that has to be set, as flags. -/
def generateAll : List String :=
  ["generate", "--server", "https://octane.example.com", "--shared-space", "1001", "--workspace",
    "1002", "--client-id", "id", "--client-secret", "secret"]

/-- The options that these flags give. -/
def allGiven : Arguments :=
  [(.server, .text "https://octane.example.com"), (.sharedSpace, .number 1001),
    (.workspace, .number 1002), (.clientId, .text "id"), (.clientSecret, .text "secret")]

/-- A variable turns the technical preview off. -/
def previewOff (name : String) : Option String :=
  if name = "OCTANE_TECH_PREVIEW" then some "false" else none

/-- A settings file turns it on. -/
def previewDisk : Disk := ⟨fun _ => true, fun _ => some "tech_preview = true"⟩

theorem parse_generateAll : parse previewOff generateAll = .ok ⟨.generate allGiven, "pretty"⟩ := by
  decide +kernel

theorem settingsOf_previewOff :
    parse previewOff generateAll = .ok ⟨.generate allGiven, "pretty"⟩
      ∧ ∃ flags settings file, settingsOf previewDisk (some "config.toml") allGiven = .ok settings
        ∧ chooseFile previewDisk (some "config.toml") allGiven = .ok file
        ∧ Layered flags previewOff file settings := by
  obtain ⟨flags, -, -, hlayered, -⟩ := settingsOf_layered parse_generateAll
  obtain ⟨settings, hsettings⟩ := Outcome.exists_of_isOk
    (show (settingsOf previewDisk (some "config.toml") allGiven).isOk = true by decide +kernel)
  obtain ⟨file, hfile, hfits⟩ := hlayered _ _ _ hsettings
  exact ⟨parse_generateAll, flags, settings, file, hsettings, hfile, hfits⟩

/-- What a variable turns off may be on, because a settings file says so. -/
theorem not_forall_apiMode_default :
    ¬∀ (environment : String → Option String) (arguments : List String) (a flags : Arguments)
      (format : String) (disk : Disk) (path : Option String) (settings : Settings),
      parse environment arguments = .ok ⟨.generate a, format⟩ →
      parse (fun _ => none) arguments = .ok ⟨.generate flags, format⟩ →
      settingsOf disk path a = .ok settings → valueOf? flags .techPreview = none →
      environment "OCTANE_TECH_PREVIEW" = some "false" → settings.apiMode = .default := by
  intro hall
  have hmode : ((settingsOf previewDisk (some "config.toml") allGiven).map Settings.apiMode).toOption
      = some .technicalPreview := by decide +kernel
  obtain ⟨settings, hsettings, hon⟩ := Outcome.exists_of_toOption_map hmode
  have hoff := hall previewOff generateAll allGiven allGiven "pretty" _ _ settings
    parse_generateAll (by decide +kernel) hsettings (by decide) (by decide)
  cases hon.symm.trans hoff

end TypedEntities.CommandLine
