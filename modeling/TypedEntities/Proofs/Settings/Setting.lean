import Mathlib
import TypedEntities.Proofs.Outcome
import TypedEntities.Proofs.Table
import TypedEntities.Settings.Draft

/-!
# The settings as one family

A draft, a settings file and finished settings all have something, or nothing, for each of the
settings. `Setting` names the settings, and what is said of one of them is said of all at once: a
setting that is set has what was read and leaves the others alone (`Draft.value_set`,
`Draft.value_set_of_ne`), a file fills in what is open (`Draft.value_fill`), and finished settings
have for each what the draft has or else its default (`Draft.completes_of_finish`).
-/

namespace TypedEntities

/-- One of the settings. -/
inductive Setting
  | server
  | sharedSpace
  | workspace
  | clientId
  | clientSecret
  | trustAllCertificates
  | apiMode
  | ignoredLists
  | outputDirectory
  | package
  | timeout
deriving DecidableEq

namespace Setting

def all : List Setting :=
  [server, sharedSpace, workspace, clientId, clientSecret, trustAllCertificates, apiMode,
    ignoredLists, outputDirectory, package, timeout]

theorem mem_all (s : Setting) : s ∈ all := by
  cases s <;> simp [all]

theorem nodup_all : all.Nodup := by decide

/-- What a setting holds. -/
def Value : Setting → Type
  | server | clientId | clientSecret | outputDirectory | package => String
  | sharedSpace | workspace | timeout => Nat
  | trustAllCertificates => Bool
  | apiMode => ApiMode
  | ignoredLists => TextSet

/-- What a setting is set to: a text that lists the ids to ignore, and for any other setting what it
holds. -/
def Given : Setting → Type
  | ignoredLists => String
  | s => s.Value

/-- What a setting holds once it is set. -/
def read : (s : Setting) → s.Given → s.Value
  | server, address => String.ofList (Text.trimEnd '/' (String.toList address))
  | sharedSpace, id => id
  | workspace, id => id
  | clientId, id => id
  | clientSecret, secret => secret
  | trustAllCertificates, trust => trust
  | apiMode, mode => mode
  | ignoredLists, ids => parseIgnoredLists ids
  | outputDirectory, directory => directory
  | package, name => name
  | timeout, milliseconds => milliseconds

/-- What counts as set: no ignored list at all counts as nothing set. -/
def counted : (s : Setting) → s.Value → Option s.Value
  | ignoredLists, (ids : TextSet) => if ids.isEmpty then none else some ids
  | _, value => some value

/-- What a setting holds when nobody sets it. -/
def default? : (s : Setting) → Option s.Value
  | server | sharedSpace | workspace | clientId | clientSecret => none
  | trustAllCertificates => some false
  | apiMode => some ApiMode.default
  | ignoredLists => some Table.empty
  | outputDirectory => some Draft.defaultOutputDirectory
  | package => some Draft.defaultPackage
  | timeout => some Draft.defaultTimeout

/-- The settings without a default, in the order in which they are looked for. -/
def required : List Setting := [server, sharedSpace, workspace, clientId, clientSecret]

def name : Setting → String
  | server => "server"
  | sharedSpace => "shared_space"
  | workspace => "workspace"
  | clientId => "client_id"
  | clientSecret => "client_secret"
  | trustAllCertificates => "trust_all_certs"
  | apiMode => "api_mode"
  | ignoredLists => "ignored_list_ids"
  | outputDirectory => "output_dir"
  | package => "package"
  | timeout => "request_timeout"

end Setting

/-- What a draft has for a setting. -/
def Draft.value (d : Draft) : (s : Setting) → Option s.Value
  | .server => d.server
  | .sharedSpace => d.sharedSpace
  | .workspace => d.workspace
  | .clientId => d.clientId
  | .clientSecret => d.clientSecret
  | .trustAllCertificates => d.trustAllCertificates
  | .apiMode => d.apiMode
  | .ignoredLists => if d.ignoredLists.isEmpty then none else some d.ignoredLists
  | .outputDirectory => d.outputDirectory
  | .package => d.package
  | .timeout => d.timeout

/-- What a settings file says for a setting. -/
def SettingsFile.value (f : SettingsFile) : (s : Setting) → Option s.Value
  | .server => f.server
  | .sharedSpace => f.sharedSpace
  | .workspace => f.workspace
  | .clientId => f.clientId
  | .clientSecret => f.clientSecret
  | .trustAllCertificates => f.trustAllCertificates
  | .apiMode => f.technicalPreview.map ApiMode.ofPreview
  | .ignoredLists => if f.ignoredLists.isEmpty then none else some (TextSet.ofList f.ignoredLists)
  | .outputDirectory => f.outputDirectory
  | .package => f.package
  | .timeout => f.timeoutSeconds.map (1000 * ·)

/-- What settings have for a setting. -/
def Settings.value (settings : Settings) : (s : Setting) → s.Value
  | .server => settings.server
  | .sharedSpace => settings.sharedSpace
  | .workspace => settings.workspace
  | .clientId => settings.credentials.clientId
  | .clientSecret => settings.credentials.secret
  | .trustAllCertificates => settings.trustAllCertificates
  | .apiMode => settings.apiMode
  | .ignoredLists => settings.ignoredLists
  | .outputDirectory => settings.outputDirectory
  | .package => settings.package
  | .timeout => settings.timeout

/-- Settings have for each setting what was put together, and a default for what was left open. -/
def Settings.Completes (settings : Settings) (merged : (s : Setting) → Option s.Value) : Prop :=
  ∀ s, (merged s <|> s.default?) = some (settings.value s)

/-- Settings have what was put together. -/
theorem Settings.Completes.value_eq {settings : Settings} {merged : (s : Setting) → Option s.Value}
    (h : settings.Completes merged) {s : Setting} {value : s.Value} (hvalue : merged s = some value) :
    settings.value s = value := by
  have hmerged := h s
  rw [hvalue] at hmerged
  exact (Option.some.inj hmerged).symm

/-- Settings pass the check unchanged, and no rule is broken. -/
theorem Settings.check_eq_ok {settings settings' : Settings} (h : settings.check = .ok settings') :
    settings.fault? = none ∧ settings = settings' := by
  unfold Settings.check at h
  split at h
  next => cases h
  next hfault => exact ⟨hfault, Except.ok.inj h⟩

/-- Settings that are checked have a valid package. -/
theorem Settings.isPackage_of_check {settings settings' : Settings}
    (h : settings.check = .ok settings') : isPackage settings.package = true := by
  have hnone := List.find?_eq_none.mp (Option.map_eq_none_iff.mp (check_eq_ok h).1)
  have hrule := hnone (isPackage settings.package, "package", _) (by simp [rules]; rfl)
  simpa using hrule

/-- A server that is set ends in no slash. -/
theorem Setting.getLast?_read_server_ne (address : String) :
    (read server address : String).toList.getLast? ≠ some '/' := by
  show (String.ofList _).toList.getLast? ≠ _
  rw [String.toList_ofList]
  exact Text.getLast?_trimEnd_ne '/' address.toList

/-- Ignored lists that come to the same, so far as they count, are the same. -/
theorem Setting.counted_ignoredLists_inj {ids ids' : TextSet}
    (h : counted ignoredLists ids = counted ignoredLists ids') : ids = ids' := by
  change (if ids.isEmpty then none else some ids) = if ids'.isEmpty then none else some ids' at h
  by_cases hempty : ids.isEmpty = true <;> by_cases hempty' : ids'.isEmpty = true
  · exact Table.ext ((List.isEmpty_iff.mp hempty).trans (List.isEmpty_iff.mp hempty').symm)
  · rw [if_pos hempty, if_neg hempty'] at h
    cases h
  · rw [if_neg hempty, if_pos hempty'] at h
    cases h
  · rw [if_neg hempty, if_neg hempty'] at h
    exact Option.some.inj h

/-- Where no ignored list counts the default is not to ignore any either. -/
theorem Setting.counted_ignoredLists_orElse (ids : TextSet) :
    (counted ignoredLists ids <|> default? ignoredLists) = some ids := by
  show ((if ids.isEmpty then none else some ids) <|> some Table.empty) = some ids
  by_cases hempty : ids.isEmpty = true
  · rw [if_pos hempty]
    exact congrArg some (Table.ext (List.isEmpty_iff.mp hempty).symm)
  · rw [if_neg hempty]
    rfl

/-- The set of the texts of a list is empty only if the list is. -/
theorem TextSet.isEmpty_ofList (l : List String) : (TextSet.ofList l).isEmpty = l.isEmpty := by
  cases l with
  | nil => rfl
  | cons id l =>
    have hmem : id ∈ (TextSet.ofList (id :: l)).keys := by
      rw [TextSet.ofList, Table.mem_keys_ofList]
      simp
    obtain ⟨entry, hentry, -⟩ := List.mem_map.mp hmem
    rw [List.isEmpty_cons, Table.isEmpty, List.isEmpty_eq_false_iff]
    exact List.ne_nil_of_mem hentry

namespace Draft

/-- The draft with a setting set. -/
def set (d : Draft) : (s : Setting) → s.Given → Draft
  | .server, address => d.setServer address
  | .sharedSpace, id => d.setSharedSpace id
  | .workspace, id => d.setWorkspace id
  | .clientId, id => d.setClientId id
  | .clientSecret, secret => d.setClientSecret secret
  | .trustAllCertificates, trust => d.setTrustAllCertificates trust
  | .apiMode, mode => d.setApiMode mode
  | .ignoredLists, ids => d.setIgnoredLists ids
  | .outputDirectory, directory => d.setOutputDirectory directory
  | .package, name => d.setPackage name
  | .timeout, milliseconds => d.setTimeout milliseconds

variable {d d' : Draft} {settings : Settings}

/-! ## Setting and filling in -/

/-- In the empty draft every setting is open. -/
theorem value_empty (s : Setting) : empty.value s = none := by
  cases s <;> rfl

/-- A setting that is set has what was read, so far as that counts. -/
theorem value_set (d : Draft) (s : Setting) (given : s.Given) :
    (d.set s given).value s = s.counted (s.read given) := by
  cases s <;> rfl

/-- Setting one setting leaves the others alone. -/
theorem value_set_of_ne {s s' : Setting} (given : s.Given) (h : s' ≠ s) :
    (d.set s given).value s' = d.value s' := by
  cases s <;> cases s' <;> first | rfl | exact absurd rfl h

/-- A file fills in what is open. -/
theorem value_fill (d : Draft) (f : SettingsFile) (s : Setting) :
    (d.fill f).value s = (d.value s <|> f.value s) := by
  cases s with
  | ignoredLists =>
    show (if (if d.ignoredLists.isEmpty then TextSet.ofList f.ignoredLists
          else d.ignoredLists).isEmpty then none
        else some (if d.ignoredLists.isEmpty then TextSet.ofList f.ignoredLists
          else d.ignoredLists)) = _
    by_cases hempty : d.ignoredLists.isEmpty = true
    · simp only [value, SettingsFile.value, hempty, if_true, TextSet.isEmpty_ofList]
      rfl
    · simp only [value, if_neg hempty]
      rfl
  | _ => rfl

/-- A draft is what it has for each setting. -/
theorem eq_of_value (h : ∀ s, d.value s = d'.value s) : d = d' := by
  -- an empty set counts as none given, and no other set does, so the value tells the set
  have hignored : d.ignoredLists = d'.ignoredLists :=
    Setting.counted_ignoredLists_inj (h .ignoredLists)
  have hserver := h .server
  have hsharedSpace := h .sharedSpace
  have hworkspace := h .workspace
  have hclientId := h .clientId
  have hclientSecret := h .clientSecret
  have htrust := h .trustAllCertificates
  have hmode := h .apiMode
  have hdirectory := h .outputDirectory
  have hpackage := h .package
  have htimeout := h .timeout
  cases d
  cases d'
  simp only [value] at *
  subst_vars
  rfl

/-- What files say for a setting that is set makes no difference. -/
theorem fill_eq_of_value {file file' : SettingsFile}
    (h : ∀ s, d.value s = none → file.value s = file'.value s) : d.fill file = d.fill file' := by
  refine eq_of_value fun s => ?_
  rw [value_fill, value_fill]
  cases hvalue : d.value s with
  | none => rw [h s hvalue]
  | some value => rfl

/-! ## Finishing -/

theorem need_eq_ok {α : Type} {setting : String} {value : Option α} {a : α}
    (h : need setting value = .ok a) : (value <|> none) = some a := by
  cases value with
  | none => cases h
  | some b => exact congrArg some (Except.ok.inj h)

theorem orElse_some {α : Type} (set : Option α) (a : α) : (set <|> some a) = some (set.getD a) := by
  cases set <;> rfl

/-- A complete draft has what it needs, and the settings have a default for the rest. -/
theorem completes_of_complete (h : d.complete = .ok settings) : settings.Completes d.value := by
  unfold complete at h
  obtain ⟨server, hserver, h⟩ := Outcome.bind_eq_ok.mp h
  obtain ⟨sharedSpace, hsharedSpace, h⟩ := Outcome.bind_eq_ok.mp h
  obtain ⟨workspace, hworkspace, h⟩ := Outcome.bind_eq_ok.mp h
  obtain ⟨clientId, hclientId, h⟩ := Outcome.bind_eq_ok.mp h
  obtain ⟨clientSecret, hclientSecret, h⟩ := Outcome.bind_eq_ok.mp h
  cases h
  intro s
  cases s with
  | server => exact need_eq_ok hserver
  | sharedSpace => exact need_eq_ok hsharedSpace
  | workspace => exact need_eq_ok hworkspace
  | clientId => exact need_eq_ok hclientId
  | clientSecret => exact need_eq_ok hclientSecret
  | ignoredLists => exact Setting.counted_ignoredLists_orElse d.ignoredLists
  | trustAllCertificates | apiMode | outputDirectory | package | timeout => exact orElse_some ..

theorem completes_of_finish (h : d.finish = .ok settings) : settings.Completes d.value := by
  obtain ⟨settings', hcomplete, hcheck⟩ := Outcome.bind_eq_ok.mp h
  obtain ⟨-, rfl⟩ := Settings.check_eq_ok hcheck
  exact completes_of_complete hcomplete

end Draft

end TypedEntities
