import TypedEntities.Failure
import TypedEntities.Settings.Toml

/-!
# Settings files

A settings file holds some of the settings, by name. A name that is no setting, a value of another
kind than the setting's or anything that is not TOML makes the whole file unreadable.
-/

namespace TypedEntities

/-- What a settings file says. -/
structure SettingsFile where
  server : Option String
  sharedSpace : Option Nat
  workspace : Option Nat
  clientId : Option String
  clientSecret : Option String
  trustAllCertificates : Option Bool
  technicalPreview : Option Bool
  /-- In the order of the file, repetitions included. -/
  ignoredLists : List String
  outputDirectory : Option String
  package : Option String
  timeoutSeconds : Option Nat
deriving DecidableEq, Repr, Inhabited

namespace SettingsFile

/-- The file that says nothing. -/
def empty : SettingsFile := ⟨none, none, none, none, none, none, none, [], none, none, none⟩

/-- A file with one entry more, if the entry is a setting of the right kind. -/
def add (f : SettingsFile) (entry : String × Toml.Value) : Option SettingsFile :=
  match entry with
  | ("server", .text s) => some { f with server := some s }
  | ("shared_space", v) => v.natural?.map fun n => { f with sharedSpace := some n }
  | ("workspace", v) => v.natural?.map fun n => { f with workspace := some n }
  | ("client_id", .text s) => some { f with clientId := some s }
  | ("client_secret", .text s) => some { f with clientSecret := some s }
  | ("trust_all_certs", .bool b) => some { f with trustAllCertificates := some b }
  | ("tech_preview", .bool b) => some { f with technicalPreview := some b }
  | ("ignored_list_ids", v) => v.texts?.map fun ids => { f with ignoredLists := ids }
  | ("output_dir", .text s) => some { f with outputDirectory := some s }
  | ("package", .text s) => some { f with package := some s }
  | ("timeout_secs", v) => v.natural?.map fun n => { f with timeoutSeconds := some n }
  | _ => none

/-- What the text of a settings file says. -/
def parse (text : String) : Except Failure SettingsFile :=
  match (Toml.parse? text).bind fun entries => entries.foldlM add empty with
  | some f => .ok f
  | none => .error (.configuration "invalid configuration file: not a table of known settings")

end SettingsFile

end TypedEntities
