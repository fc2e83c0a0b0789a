import Mathlib
import TypedEntities.Proofs.Settings.Setting

/-!
# Two ways to supply a setting

A setting that is open can be set on a draft, or a settings file that says nothing else can fill it
in. Both give the same settings or the same failure, for every setting and value but a server whose
address ends in a slash: setting it takes the slashes off, a file leaves them (`Draft.finish_fill`).
-/

namespace TypedEntities

/-! ## What is left of a text -/

/-- Where nothing stands at the end there is nothing to take off. -/
theorem Text.trimEnd_eq_self_iff {c : Char} {text : List Char} :
    trimEnd c text = text ↔ text.getLast? ≠ some c := by
  constructor
  · intro h
    rw [← h]
    exact getLast?_trimEnd_ne c text
  · intro h
    rw [← List.head?_reverse] at h
    unfold trimEnd
    cases hreverse : text.reverse with
    | nil =>
      rw [List.reverse_eq_nil_iff.mp hreverse]
      rfl
    | cons d rest =>
      rw [hreverse, List.head?_cons, ne_eq, Option.some.injEq] at h
      rw [List.dropWhile_cons_of_neg (by simpa using h), ← hreverse, List.reverse_reverse]

/-- An id that is read as it stands: it is not empty, and it has no commas and no blanks around it. -/
structure IsPlainId (id : String) : Prop where
  ne_empty : id ≠ ""
  comma_notMem : ',' ∉ id.toList
  trim_eq : Text.trim id.toList = id.toList

/-- Such ids are read back from the text in which they stand with commas between. -/
theorem parseIgnoredLists_intercalate {ids : List String} (h : ∀ id ∈ ids, IsPlainId id) :
    parseIgnoredLists (",".intercalate ids) = TextSet.ofList ids := by
  rcases eq_or_ne ids [] with rfl | hne
  · rfl
  have hparts : ∀ part ∈ ids.map String.toList,
      part ≠ [] ∧ ',' ∉ part ∧ Text.trim part = part := by
    intro part hpart
    obtain ⟨id, hid, rfl⟩ := List.mem_map.mp hpart
    exact ⟨by simpa using (h id hid).ne_empty, (h id hid).comma_notMem, (h id hid).trim_eq⟩
  -- the ids have no comma, so splitting undoes the joining
  have hsplit : (",".intercalate ids).toList.splitOn ',' = ids.map String.toList := by
    rw [String.toList_intercalate]
    exact List.splitOn_intercalate ',' (fun part hpart => (hparts part hpart).2.1)
      (by simpa using hne)
  have htrim : (ids.map String.toList).map Text.trim = ids.map String.toList :=
    (List.map_congr_left fun part hpart => (hparts part hpart).2.2).trans (List.map_id _)
  -- trimming leaves them, and none of them is empty
  have hkept : (ids.map String.toList).filter (fun id => !id.isEmpty) = ids.map String.toList :=
    List.filter_eq_self.mpr fun part hpart => by simpa using (hparts part hpart).1
  have hback : (ids.map String.toList).map String.ofList = ids := by
    rw [List.map_map]
    exact (List.map_congr_left fun id _ => String.ofList_toList).trans (List.map_id _)
  rw [parseIgnoredLists, hsplit, htrim, hkept, hback]

/-! ## What a file holds -/

namespace Setting

/-- What a settings file holds for a setting: a switch for the technical preview, the ids to ignore one
by one, whole seconds, and for any other setting what the setting itself holds. -/
def Filed : Setting → Type
  | apiMode => Bool
  | ignoredLists => List String
  | s => s.Value

/-- What a setting is set to in order to say what a file says. -/
def ofFile : (s : Setting) → s.Filed → s.Given
  | server, address => address
  | sharedSpace, id => id
  | workspace, id => id
  | clientId, id => id
  | clientSecret, secret => secret
  | trustAllCertificates, trust => trust
  | apiMode, enabled => ApiMode.ofPreview enabled
  | ignoredLists, ids => ",".intercalate ids
  | outputDirectory, directory => directory
  | package, name => name
  | timeout, (seconds : Nat) => (1000 * seconds : Nat)

/-- What is filed is what would be read: an address of a server that ends in no slash, ids that are
read as they stand, and anything for the other settings. -/
def IsPlain : (s : Setting) → s.Filed → Prop
  | server, (address : String) => address.toList.getLast? ≠ some '/'
  | ignoredLists, (ids : List String) => ∀ id ∈ ids, IsPlainId id
  | _, _ => True

end Setting

/-- The settings file that says something for one setting and nothing else. -/
def SettingsFile.only : (s : Setting) → s.Filed → SettingsFile
  | .server, address => { empty with server := some address }
  | .sharedSpace, id => { empty with sharedSpace := some id }
  | .workspace, id => { empty with workspace := some id }
  | .clientId, id => { empty with clientId := some id }
  | .clientSecret, secret => { empty with clientSecret := some secret }
  | .trustAllCertificates, trust => { empty with trustAllCertificates := some trust }
  | .apiMode, enabled => { empty with technicalPreview := some enabled }
  | .ignoredLists, ids => { empty with ignoredLists := ids }
  | .outputDirectory, directory => { empty with outputDirectory := some directory }
  | .package, name => { empty with package := some name }
  | .timeout, seconds => { empty with timeoutSeconds := some seconds }

/-- A file for one setting says nothing for the others. -/
theorem SettingsFile.value_only_of_ne {s s' : Setting} (filed : s.Filed) (h : s' ≠ s) :
    (only s filed).value s' = none := by
  cases s <;> cases s' <;> first | rfl | exact absurd rfl h

/-- A file says what setting the setting would come to, where what it holds is read as it stands. -/
theorem SettingsFile.value_only {s : Setting} {filed : s.Filed} (h : s.IsPlain filed) :
    (only s filed).value s = s.counted (s.read (s.ofFile filed)) := by
  cases s with
  | server =>
    change String at filed
    show some filed = some (String.ofList (Text.trimEnd '/' filed.toList))
    rw [Text.trimEnd_eq_self_iff.mpr h, String.ofList_toList]
  | ignoredLists =>
    change List String at filed
    show (if filed.isEmpty then none else some (TextSet.ofList filed))
      = if (parseIgnoredLists (",".intercalate filed)).isEmpty then none
        else some (parseIgnoredLists (",".intercalate filed))
    rw [parseIgnoredLists_intercalate h, TextSet.isEmpty_ofList]
  | _ => rfl

namespace Draft

variable {d : Draft} {s : Setting}

/-! ## Both ways -/

theorem fill_eq_set {filed : s.Filed} (hopen : d.value s = none) (hplain : s.IsPlain filed) :
    d.fill (.only s filed) = d.set s (s.ofFile filed) := by
  refine eq_of_value fun s' => ?_
  rw [value_fill]
  by_cases hs : s' = s
  · subst hs
    rw [hopen, value_set, SettingsFile.value_only hplain]
    rfl
  · rw [value_set_of_ne _ hs, SettingsFile.value_only_of_ne filed hs]
    cases d.value s' <;> rfl

/-- **Setting and filling in agree**, but for a server whose address ends in a slash: what is set ends
in none, and what is filled in stays as it is. Ids to ignore are set as a text with commas between
and agree if each is read from it as it stands. -/
theorem finish_fill (d : Draft) :
    (∀ (s : Setting) (filed : s.Filed), d.value s = none → s.IsPlain filed →
        (d.fill (.only s filed)).finish = (d.set s (s.ofFile filed)).finish)
      ∧ (d.value .server = none → ∀ address : String,
        (∀ settings, (d.set .server address).finish = .ok settings →
          settings.server.toList.getLast? ≠ some '/')
          ∧ ∀ settings, (d.fill (.only .server address)).finish = .ok settings →
            settings.server = address) := by
  constructor
  · intro s filed hopen hplain
    rw [fill_eq_set hopen hplain]
  · intro hopen address
    constructor
    · intro settings hsettings
      have hserver : settings.server = (Setting.server.read address : String) :=
        (completes_of_finish hsettings).value_eq (value_set d .server address)
      rw [hserver]
      exact Setting.getLast?_read_server_ne address
    · intro settings hsettings
      refine (completes_of_finish hsettings).value_eq (s := .server) ?_
      rw [value_fill, hopen]
      rfl

/-! ## A server with a slash -/

/-- A draft in which only the server is missing. -/
def serverless : Draft :=
  (((Draft.empty.setSharedSpace 1001).setWorkspace 1002).setClientId "id").setClientSecret "secret"

theorem finish_fill_serverless :
    let address := "https://octane.example.com"
    serverless.value .server = none ∧ Setting.server.IsPlain address
      ∧ (serverless.fill (.only .server address)).finish
        = (serverless.set .server address).finish := by
  have hplain : Setting.server.IsPlain "https://octane.example.com" := by
    show "https://octane.example.com".toList.getLast? ≠ some '/'
    decide
  exact ⟨rfl, hplain, (finish_fill serverless).1 .server "https://octane.example.com" rfl hplain⟩

/-- The settings of a file may have a server that ends in a slash. -/
theorem not_forall_finish_fill_eq :
    ¬∀ (d : Draft) (s : Setting) (filed : s.Filed), s ≠ .ignoredLists → d.value s = none →
      (d.fill (.only s filed)).finish = (d.set s (s.ofFile filed)).finish := by
  intro hall
  have hsame := congrArg (fun r => r.toOption.map Settings.server)
    (hall serverless .server "https://octane.example.com/" nofun rfl)
  revert hsame
  decide +kernel

end Draft

end TypedEntities
