import Mathlib
import TypedEntities.CommandLine.Scan
import TypedEntities.Proofs.Outcome

/-!
# What a scan takes

Every option that a scan takes has a value of the kind that the option takes: one argument keeps this
(`Scan.fits_of_step`), and so do all (`Scan.fits_of_run`). An environment variable counts for an
option that is not given (`Scan.find?_of_addEnvironment`).
-/

namespace TypedEntities.CommandLine

variable {κ : Type}

/-! ## Kinds of value -/

/-- A value is of the kind that an option takes. -/
def Takes.Admits : Takes → Value → Prop
  | .nothing, .on | .text, .text _ | .path, .text _ | .number, .number _ => True
  | _, _ => False

/-- An option that takes nothing is on if it is given. -/
theorem Takes.eq_on {v : Value} (h : Takes.nothing.Admits v) : v = .on := by
  cases v with
  | on => rfl
  | _ => cases h

/-- An option that takes a number holds one. -/
theorem Takes.exists_number {v : Value} (h : Takes.number.Admits v) : ∃ n, v = .number n := by
  cases v with
  | number n => exact ⟨n, rfl⟩
  | _ => cases h

/-- An option that takes a text or a path holds a text. -/
theorem Takes.exists_text {takes : Takes} {v : Value} (htakes : takes = .text ∨ takes = .path)
    (h : takes.Admits v) : ∃ text, v = .text text := by
  cases v with
  | text text => exact ⟨text, rfl⟩
  | _ => rcases htakes with rfl | rfl <;> cases h

/-- What a text is read as: the text itself, or the number that it is. -/
theorem Takes.eq_of_read {takes : Takes} {text : String} {v : Value} (h : takes.read text = .ok v) :
    ((takes = .text ∨ takes = .path) ∧ v = .text text)
      ∨ takes = .number ∧ ∃ n, parseNumber? text = some n ∧ v = .number n := by
  unfold read at h
  split at h
  next =>
    cases h
    exact .inl ⟨.inl rfl, rfl⟩
  next =>
    split at h
    next => cases h
    next =>
      cases h
      exact .inl ⟨.inr rfl, rfl⟩
  next =>
    split at h
    next n hn =>
      cases h
      exact .inr ⟨rfl, n, hn, rfl⟩
    next => cases h
  all_goals cases h

/-- What an option reads is of the kind that it takes. -/
theorem Takes.admits_of_read {takes : Takes} {text : String} {v : Value}
    (h : takes.read text = .ok v) : takes.Admits v := by
  rcases eq_of_read h with ⟨rfl | rfl, rfl⟩ | ⟨rfl, _, -, rfl⟩ <;> trivial

/-- Every option given is one of the program's, with a value of its kind. -/
def Given.Fits (specs : List (OptionSpec κ)) (given : Given κ) : Prop :=
  ∀ g ∈ given, ∃ spec ∈ specs, spec.key = g.1 ∧ spec.takes.Admits g.2

/-- The same for a scan, and the option that waits for its value is one of the program's. -/
structure Scan.Fits (specs : List (OptionSpec κ)) (s : Scan κ) : Prop where
  given : Given.Fits specs s.given
  pending : ∀ p ∈ s.pending, p.1 ∈ specs

namespace Scan

variable [DecidableEq κ] {specs : List (OptionSpec κ)} {s s' : Scan κ} {given : Given κ}
  {spec : OptionSpec κ}

/-! ## One argument -/

/-- A value of the kind that its option takes can be added. -/
theorem fits_of_add (hgiven : given.Fits specs) (hspec : spec ∈ specs) {value : Except Refusal Value}
    (hvalue : ∀ v, value = .ok v → spec.takes.Admits v) {given' : Given κ}
    (h : add given spec.key value = .ok given') : given'.Fits specs := by
  unfold add at h
  split at h
  next => cases h
  next =>
    cases hv : value with
    | error e =>
      rw [hv] at h
      cases h
    | ok v =>
      rw [hv] at h
      cases h
      intro g hg
      rcases List.mem_append.mp hg with hg | hg
      · exact hgiven g hg
      · rw [List.mem_singleton.mp hg]
        exact ⟨spec, hspec, rfl, hvalue v hv⟩

/-- An option that still waits for its value is settled with one of its kind, or refused. -/
theorem fits_of_settle (hs : s.Fits specs) {given' : Given κ} (h : s.settle = .ok given') :
    given'.Fits specs := by
  unfold settle at h
  split at h
  next =>
    cases h
    exact hs.given
  next => cases h
  next spec text hpending =>
    exact fits_of_add hs.given (hs.pending (spec, some text) hpending)
      (fun _ hv => Takes.admits_of_read hv) h

/-- An option given by its name alone is on, or waits for its value. -/
theorem fits_of_takeBare (hs : s.Fits specs) (hspec : spec ∈ specs)
    (h : s.takeBare spec = .ok s') : s'.Fits specs := by
  obtain ⟨given, hgiven, h⟩ := Outcome.bind_eq_ok.mp h
  have hfits := fits_of_settle hs hgiven
  split at h
  next htakes =>
    -- an option that takes nothing is on at once
    obtain ⟨given', hadd, h⟩ := Outcome.bind_eq_ok.mp h
    cases h
    refine ⟨fits_of_add hfits hspec (fun v hv => ?_) hadd, nofun⟩
    rw [htakes, ← Except.ok.inj hv]
    trivial
  next => cases h
  next => cases h
  next =>
    -- any other waits for its value
    cases h
    refine ⟨hfits, fun p hp => ?_⟩
    rw [← Option.some.inj hp]
    exact hspec

/-- A value that stands in one argument with the name of its option is read for this option. -/
theorem fits_of_takeAttached (hs : s.Fits specs) (hspec : spec ∈ specs) {text : String}
    (h : s.takeAttached spec text = .ok s') : s'.Fits specs := by
  unfold takeAttached at h
  split at h
  next => cases h
  next => cases h
  next => cases h
  next =>
    obtain ⟨given, hgiven, h⟩ := Outcome.bind_eq_ok.mp h
    obtain ⟨given', hadd, h⟩ := Outcome.bind_eq_ok.mp h
    cases h
    exact ⟨fits_of_add (fits_of_settle hs hgiven) hspec (fun _ hv => Takes.admits_of_read hv) hadd,
      nofun⟩

/-- An argument with two hyphens gives an option that is known. -/
theorem fits_of_takeLong (hs : s.Fits specs) {cs : List Char}
    (h : s.takeLong specs cs = .ok s') : s'.Fits specs := by
  simp only [takeLong] at h
  cases hfind : specs.find? fun spec => spec.long = String.ofList (cs.takeWhile (· ≠ '=')) with
  | none =>
    rw [hfind] at h
    cases h
  | some spec =>
    rw [hfind] at h
    have hspec := List.mem_of_find?_eq_some hfind
    -- what stands after the equals sign, if there is one
    cases hvalue : cs.dropWhile (· ≠ '=') with
    | nil =>
      rw [hvalue] at h
      exact fits_of_takeBare hs hspec h
    | cons c value =>
      rw [hvalue] at h
      exact fits_of_takeAttached hs hspec h

/-- So does one with a single hyphen, for each of its letters. -/
theorem fits_of_takeShort (hs : s.Fits specs) {cs : List Char}
    (h : s.takeShort specs cs = .ok s') : s'.Fits specs := by
  induction cs generalizing s with
  | nil =>
    cases h
    exact hs
  | cons c rest ih =>
    unfold takeShort at h
    split at h
    next => cases h
    next spec hfind =>
      have hspec := List.mem_of_find?_eq_some hfind
      -- letters of options that take nothing may follow each other
      have hbare (hrun : (do let s ← s.takeBare spec; takeShort specs s rest) = .ok s') :
          s'.Fits specs := by
        obtain ⟨s₁, hs₁, hrest⟩ := Outcome.bind_eq_ok.mp hrun
        exact ih (fits_of_takeBare hs hspec hs₁) hrest
      split at h
      next => exact hbare h
      next => exact hbare h
      next => exact hbare h
      next =>
        split at h
        next => exact fits_of_takeBare hs hspec h
        next => exact fits_of_takeAttached hs hspec h
        next => exact fits_of_takeAttached hs hspec h

/-- One argument keeps what is given of the kinds that the options take. -/
theorem fits_of_step (hs : s.Fits specs) {argument : String}
    (h : s.step specs argument = .ok (some s')) : s'.Fits specs := by
  unfold step at h
  split at h
  next => cases h
  next =>
    split at h
    next =>
      cases h
      -- two hyphens alone end the options and give nothing
      exact ⟨hs.given, hs.pending⟩
    next =>
      obtain ⟨s₁, hs₁, h⟩ := Outcome.map_eq_ok.mp h
      cases h
      exact fits_of_takeLong hs hs₁
    next =>
      obtain ⟨s₁, hs₁, h⟩ := Outcome.map_eq_ok.mp h
      cases h
      exact fits_of_takeShort hs hs₁
    next =>
      split at h
      next spec hpending =>
        cases h
        -- the argument is held as the value of the option that waits for one
        refine ⟨hs.given, fun p hp => ?_⟩
        rw [← Option.some.inj hp]
        exact hs.pending (spec, none) hpending
      next => cases h

/-! ## All arguments -/

omit [DecidableEq κ] in
/-- At the start nothing is given. -/
theorem fits_start : (start : Scan κ).Fits specs := ⟨nofun, nofun⟩

/-- All arguments keep what is given of the kinds that the options take. -/
theorem fits_of_run (hs : s.Fits specs) {arguments rest : List String}
    (h : run specs s arguments = .ok (s', rest)) : s'.Fits specs := by
  induction arguments generalizing s with
  | nil =>
    cases h
    exact hs
  | cons argument arguments ih =>
    obtain ⟨result, hstep, h⟩ := Outcome.bind_eq_ok.mp h
    cases result with
    | none =>
      cases h
      exact hs
    | some s₁ => exact ih (fits_of_step hs hstep) h

theorem fits_of_run_settle {arguments rest : List String}
    (hrun : run specs start arguments = .ok (s, rest)) (hsettle : s.settle = .ok given) :
    given.Fits specs :=
  fits_of_settle (fits_of_run fits_start hrun) hsettle

end Scan

/-! ## The environment -/

/-- What the text of an environment variable says for an option. -/
def Takes.ofVariable? (takes : Takes) (text : String) : Option Value :=
  match takes with
  | .nothing => if text = "true" then some .on else none
  | .text | .path => some (.text text)
  | .number => (parseNumber? text).map .number
  | .help | .version => none

/-- What a flag would be read as is what a variable with the same text is taken for. -/
theorem Takes.ofVariable?_of_read {takes : Takes} {text : String} {v : Value}
    (h : takes.read text = .ok v) : takes.ofVariable? text = some v := by
  rcases eq_of_read h with ⟨rfl | rfl, rfl⟩ | ⟨rfl, n, hn, rfl⟩
  · rfl
  · rfl
  · rw [ofVariable?, hn]
    rfl

/-- What the environment says for an option. -/
def OptionSpec.ofEnvironment? (environment : String → Option String) (spec : OptionSpec κ) :
    Option Value :=
  (spec.variableName.bind environment).bind spec.takes.ofVariable?

section Kinds

variable {environment : String → Option String} {spec : OptionSpec κ}

/-- A variable for a text counts as it stands. -/
theorem OptionSpec.ofEnvironment?_text (htakes : spec.takes = .text ∨ spec.takes = .path) :
    spec.ofEnvironment? environment = (spec.variableName.bind environment).map .text := by
  unfold ofEnvironment?
  rcases htakes with htakes | htakes <;> rw [htakes] <;>
    cases spec.variableName.bind environment <;> rfl

/-- A variable for a number counts if it is one. -/
theorem OptionSpec.ofEnvironment?_number (htakes : spec.takes = .number) :
    spec.ofEnvironment? environment
      = ((spec.variableName.bind environment).bind parseNumber?).map .number := by
  unfold ofEnvironment?
  rw [htakes]
  cases spec.variableName.bind environment <;> rfl

/-- A variable for a switch counts only if it turns it on. -/
theorem OptionSpec.ofEnvironment?_nothing (htakes : spec.takes = .nothing) :
    spec.ofEnvironment? environment
      = if spec.variableName.bind environment = some "true" then some .on else none := by
  unfold ofEnvironment?
  rw [htakes]
  cases spec.variableName.bind environment with
  | none => rfl
  | some text => simp [Takes.ofVariable?]

end Kinds

namespace Scan

variable [DecidableEq κ] {environment : String → Option String} {specs rest : List (OptionSpec κ)}
  {given given' : Given κ} {spec : OptionSpec κ} {key : κ}

/-- What is given, with what the environment says for one option that is not. -/
def withVariable (environment : String → Option String) (given : Given κ) (spec : OptionSpec κ) :
    Given κ :=
  if given.any fun g => g.1 = spec.key then given
  else given ++ (spec.ofEnvironment? environment).toList.map (spec.key, ·)

/-- The environment is gone through option by option. -/
theorem addEnvironment_cons (h : addEnvironment environment given (spec :: rest) = .ok given') :
    addEnvironment environment (withVariable environment given spec) rest = .ok given' := by
  unfold addEnvironment at h
  unfold withVariable OptionSpec.ofEnvironment?
  split at h
  next hnone => simpa [hnone] using h
  next text htext =>
    rw [htext, Option.bind_some]
    split at h
    next hgiven =>
      -- what was given as an argument is left
      rw [if_pos hgiven]
      exact h
    next hgiven =>
      rw [if_neg hgiven]
      split at h
      next htakes =>
        rw [htakes]
        exact h
      next htakes =>
        -- an option that takes nothing is off when its variable says so
        rw [htakes]
        simpa [Takes.ofVariable?] using h
      next => cases h
      next =>
        obtain ⟨v, hread, h⟩ := Outcome.bind_eq_ok.mp h
        rw [Takes.ofVariable?_of_read hread]
        exact h

/-- A variable counts for its option if no flag gives it. -/
theorem find?_withVariable :
    (withVariable environment given spec).find? (fun g => g.1 = spec.key)
      = (given.find? (fun g => g.1 = spec.key)
          <|> (spec.ofEnvironment? environment).map (spec.key, ·)) := by
  unfold withVariable
  split
  next hgiven =>
    have hsome := List.find?_isSome.mpr (List.any_eq_true.mp hgiven)
    obtain ⟨g, hg⟩ := Option.isSome_iff_exists.mp hsome
    rw [hg]
    rfl
  next hgiven =>
    rw [List.find?_append]
    cases spec.ofEnvironment? environment <;> simp

/-- It does not count for any other. -/
theorem find?_withVariable_of_ne (hne : spec.key ≠ key) :
    (withVariable environment given spec).find? (fun g => g.1 = key)
      = given.find? (fun g => g.1 = key) := by
  unfold withVariable
  split
  next => rfl
  next =>
    rw [List.find?_append]
    cases spec.ofEnvironment? environment <;> simp [hne]

theorem find?_of_addEnvironment_of_notMem (hkey : key ∉ specs.map OptionSpec.key)
    (h : addEnvironment environment given specs = .ok given') :
    given'.find? (fun g => g.1 = key) = given.find? (fun g => g.1 = key) := by
  induction specs generalizing given with
  | nil =>
    cases h
    rfl
  | cons first specs ih =>
    rw [List.map_cons, List.mem_cons, not_or] at hkey
    rw [ih hkey.2 (addEnvironment_cons h), find?_withVariable_of_ne (Ne.symm hkey.1)]

/-- **An option has the value given, or else the one that the environment says.** -/
theorem find?_of_addEnvironment (hkeys : (specs.map OptionSpec.key).Nodup) (hspec : spec ∈ specs)
    (h : addEnvironment environment given specs = .ok given') :
    given'.find? (fun g => g.1 = spec.key)
      = (given.find? (fun g => g.1 = spec.key)
          <|> (spec.ofEnvironment? environment).map (spec.key, ·)) := by
  induction specs generalizing given with
  | nil => cases hspec
  | cons first specs ih =>
    rw [List.map_cons, List.nodup_cons] at hkeys
    rcases List.mem_cons.mp hspec with rfl | hrest
    · rw [find?_of_addEnvironment_of_notMem hkeys.1 (addEnvironment_cons h), find?_withVariable]
    · -- the options before have other keys
      have hne : first.key ≠ spec.key := by
        intro heq
        exact hkeys.1 (heq ▸ List.mem_map_of_mem hrest)
      rw [ih hkeys.2 hrest (addEnvironment_cons h), find?_withVariable_of_ne hne]

/-- Nothing is added where the environment says nothing. -/
theorem addEnvironment_none (specs : List (OptionSpec κ)) (given : Given κ) :
    addEnvironment (fun _ => none) given specs = .ok given := by
  induction specs with
  | nil => rfl
  | cons spec specs ih =>
    unfold addEnvironment
    have hnone : spec.variableName.bind (fun _ => (none : Option String)) = none := by
      cases spec.variableName <;> rfl
    rw [hnone]
    exact ih

end Scan

end TypedEntities.CommandLine
