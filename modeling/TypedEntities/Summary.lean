import TypedEntities.Generation.Run
import TypedEntities.Json.Printer

/-!
# Summaries

What the program prints after a run: for machines as JSON, for scripts as lines, and for people with
colours where the terminal shows them.
-/

namespace TypedEntities

/-- The forms of a summary. -/
inductive OutputFormat
  | json
  | text
  | pretty
deriving DecidableEq, Repr, Inhabited

namespace OutputFormat

/-- The name of a form. -/
def name : OutputFormat → String
  | .json => "json"
  | .text => "text"
  | .pretty => "pretty"

/-- The form with a name, in letters of either case. -/
def parse (text : String) : Except Failure OutputFormat :=
  match text.toLower with
  | "json" => .ok .json
  | "text" => .ok .text
  | "pretty" => .ok .pretty
  | _ => .error (.argument s!"invalid output format: '{text}' (expected: json, text, or pretty)")

end OutputFormat

/-- What is told about a run. -/
structure Summary where
  outputDirectory : String
  package : String
  lists : Nat
  phaseGroups : Nat
  /-- How many entity types have models now. -/
  entities : Nat
  skipped : List String
  /-- How many files were written. -/
  files : Nat
deriving DecidableEq, Repr, Inhabited

/-- A style of a terminal, by its code. -/
inductive Style
  | emphasis
  | highlight
  | warning
  | dimmed
deriving DecidableEq, Repr, Inhabited

namespace Style

/-- The text that starts a style: green and bold, cyan, yellow or dimmed. -/
def start : Style → String
  | .emphasis => "\x1b[1;32m"
  | .highlight => "\x1b[36m"
  | .warning => "\x1b[33m"
  | .dimmed => "\x1b[2m"

/-- The text that ends every style. -/
def reset : String := "\x1b[0m"

/-- Starts a style again wherever a text ends it. -/
def restart (style : Style) (text : String) : String :=
  (reset ++ style.start).intercalate (text.splitOn reset)

/-- A text in a style, if colours are shown. -/
def apply (colours : Bool) (style : Style) (text : String) : String :=
  if colours then style.start ++ style.restart text ++ reset else text

end Style

namespace Summary

/-- The summary of a run with the given settings. -/
def of (s : Settings) (r : Report) : Summary where
  outputDirectory := s.outputDirectory
  package := s.package
  lists := r.lists
  phaseGroups := r.phaseGroups
  entities := r.entities.length
  skipped := r.skipped
  files := r.files.length

def toJson (s : Summary) : Json :=
  .object [("output_dir", .text s.outputDirectory), ("package", .text s.package),
    ("lists", .ofNat s.lists), ("phase_groups", .ofNat s.phaseGroups),
    ("entities", .ofNat s.entities), ("skipped", .ofTexts s.skipped), ("files", .ofNat s.files)]

/-- One line for each part. -/
def lines (s : Summary) : String :=
  "\n".intercalate
    [s!"output_dir: {s.outputDirectory}",
     s!"package: {s.package}",
     s!"lists: {s.lists}",
     s!"phase_groups: {s.phaseGroups}",
     s!"entities: {s.entities}",
     "skipped: " ++ ",".intercalate s.skipped,
     s!"files: {s.files}"]

/-- A line of the form for people: what is counted, and how many. -/
def entry (title value : String) : String := "\n  " ++ title.pushn ' ' (14 - title.length) ++ value

/-- The form for people. -/
def pretty (colours : Bool) (s : Summary) : String :=
  let count (n : Nat) : String := Style.highlight.apply colours (toString n)
  Style.emphasis.apply colours "Generated" ++ " "
    ++ Style.highlight.apply colours s.package ++ " "
    ++ Style.dimmed.apply colours s!"into {s.outputDirectory}"
    ++ entry "Entity types" (count s.entities)
    ++ entry "Lists" (count s.lists)
    ++ entry "Phase groups" (count s.phaseGroups)
    ++ entry "Files" (count s.files)
    ++ if s.skipped.isEmpty then ""
      else entry "Skipped" (Style.warning.apply colours (", ".intercalate s.skipped))

/-- The summary in a form. -/
def text (colours : Bool) (format : OutputFormat) (s : Summary) : String :=
  match format with
  | .json => s.toJson.pretty
  | .text => s.lines
  | .pretty => s.pretty colours

end Summary

end TypedEntities
