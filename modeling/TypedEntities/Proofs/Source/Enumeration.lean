import Mathlib
import TypedEntities.Proofs.Java.Literal
import TypedEntities.Proofs.Source.Place
import TypedEntities.Proofs.Template.Comment
import TypedEntities.Proofs.Template.Lines

/-!
# Reading enumerations

`readEnumeration?` reads the declaration of an enumeration from a source, line by line: past the
package, the imports and a comment to the header, then the constants with their two literals up to
the line with the semicolon, and last the logical name. It reads no further than the lines are what
they seem: a Unicode escape is replaced before Java looks at lines, and there are other line ends than
the line feed, so the first line with either ends the reading (`plainLines`).

Each part of an enumeration is read back from the lines that are written for it, whatever comes
after; together this is `readEnumeration?_lineText`.
-/

namespace TypedEntities.Java

open TypedEntities.Template (commentEnd lineText flatMapLast mem_of_mem_flatMapLast)

/-! ## Lines -/

/-- Whether a Unicode escape begins in a text: a backslash and a `u`, unless the backslash is the
second of a pair. -/
def hasUnicodeEscape : List Char → Bool
  | '\\' :: c :: rest => c == 'u' || hasUnicodeEscape rest
  | _ :: rest => hasUnicodeEscape rest
  | [] => false

/-- Whether a text between line feeds is one line, and stands there as Java reads it. -/
def isPlain (line : List Char) : Bool := !line.contains '\r' && !hasUnicodeEscape line

/-- The lines of a source as far as they are plain. -/
def plainLines (source : String) : List (List Char) :=
  (source.toList.splitOn '\n').takeWhile isPlain

/-- A line without the blanks that it begins with. -/
def unindented (line : List Char) : List Char := line.dropWhile (· = ' ')

/-! ## Readers -/

/-- A constant of an enumeration, with the values of its two literals. -/
structure EnumConstant where
  deprecated : Bool
  identifier : String
  id : String
  name : String
deriving DecidableEq, Repr

/-- An enumeration as it is declared; the logical name is missing if `null` stands for it. -/
structure Enumeration where
  identifier : String
  constants : List EnumConstant
  logicalName : Option String
deriving DecidableEq, Repr

/-- The identifier that a text begins with, and what comes after it. -/
def readIdentifier? (text : List Char) : Option (String × List Char) :=
  let word := text.takeWhile isWordChar
  if Settings.isPackageSegment word then some (String.ofList word, text.dropWhile isWordChar)
  else none

/-- Whether a line names a package or an import. -/
def isClause (line : List Char) : Bool :=
  ("package ".toList.isPrefixOf line || "import ".toList.isPrefixOf line)
    && line.getLast? == some ';' && line.dropLast.all fun c => isWordChar c || c == '.' || c == ' '

/-- The lines from the first on that is neither empty nor a package, an import or part of a comment.
Nothing may follow a comment in its last line. -/
def skipPreamble : (inside : Bool) → List (List Char) → List (List Char)
  | _, [] => []
  | true, line :: rest =>
    if commentEnd <:+: line then
      if unindented line = commentEnd then skipPreamble false rest else []
    else skipPreamble true rest
  | false, line :: rest =>
    if line = [] ∨ isClause line then skipPreamble false rest
    else if ['/', '*'] <+: line then
      if commentEnd <:+: line then [] else skipPreamble true rest
    else line :: rest

/-- The name of the enumeration that a line begins. -/
def readHeader? (line : List Char) : Option String := do
  let text ← line.dropPrefix? "public enum ".toList
  let (name, text) ← readIdentifier? text
  if text = " \x7b".toList then some name else none

/-- The constant in a line, and whether a comma follows it. -/
def readConstant? (deprecated : Bool) (line : List Char) : Option (EnumConstant × Bool) := do
  let (identifier, text) ← readIdentifier? (unindented line)
  let text ← text.dropPrefix? ['(']
  let (id, text) ← readLiteral? text
  let text ← text.dropPrefix? [',', ' ']
  let (name, text) ← readLiteral? text
  let constant := ⟨deprecated, identifier, String.ofList id, String.ofList name⟩
  if text = [')'] then some (constant, false)
  else if text = [')', ','] then some (constant, true)
  else none

/-- The constants that lines begin with, up to the first that no comma follows, and the lines after
them. A constant is deprecated if the line before it says so. -/
def readConstants? (deprecated : Bool) :
    List (List Char) → Option (List EnumConstant × List (List Char))
  | [] => none
  | line :: rest =>
    if unindented line = "@Deprecated".toList then
      if deprecated then none else readConstants? true rest
    else do
      let (constant, comma) ← readConstant? deprecated line
      if comma then
        let (others, after) ← readConstants? false rest
        return (constant :: others, after)
      else return ([constant], rest)

/-- How the line of a logical name begins. -/
def logicalNameField : String := "public static final String LOGICAL_NAME = "

/-- The logical name that a line declares: a literal, or `null` for none. -/
def readLogicalName? (line : List Char) : Option (Option String) := do
  let text ← (unindented line).dropPrefix? logicalNameField.toList
  if text = "null;".toList then some none
  else
    let (name, text) ← readLiteral? text
    if text = [';'] then some (some (String.ofList name)) else none

/-- The logical name after the line with the semicolon that ends the constants. -/
def readEnd? : List (List Char) → Option (Option String)
  | semicolon :: blank :: line :: _ =>
    if unindented semicolon = [';'] ∧ blank = [] then readLogicalName? line else none
  | _ => none

/-- The enumeration that a source declares. -/
def readEnumeration? (source : String) : Option Enumeration :=
  match skipPreamble false (plainLines source) with
  | [] => none
  | header :: lines => do
    let identifier ← readHeader? header
    let (constants, lines) ← readConstants? false lines
    let logicalName ← readEnd? lines
    return ⟨identifier, constants, logicalName⟩

/-! ## Plain lines -/

/-- Texts that can stand anywhere in a plain line. -/
def IsQuiet (text : List Char) : Prop := '\n' ∉ text ∧ '\r' ∉ text ∧ '\\' ∉ text

instance (text : List Char) : Decidable (IsQuiet text) :=
  inferInstanceAs (Decidable (_ ∧ _ ∧ _))

/-- A line that is plain and has no line feed. -/
structure IsPlain (line : List Char) : Prop where
  feed : '\n' ∉ line
  plain : isPlain line = true

/-- Only after a backslash an escape can begin. -/
theorem hasUnicodeEscape_cons {c : Char} (h : c ≠ '\\') (rest : List Char) :
    hasUnicodeEscape (c :: rest) = hasUnicodeEscape rest := by
  rw [hasUnicodeEscape]
  exact fun _ _ heq _ => h heq

/-- A text without backslashes has no escape, and none that goes on behind it. -/
theorem hasUnicodeEscape_append {text : List Char} (h : '\\' ∉ text) (rest : List Char) :
    hasUnicodeEscape (text ++ rest) = hasUnicodeEscape rest := by
  induction text with
  | nil => rfl
  | cons c text ih =>
    simp only [List.mem_cons, not_or] at h
    rw [List.cons_append, hasUnicodeEscape_cons (Ne.symm h.1), ih h.2]

/-- A text that is escaped has no Unicode escape: each backslash in it stands before another escape
or is doubled. -/
theorem hasUnicodeEscape_flatMap_escapeChar (text rest : List Char) :
    hasUnicodeEscape (text.flatMap escapeChar ++ rest) = hasUnicodeEscape rest := by
  induction text with
  | nil => rfl
  | cons c text ih =>
    rw [List.flatMap_cons, List.append_assoc]
    rcases escapeChar_cases c with ⟨d, hc, hd⟩ | ⟨hc, hbackslash, -⟩
    · -- no escape is a backslash and a `u`
      have hu : (d == 'u') = false := by
        rw [beq_eq_false_iff_ne]
        rintro rfl
        cases hd
      rw [hc, List.cons_append, List.cons_append, List.nil_append, hasUnicodeEscape, hu, ih]
      rfl
    · rw [hc, List.singleton_append, hasUnicodeEscape_cons hbackslash, ih]

theorem isPlain_nil : IsPlain [] := ⟨by simp, rfl⟩

/-- What goes before a plain line has to have no line break and to leave its escapes as they are. -/
theorem IsPlain.append {text line : List Char} (h : IsPlain line) (hfeed : '\n' ∉ text)
    (hreturn : '\r' ∉ text)
    (hescape : hasUnicodeEscape (text ++ line) = hasUnicodeEscape line) :
    IsPlain (text ++ line) := by
  have hplain := h.plain
  refine ⟨List.not_mem_append hfeed h.feed, ?_⟩
  unfold isPlain at hplain ⊢
  simp only [Bool.and_eq_true, Bool.not_eq_true', List.contains_eq_mem, decide_eq_false_iff_not]
    at hplain ⊢
  exact ⟨List.not_mem_append hreturn hplain.1, hescape.trans hplain.2⟩

/-- A line stays plain when a quiet text is put before it. -/
theorem IsPlain.append_quiet {text line : List Char} (h : IsPlain line) (htext : IsQuiet text) :
    IsPlain (text ++ line) := by
  obtain ⟨hfeed, hreturn, hbackslash⟩ := htext
  exact h.append hfeed hreturn (hasUnicodeEscape_append hbackslash line)

/-- So it does with the body of a literal. -/
theorem IsPlain.append_literalBody {line : List Char} (h : IsPlain line) (text : String) :
    IsPlain ((literalBody text).toList ++ line) := by
  obtain ⟨hfeed, hreturn⟩ := (isLiteralBody_literalBody text).lines
  refine h.append hfeed hreturn ?_
  rw [literalBody, String.toList_ofList]
  exact hasUnicodeEscape_flatMap_escapeChar text.toList line

theorem isPlain_of_isQuiet {text : List Char} (h : IsQuiet text) : IsPlain text := by
  simpa using isPlain_nil.append_quiet h

/-- The plain lines that a source begins with are read as they were written. -/
theorem plainLines_lineText {ls : List String} (h : ∀ l ∈ ls, IsPlain l.toList) (rest : String) :
    ∃ others, plainLines (lineText ls ++ rest) = ls.map String.toList ++ others := by
  refine ⟨plainLines rest, ?_⟩
  induction ls with
  | nil => simp [lineText]
  | cons l ls ih =>
    obtain ⟨hl, hls⟩ := List.forall_mem_cons.mp h
    have hsplit : (lineText (l :: ls) ++ rest).toList
        = l.toList ++ '\n' :: (lineText ls ++ rest).toList := by
      simp [lineText]
    unfold plainLines
    rw [hsplit, List.splitOn_append_cons_self, List.splitOn_eq_singleton hl.feed]
    rw [List.singleton_append, List.takeWhile_cons_of_pos hl.plain]
    exact congrArg _ (ih hls)

/-! ## Parts of lines -/

theorem dropPrefix?_append (mark rest : List Char) : (mark ++ rest).dropPrefix? mark = some rest :=
  List.dropPrefix?_append_of_beq rest (beq_self_eq_true mark)

/-- Blanks are taken off a line up to the first other character. -/
theorem unindented_append {indent text : List Char} (hindent : ∀ c ∈ indent, c = ' ')
    (htext : text.head? ≠ some ' ') : unindented (indent ++ text) = text := by
  unfold unindented
  rw [List.dropWhile_append_of_pos (by simpa using hindent)]
  cases text with
  | nil => rfl
  | cons c rest => rw [List.dropWhile_cons_of_neg (by simpa using htext)]

/-- What can name a class or a constant is read up to the next character that cannot stand in it. -/
theorem readIdentifier?_append {word : List Char} (h : Settings.isPackageSegment word = true)
    {c : Char} (hc : isWordChar c = false) (rest : List Char) :
    readIdentifier? (word ++ c :: rest) = some (String.ofList word, c :: rest) := by
  have hword := (Settings.isPackageSegment_iff.mp h).2.1
  have htake : (word ++ c :: rest).takeWhile isWordChar = word := by
    rw [List.takeWhile_append_of_pos hword, List.takeWhile_cons_of_neg (by simp [hc]),
      List.append_nil]
  have hdrop : (word ++ c :: rest).dropWhile isWordChar = c :: rest := by
    rw [List.dropWhile_append_of_pos hword, List.dropWhile_cons_of_neg (by simp [hc])]
  unfold readIdentifier?
  rw [htake, hdrop, if_pos h]

/-- A literal is read up to its quote, unless it might begin a text of several lines. -/
theorem readLiteral?_literalBody (text : String) {rest : List Char} (h : rest.head? ≠ some '"') :
    readLiteral? ('"' :: ((literalBody text).toList ++ '"' :: rest)) = some (text.toList, rest) :=
  (isLiteralBody_literalBody text).reads rest fun _ => h

/-- Identifiers and the names of packages are quiet. -/
theorem isQuiet_of_isWordChar {text : List Char} (h : ∀ c ∈ text, isWordChar c ∨ c = '.') :
    IsQuiet text := by
  have hnot : ∀ c, ¬(isWordChar c = true ∨ c = '.') → c ∉ text := fun c hc hmem => hc (h c hmem)
  exact ⟨hnot _ (by decide), hnot _ (by decide), hnot _ (by decide)⟩

/-- A text between two that are quiet makes a plain line. -/
theorem isPlain_between {before value after : String} (hbefore : IsQuiet before.toList)
    (hvalue : ∀ c ∈ value.toList, isWordChar c ∨ c = '.') (hafter : IsQuiet after.toList) :
    IsPlain (before ++ value ++ after).toList := by
  rw [String.toList_append, String.toList_append, List.append_assoc]
  have hend := (isPlain_of_isQuiet hafter).append_quiet (isQuiet_of_isWordChar hvalue)
  exact hend.append_quiet hbefore

theorem isQuiet_of_isPackageSegment {text : List Char} (h : Settings.isPackageSegment text = true) :
    IsQuiet text :=
  isQuiet_of_isWordChar fun c hc => .inl ((Settings.isPackageSegment_iff.mp h).2.1 c hc)

/-- An identifier does not begin with a blank. -/
theorem head?_ne_blank {word : List Char} (h : Settings.isPackageSegment word = true)
    (rest : List Char) : (word ++ rest).head? ≠ some ' ' := by
  obtain ⟨hne, hword, -⟩ := Settings.isPackageSegment_iff.mp h
  obtain ⟨c, others, rfl⟩ := List.exists_cons_of_ne_nil hne
  rintro heq
  obtain rfl : c = ' ' := Option.some.inj heq
  exact absurd (hword ' ' (List.mem_cons_self ..)) (by decide)

/-! ## Constants -/

namespace EnumConstant

/-- The line of a constant. -/
def text (c : EnumConstant) (last : Bool) : String :=
  "    " ++ c.identifier ++ "(\"" ++ literalBody c.id ++ "\", \"" ++ literalBody c.name ++ "\")"
    ++ (if last then "" else ",")

/-- The lines of a constant. -/
def lines (c : EnumConstant) (last : Bool) : List String :=
  (if c.deprecated then ["    @Deprecated"] else []) ++ [c.text last]

variable {c : EnumConstant}

/-- A constant as it stands in its line, part by part. -/
theorem toList_text (c : EnumConstant) (last : Bool) :
    (c.text last).toList = [' ', ' ', ' ', ' '] ++ (c.identifier.toList ++ '(' :: '"'
      :: ((literalBody c.id).toList ++ '"' :: ',' :: ' ' :: '"' :: ((literalBody c.name).toList
        ++ '"' :: ')' :: if last then [] else [',']))) := by
  unfold text
  cases last <;> simp

theorem isPlain_text (h : Settings.isPackageSegment c.identifier.toList = true) (last : Bool) :
    IsPlain (c.text last).toList := by
  have hend : IsPlain ('"' :: ')' :: if last then [] else [',']) :=
    isPlain_of_isQuiet (by cases last <;> decide)
  have hcomma : IsQuiet ['"', ',', ' ', '"'] := by decide
  have hopen : IsQuiet ['(', '"'] := by decide
  have hname := (hend.append_literalBody c.name).append_quiet hcomma
  have hid := (hname.append_literalBody c.id).append_quiet hopen
  have hindent : IsQuiet [' ', ' ', ' ', ' '] := by decide
  have hline := (hid.append_quiet (isQuiet_of_isPackageSegment h)).append_quiet hindent
  rw [toList_text]
  simpa only [List.cons_append, List.nil_append] using hline

theorem isPlain_lines (h : Settings.isPackageSegment c.identifier.toList = true) (last : Bool) :
    ∀ l ∈ c.lines last, IsPlain l.toList := by
  unfold lines
  rw [List.forall_mem_append, List.forall_mem_singleton]
  refine ⟨?_, isPlain_text h last⟩
  split
  next => exact List.forall_mem_singleton.mpr (isPlain_of_isQuiet (by decide))
  next => nofun

/-- What is left of a line when the blanks before it are gone. -/
theorem unindented_text (h : Settings.isPackageSegment c.identifier.toList = true) (last : Bool) :
    unindented (c.text last).toList = c.identifier.toList ++ '(' :: '"'
      :: ((literalBody c.id).toList ++ '"' :: ',' :: ' ' :: '"' :: ((literalBody c.name).toList
        ++ '"' :: ')' :: if last then [] else [','])) := by
  rw [toList_text]
  exact unindented_append (by simp) (head?_ne_blank h _)

/-- A constant is read back from its line. -/
theorem readConstant?_text (h : Settings.isPackageSegment c.identifier.toList = true) (last : Bool) :
    readConstant? c.deprecated (c.text last).toList = some (c, !last) := by
  have hopen : ∀ rest, ('(' :: rest).dropPrefix? ['('] = some rest := dropPrefix?_append ['(']
  have hcomma : ∀ rest, (',' :: ' ' :: rest).dropPrefix? [',', ' '] = some rest :=
    dropPrefix?_append [',', ' ']
  have hid : ∀ rest, readLiteral? ('"' :: ((literalBody c.id).toList ++ '"' :: ',' :: rest))
      = some (c.id.toList, ',' :: rest) := fun rest => readLiteral?_literalBody c.id (by simp)
  have hname : ∀ rest, readLiteral? ('"' :: ((literalBody c.name).toList ++ '"' :: ')' :: rest))
      = some (c.name.toList, ')' :: rest) := fun rest => readLiteral?_literalBody c.name (by simp)
  unfold readConstant?
  rw [unindented_text h, readIdentifier?_append h (by decide)]
  simp only [Option.bind_eq_bind, Option.bind_some, hopen, hcomma, hid, hname, String.ofList_toList]
  cases last <;> rfl

/-- The line of a constant is not taken for the one that says it is deprecated. -/
theorem unindented_text_ne (h : Settings.isPackageSegment c.identifier.toList = true) (last : Bool) :
    unindented (c.text last).toList ≠ "@Deprecated".toList := by
  obtain ⟨hne, hword, -⟩ := Settings.isPackageSegment_iff.mp h
  obtain ⟨d, others, hd⟩ := List.exists_cons_of_ne_nil hne
  rw [unindented_text h, hd]
  intro heq
  obtain rfl : d = '@' := (List.cons.inj heq).1
  exact absurd (hword '@' (hd ▸ List.mem_cons_self ..)) (by decide)

/-- So are all, up to the one that is said to be the last. -/
theorem readConstants?_text (h : Settings.isPackageSegment c.identifier.toList = true) (last : Bool)
    (rest : List (List Char)) :
    readConstants? c.deprecated ((c.text last).toList :: rest)
      = if last then some ([c], rest)
        else (readConstants? false rest).map fun r => (c :: r.1, r.2) := by
  rw [readConstants?, if_neg (unindented_text_ne h last), readConstant?_text h last]
  cases last with
  | true => rfl
  | false => cases readConstants? false rest <;> rfl

/-- A constant is read with the line before it that says it is deprecated. -/
theorem readConstants?_lines_append (h : Settings.isPackageSegment c.identifier.toList = true)
    (last : Bool) (rest : List (List Char)) :
    readConstants? false ((c.lines last).map String.toList ++ rest)
      = if last then some ([c], rest)
        else (readConstants? false rest).map fun r => (c :: r.1, r.2) := by
  rw [← readConstants?_text h last rest, lines]
  cases hdeprecated : c.deprecated with
  | false => rfl
  | true =>
    have hmark : unindented "    @Deprecated".toList = "@Deprecated".toList := by decide
    show readConstants? false ("    @Deprecated".toList :: (c.text last).toList :: rest) = _
    rw [readConstants?, if_pos hmark]
    rfl

end EnumConstant

/-- All constants are read, in their order. -/
theorem readConstants?_lines {constants : List EnumConstant} (hne : constants ≠ [])
    (h : ∀ c ∈ constants, Settings.isPackageSegment c.identifier.toList = true)
    (rest : List (List Char)) :
    readConstants? false ((flatMapLast EnumConstant.lines constants).map String.toList ++ rest)
      = some (constants, rest) := by
  induction constants with
  | nil => exact absurd rfl hne
  | cons c others ih =>
    obtain ⟨hc, hothers⟩ := List.forall_mem_cons.mp h
    cases others with
    | nil => exact EnumConstant.readConstants?_lines_append hc true rest
    | cons d others =>
      have hread := EnumConstant.readConstants?_lines_append hc false
        ((flatMapLast EnumConstant.lines (d :: others)).map String.toList ++ rest)
      rw [ih (List.cons_ne_nil _ _) hothers] at hread
      rw [flatMapLast, List.map_append, List.append_assoc]
      exact hread

/-! ## The logical name -/

/-- What a logical name is set to. -/
def initializer : Option String → String
  | none => "null"
  | some name => "\"" ++ literalBody name ++ "\""

/-- The line that declares a logical name, or none. -/
def logicalNameText (name : Option String) : String :=
  "    " ++ logicalNameField ++ initializer name ++ ";"

/-- The line that holds the logical name of a list, part by part. -/
theorem toList_logicalNameText (name : Option String) :
    (logicalNameText name).toList = [' ', ' ', ' ', ' ']
      ++ (logicalNameField.toList ++ ((initializer name).toList ++ [';'])) := by
  simp [logicalNameText]

theorem unindented_logicalNameText (name : Option String) :
    unindented (logicalNameText name).toList
      = logicalNameField.toList ++ ((initializer name).toList ++ [';']) := by
  have hhead : logicalNameField.toList.head? = some 'p' := by decide
  rw [toList_logicalNameText]
  refine unindented_append (by simp) ?_
  rw [List.head?_append, hhead]
  simp

theorem isPlain_logicalNameText (name : Option String) : IsPlain (logicalNameText name).toList := by
  have hindent : IsQuiet [' ', ' ', ' ', ' '] := by decide
  have hfront : IsQuiet logicalNameField.toList := by decide
  have hinitializer : IsPlain ((initializer name).toList ++ [';']) := by
    cases name with
    | none => exact isPlain_of_isQuiet (by decide)
    | some name =>
      have hquote : IsQuiet ['"'] := by decide
      have hend : IsPlain ['"', ';'] := isPlain_of_isQuiet (by decide)
      simpa [initializer] using (hend.append_literalBody name).append_quiet hquote
  rw [toList_logicalNameText]
  exact (hinitializer.append_quiet hfront).append_quiet hindent

/-- The logical name is read back, and that there is none. -/
theorem readLogicalName?_text (name : Option String) :
    readLogicalName? (logicalNameText name).toList = some name := by
  unfold readLogicalName?
  rw [unindented_logicalNameText, dropPrefix?_append, Option.bind_eq_bind, Option.bind_some]
  cases name with
  | none => decide
  | some name =>
    have hliteral : readLiteral? ((initializer (some name)).toList ++ [';'])
        = some (name.toList, [';']) := by
      have hread := readLiteral?_literalBody name (show [';'].head? ≠ some '"' by decide)
      simpa [initializer] using hread
    -- a literal is not read where there is none
    have hnull : (initializer (some name)).toList ++ [';'] ≠ "null;".toList := by
      intro heq
      rw [heq] at hliteral
      cases hliteral
    rw [if_neg hnull, hliteral]
    simp

/-! ## The lines before the constants -/

variable {line : List Char} {rest : List (List Char)}

/-- A clause before the enumeration is passed over. -/
theorem skipPreamble_clause (h : isClause line = true) :
    skipPreamble false (line :: rest) = skipPreamble false rest := by
  rw [skipPreamble, if_pos (.inr h)]

theorem skipPreamble_empty : skipPreamble false ([] :: rest) = skipPreamble false rest := by
  rw [skipPreamble, if_pos (.inl rfl)]

/-- A line that begins a comment. -/
theorem skipPreamble_opening (hclause : ¬(line = [] ∨ isClause line = true))
    (hopening : ['/', '*'] <+: line) (hend : ¬commentEnd <:+: line) :
    skipPreamble false (line :: rest) = skipPreamble true rest := by
  rw [skipPreamble, if_neg hclause, if_pos hopening, if_neg hend]

/-- A line that ends a comment. -/
theorem skipPreamble_closing (hend : commentEnd <:+: line)
    (hclosing : unindented line = commentEnd) :
    skipPreamble true (line :: rest) = skipPreamble false rest := by
  rw [skipPreamble, if_pos hend, if_pos hclosing]

/-- A line of a comment that does not end it. -/
theorem skipPreamble_inside (h : ¬commentEnd <:+: line) :
    skipPreamble true (line :: rest) = skipPreamble true rest := by
  rw [skipPreamble, if_neg h]

/-- The header of an enumeration. -/
def headerText (identifier : String) : String := "public enum " ++ identifier ++ " \x7b"

/-- The line that opens the enumeration, part by part. -/
theorem toList_headerText (identifier : String) :
    (headerText identifier).toList
      = "public enum ".toList ++ (identifier.toList ++ ' ' :: ['\x7b']) := by
  simp [headerText]

theorem isPlain_headerText {identifier : String}
    (h : Settings.isPackageSegment identifier.toList = true) :
    IsPlain (headerText identifier).toList := by
  have hend : IsPlain (' ' :: ['\x7b']) := isPlain_of_isQuiet (by decide)
  have hfront : IsQuiet "public enum ".toList := by decide
  rw [toList_headerText]
  exact (hend.append_quiet (isQuiet_of_isPackageSegment h)).append_quiet hfront

/-- The identifier is read back from it. -/
theorem readHeader?_text {identifier : String}
    (h : Settings.isPackageSegment identifier.toList = true) :
    readHeader? (headerText identifier).toList = some identifier := by
  unfold readHeader?
  rw [toList_headerText, dropPrefix?_append, Option.bind_eq_bind, Option.bind_some,
    readIdentifier?_append h (by decide)]
  simp

/-- A header is no line to be skipped. -/
theorem skipPreamble_header (identifier : String) :
    skipPreamble false ((headerText identifier).toList :: rest)
      = (headerText identifier).toList :: rest := by
  have hclause : ¬((headerText identifier).toList = []
      ∨ isClause (headerText identifier).toList = true) := by
    rw [toList_headerText]
    rintro (heq | hclause)
    · cases heq
    · cases hclause
  have hcomment : ¬['/', '*'] <+: (headerText identifier).toList := by
    rw [toList_headerText]
    rintro ⟨back, heq⟩
    cases heq
  rw [skipPreamble, if_neg hclause, if_neg hcomment]

/-! ## Whole enumerations -/

namespace Enumeration

/-- The lines of an enumeration up to its logical name. -/
def lines (e : Enumeration) : List String :=
  headerText e.identifier :: (flatMapLast EnumConstant.lines e.constants
    ++ ["    ;", "", logicalNameText e.logicalName])

/-- An enumeration with constants, whose identifiers can name something. -/
structure IsLegal (e : Enumeration) : Prop where
  identifier : Settings.isPackageSegment e.identifier.toList = true
  nonempty : e.constants ≠ []
  constants : ∀ c ∈ e.constants, Settings.isPackageSegment c.identifier.toList = true

variable {e : Enumeration}

theorem isPlain_lines (h : e.IsLegal) : ∀ l ∈ e.lines, IsPlain l.toList := by
  unfold lines
  rw [List.forall_mem_cons, List.forall_mem_append]
  refine ⟨isPlain_headerText h.identifier, fun l hl => ?_, fun l hl => ?_⟩
  · obtain ⟨c, hc, last, hl⟩ := mem_of_mem_flatMapLast hl
    exact EnumConstant.isPlain_lines (h.constants c hc) last l hl
  · simp only [List.mem_cons, List.not_mem_nil, or_false] at hl
    rcases hl with rfl | rfl | rfl
    · exact isPlain_of_isQuiet (by decide)
    · exact isPlain_of_isQuiet (by decide)
    · exact isPlain_logicalNameText e.logicalName

/-- **An enumeration is read back** from its lines, whatever comes after them. -/
theorem readEnumeration?_lineText (h : e.IsLegal) {preamble : List String}
    (hplain : ∀ l ∈ preamble, IsPlain l.toList)
    (hskip : ∀ rest,
      skipPreamble false (preamble.map String.toList ++ rest) = skipPreamble false rest)
    (rest : String) : readEnumeration? (lineText (preamble ++ e.lines) ++ rest) = some e := by
  obtain ⟨others, hlines⟩ :=
    plainLines_lineText (List.forall_mem_append.mpr ⟨hplain, isPlain_lines h⟩) rest
  have hconstants := readConstants?_lines h.nonempty h.constants
    (["    ;", "", logicalNameText e.logicalName].map String.toList ++ others)
  have hsemicolon : unindented "    ;".toList = [';'] ∧ "".toList = [] := by decide
  -- behind the constants there are a semicolon, an empty line and the logical name
  have hend : readEnd? (["    ;", "", logicalNameText e.logicalName].map String.toList ++ others)
      = some e.logicalName := by
    show readEnd? ("    ;".toList :: "".toList :: (logicalNameText e.logicalName).toList :: others)
      = _
    rw [readEnd?, if_pos hsemicolon, readLogicalName?_text]
  have hsplit : plainLines (lineText (preamble ++ e.lines) ++ rest)
      = preamble.map String.toList ++ ((headerText e.identifier).toList
        :: ((flatMapLast EnumConstant.lines e.constants).map String.toList
          ++ (["    ;", "", logicalNameText e.logicalName].map String.toList ++ others))) := by
    rw [hlines, lines]
    simp only [List.map_append, List.map_cons, List.append_assoc, List.cons_append]
  unfold readEnumeration?
  rw [hsplit, hskip, skipPreamble_header]
  simp only [readHeader?_text h.identifier, hconstants, hend, Option.bind_eq_bind, Option.bind_some]
  rfl

end Enumeration

end TypedEntities.Java
