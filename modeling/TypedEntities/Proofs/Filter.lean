import Mathlib
import TypedEntities.Filter
import TypedEntities.Proofs.Json.Parser

/-!
# What a filter says is what its text says

`Filter.parse?` reads the text of a filter and gives back every filter that is built from comparisons
and `Filter.and` (`Filter.unambiguous`). Two built filters are therefore written differently, and
whatever stands in a text value stays in it: no apostrophe, backslash, semicolon or brace of it is
taken for a part of the filter.

What makes a filter readable is its form (`Filter.Normal`). Conditions that are joined are two or
more, and none of them joins others, so that a semicolon separates what it seems to separate. An
escape leaves no apostrophe to end a text value early, and a field name without blanks ends where the
comparison begins.
-/

namespace TypedEntities

namespace Filter

/-! ## Reading -/

/-- A text value behind its first apostrophe: the value, and what follows it. -/
def readText : List Char → Option (List Char × List Char)
  | [] => none
  | '\'' :: rest => some ([], rest)
  | '\\' :: c :: rest => (readText rest).map fun (cs, rest) => (c :: cs, rest)
  | c :: rest => (readText rest).map fun (cs, rest) => (c :: cs, rest)

/-- A number behind its sign. -/
def readNumber (sign : Int) (text : List Char) : Option (FilterValue × List Char) :=
  match text.takeWhile Char.isDigit with
  | [] => none
  | digits =>
    some (.number (sign * Nat.ofDigitChars 10 digits 0), text.dropWhile Char.isDigit)

/-- A value that is no condition. -/
def readPlain : List Char → Option (FilterValue × List Char)
  | 'n' :: 'u' :: 'l' :: 'l' :: rest => some (.null, rest)
  | '\'' :: rest => (readText rest).map fun (cs, rest) => (.text (String.ofList cs), rest)
  | '-' :: rest => readNumber (-1) rest
  | rest => readNumber 1 rest

/-- How a field is compared. -/
def readComparison : List Char → Option ((String → FilterValue → Filter) × List Char)
  | ' ' :: 'E' :: 'Q' :: ' ' :: rest => some (.equal, rest)
  | ' ' :: 'L' :: 'T' :: ' ' :: rest => some (.less, rest)
  | _ => none

/-- Several conditions that all hold, or a single one. -/
def join : List Filter → Filter
  | [f] => f
  | parts => .all parts

/-- A value, where `nested` reads the conditions in braces. -/
def readValue (nested : List Char → Option (List Filter × List Char)) :
    List Char → Option (FilterValue × List Char)
  | '{' :: rest => do
    match ← nested rest with
    | (parts, '}' :: rest) => some (.nested (join parts), rest)
    | _ => none
  | rest => readPlain rest

/-- A first condition, and the others where a semicolon follows it. -/
def readMore (others : List Char → Option (List Filter × List Char)) (first : Filter) :
    List Char → Option (List Filter × List Char)
  | ';' :: rest => (others rest).map fun (parts, rest) => (first :: parts, rest)
  | rest => some ([first], rest)

/-- Conditions with semicolons between, and what follows them. Each takes at least a character, so
the length of the text bounds the recursion. -/
def readParts : (most : Nat) → List Char → Option (List Filter × List Char)
  | 0, _ => none
  | most + 1, text => do
    let (compare, rest) ← readComparison (text.dropWhile (· ≠ ' '))
    let (value, rest) ← readValue (readParts most) rest
    readMore (readParts most) (compare (String.ofList (text.takeWhile (· ≠ ' '))) value) rest

/-- The filter that a text stands for. -/
def parse? (s : String) : Option Filter :=
  match readParts (s.toList.length + 1) s.toList with
  | some (parts, []) => some (join parts)
  | _ => none

/-! ## Built filters -/

variable {f g : Filter}

/-- A name that can stand before a comparison. -/
def IsField (field : String) : Prop := ' ' ∉ field.toList

/-- Words are such names. -/
theorem isField_of_word {field : String}
    (h : field.toList.all fun c => c.isAlphanum || c == '_') : IsField field := by
  intro hmem
  exact absurd (List.all_eq_true.mp h _ hmem) (by decide)

/-- Filters that are put together from comparisons and conjunctions. -/
inductive Built : Filter → Prop
  | equal {field : String} {value : FilterValue} (hfield : IsField field)
      (hvalue : ∀ g, value = .nested g → Built g) : Built (.equal field value)
  | less {field : String} {value : FilterValue} (hfield : IsField field)
      (hvalue : ∀ g, value = .nested g → Built g) : Built (.less field value)
  | isNull {field : String} (hfield : IsField field) : Built (isNull field)
  | refers {field : String} {g : Filter} (hfield : IsField field) (hg : Built g) :
      Built (refers field g)
  | and {f g : Filter} (hf : Built f) (hg : Built g) : Built (f.and g)

/-- One filter stands in another, at any depth. -/
inductive Inside (f : Filter) : Filter → Prop
  | refl : Inside f f
  | equal {field : String} {g : Filter} (h : Inside f g) : Inside f (.equal field (.nested g))
  | less {field : String} {g : Filter} (h : Inside f g) : Inside f (.less field (.nested g))
  | part {parts : List Filter} {g : Filter} (hg : g ∈ parts) (h : Inside f g) : Inside f (.all parts)

/-- Conjunctions have two parts or more, and none of them is a conjunction. -/
inductive Normal : Filter → Prop
  | equal {field : String} {value : FilterValue} (hfield : IsField field)
      (hvalue : ∀ g, value = .nested g → Normal g) : Normal (.equal field value)
  | less {field : String} {value : FilterValue} (hfield : IsField field)
      (hvalue : ∀ g, value = .nested g → Normal g) : Normal (.less field value)
  | all {parts : List Filter} (hlength : 2 ≤ parts.length)
      (hsingle : ∀ p ∈ parts, p.isAll = false) (hparts : ∀ p ∈ parts, Normal p) :
      Normal (.all parts)

/-- The parts of a filter in normal form are one or more, single and in normal form. -/
theorem Normal.parts_normal (h : Normal f) :
    f.parts ≠ [] ∧ (∀ p ∈ f.parts, p.isAll = false) ∧ ∀ p ∈ f.parts, Normal p := by
  cases h with
  | all hlength hsingle hparts =>
    exact ⟨List.ne_nil_of_length_pos (Nat.zero_lt_of_lt hlength), hsingle, hparts⟩
  | equal hfield hvalue =>
    exact ⟨List.cons_ne_nil _ _, by simp [Filter.parts, isAll],
      by simpa [Filter.parts] using .equal hfield hvalue⟩
  | less hfield hvalue =>
    exact ⟨List.cons_ne_nil _ _, by simp [Filter.parts, isAll],
      by simpa [Filter.parts] using .less hfield hvalue⟩

theorem Normal.and (hf : Normal f) (hg : Normal g) : Normal (f.and g) := by
  obtain ⟨hfne, hfsingle, hfparts⟩ := hf.parts_normal
  obtain ⟨hgne, hgsingle, hgparts⟩ := hg.parts_normal
  refine .all ?_ ?_ ?_
  · have := List.length_pos_iff.mpr hfne
    have := List.length_pos_iff.mpr hgne
    rw [List.length_append]
    omega
  · exact fun p hp => (List.mem_append.mp hp).elim (hfsingle p) (hgsingle p)
  · exact fun p hp => (List.mem_append.mp hp).elim (hfparts p) (hgparts p)

/-- Building keeps the normal form. -/
theorem Built.normal (h : Built f) : Normal f := by
  induction h with
  | equal hfield _ ih => exact .equal hfield ih
  | less hfield _ ih => exact .less hfield ih
  | isNull hfield => exact .equal hfield nofun
  | refers hfield _ ih =>
    refine .equal hfield fun g hg => ?_
    cases hg
    exact ih
  | and _ _ ihf ihg => exact ihf.and ihg

/-- What stands in a normal form is in normal form. -/
theorem Normal.of_inside (h : Normal f) (hg : Inside g f) : Normal g := by
  induction hg with
  | refl => exact h
  | equal _ ih =>
    cases h with
    | equal _ hvalue => exact ih (hvalue _ rfl)
  | less _ ih =>
    cases h with
    | less _ hvalue => exact ih (hvalue _ rfl)
  | part hmem _ ih =>
    cases h with
    | all _ _ hparts => exact ih (hparts _ hmem)

/-- Joining the parts of a normal form gives it back. -/
theorem Normal.join_parts (h : Normal f) : join f.parts = f := by
  cases h with
  | equal | less => rfl
  | @all parts hlength =>
    match parts, hlength with
    | _ :: _ :: _, _ => rfl

/-! ## The text of parts -/

theorem joinedChars_cons {parts : List Filter} (h : parts ≠ []) :
    joinedChars (f :: parts) = f.chars ++ ';' :: joinedChars parts := by
  cases parts with
  | nil => exact absurd rfl h
  | cons g parts => rw [joinedChars]

theorem joinedChars_parts (f : Filter) : joinedChars f.parts = f.chars := by
  cases f with
  | equal | less => exact joinedChars.eq_2 _
  | all parts => exact (chars.eq_3 parts).symm

/-! ## Reading what is written -/

/-- What may follow a value. -/
inductive Stops : List Char → Prop
  | nil : Stops []
  | semicolon (rest : List Char) : Stops (';' :: rest)
  | brace (rest : List Char) : Stops ('}' :: rest)

/-- What may follow conditions. -/
inductive Ends : List Char → Prop
  | nil : Ends []
  | brace (rest : List Char) : Ends ('}' :: rest)

variable {rest : List Char}

theorem Ends.stops (h : Ends rest) : Stops rest := by
  cases h with
  | nil => exact .nil
  | brace rest => exact .brace rest

/-- A character is read back from how it is written. -/
theorem readText_escapeChar (c : Char) (rest : List Char) :
    readText (escapeChar c ++ rest) = (readText rest).map fun (cs, rest) => (c :: cs, rest) := by
  unfold escapeChar
  split
  next => rfl
  next => rfl
  next hslash hquote =>
    show readText (c :: rest) = _
    rw [readText]
    · exact hquote
    · intro d rest' hc
      exact absurd hc hslash

theorem readText_escape (cs rest : List Char) :
    readText (cs.flatMap escapeChar ++ '\'' :: rest) = some (cs, rest) := by
  induction cs with
  | nil => rfl
  | cons c cs ih =>
    rw [List.flatMap_cons, List.append_assoc, readText_escapeChar, ih]
    rfl

theorem readNumber_toDigits (sign : Int) (n : Nat) (h : Stops rest) :
    readNumber sign (Nat.toDigits 10 n ++ rest) = some (.number (sign * n), rest) := by
  have hdigits : ∀ c ∈ Nat.toDigits 10 n, c.isDigit = true :=
    fun c hc => Nat.isDigit_of_mem_toDigits (by decide) (by decide) hc
  have hstop : rest.takeWhile Char.isDigit = [] ∧ rest.dropWhile Char.isDigit = rest := by
    cases h <;> exact ⟨rfl, rfl⟩
  have hvalue : Nat.ofDigitChars 10 (Nat.toDigits 10 n) 0 = n :=
    Nat.ofDigitChars_toDigits (by decide) (by decide)
  obtain ⟨c, cs, hcs, -⟩ := Json.exists_head_toDigits n
  unfold readNumber
  rw [List.takeWhile_append_of_pos hdigits, List.dropWhile_append_of_pos hdigits, hstop.1, hstop.2,
    List.append_nil]
  rw [hcs] at hvalue ⊢
  simp only [hvalue]

/-- A number is read back: a sign leads it if it is negative, and no digit is taken for a sign, an
apostrophe or a letter. -/
theorem readPlain_number (n : Int) (h : Stops rest) :
    readPlain ((toString n).toList ++ rest) = some (.number n, rest) := by
  have htext : (toString n).toList
      = if n < 0 then '-' :: Nat.toDigits 10 n.natAbs else Nat.toDigits 10 n.natAbs :=
    Json.toList_text_integer n
  rw [htext]
  split
  next hneg =>
    show readNumber (-1) (Nat.toDigits 10 n.natAbs ++ rest) = _
    rw [readNumber_toDigits _ _ h, show (-1 : Int) * n.natAbs = n by omega]
  next hneg =>
    have hread := readNumber_toDigits 1 n.natAbs h
    rw [show (1 : Int) * n.natAbs = n by omega] at hread
    -- a number without a sign begins with a digit, which begins no other value
    obtain ⟨c, cs, hcs, hdigit⟩ := Json.exists_head_toDigits n.natAbs
    rw [hcs] at hread ⊢
    rw [List.cons_append, readPlain]
    · exact hread
    all_goals
      intro rest' heq
      obtain ⟨rfl, -⟩ := List.cons.inj heq
      exact absurd hdigit (by decide)

/-- A value is read back if the conditions in its braces are. -/
theorem readValue_chars {nested : List Char → Option (List Filter × List Char)}
    {value : FilterValue} (h : Stops rest)
    (hnested : ∀ g, value = .nested g
      → nested (g.chars ++ '}' :: rest) = some (g.parts, '}' :: rest) ∧ join g.parts = g) :
    readValue nested (value.chars ++ rest) = some (value, rest) := by
  cases value with
  | null => rfl
  | number n =>
    -- a number begins with a sign or a digit, so it is not taken for a condition
    obtain ⟨c, cs, hcs, hhead⟩ := Json.exists_head_text n
    have htext : (FilterValue.number n).chars = c :: cs := hcs
    have hread : readPlain ((FilterValue.number n).chars ++ rest) = some (.number n, rest) :=
      readPlain_number n h
    rw [htext] at hread ⊢
    rw [List.cons_append, readValue]
    · exact hread
    · intro rest' heq
      exact Json.ne_of_sign_or_digit hhead '{' (by decide) (by decide) (List.cons.inj heq).1
  | text s =>
    show (readText (s.toList.flatMap escapeChar ++ ['\''] ++ rest)).map _ = _
    rw [List.append_assoc, List.singleton_append, readText_escape]
    simp
  | nested g =>
    obtain ⟨hread, hjoin⟩ := hnested g rfl
    show (nested (g.chars ++ ['}'] ++ rest) >>= _) = _
    rw [List.append_assoc, List.singleton_append, hread]
    simp [hjoin]

/-- A single condition begins with a field, and how it is compared stands behind it. -/
theorem exists_comparison (h : Normal f) (hsingle : f.isAll = false) :
    ∃ compare field value, f = compare field value
      ∧ IsField field ∧ (∀ g, value = .nested g → Normal g)
      ∧ ∃ operator, f.chars = field.toList ++ ' ' :: operator ++ value.chars
        ∧ ∀ rest, readComparison (' ' :: operator ++ rest) = some (compare, rest) := by
  cases h with
  | all => cases hsingle
  | @equal field value hfield hvalue =>
    refine ⟨.equal, field, value, rfl, hfield, hvalue, "EQ ".toList, ?_, fun _ => rfl⟩
    rw [chars]
    rfl
  | @less field value hfield hvalue =>
    refine ⟨.less, field, value, rfl, hfield, hvalue, "LT ".toList, ?_, fun _ => rfl⟩
    rw [chars]
    rfl

theorem takeWhile_field {field : String} (h : IsField field) (rest : List Char) :
    (field.toList ++ ' ' :: rest).takeWhile (· ≠ ' ') = field.toList
      ∧ (field.toList ++ ' ' :: rest).dropWhile (· ≠ ' ') = ' ' :: rest := by
  have hplain : ∀ c ∈ field.toList, decide (c ≠ ' ') = true :=
    fun c hc => decide_eq_true fun heq => h (heq ▸ hc)
  rw [List.takeWhile_append_of_pos hplain, List.dropWhile_append_of_pos hplain]
  exact ⟨by simp, by simp⟩

/-- One condition is read back, and the conditions behind it if there are any. -/
theorem readParts_cons {most : Nat} {f : Filter} (hf : Normal f) (hsingle : f.isAll = false)
    (hstops : Stops rest)
    (hnested : ∀ g tail, Normal g → g.chars.length < f.chars.length
      → readParts most (g.chars ++ '}' :: tail) = some (g.parts, '}' :: tail)) :
    readParts (most + 1) (f.chars ++ rest) = readMore (readParts most) f rest := by
  obtain ⟨compare, field, value, rfl, hfield, hvalue, operator, hchars, hread⟩ :=
    exists_comparison hf hsingle
  -- a nested filter is shorter than the comparison that it is the value of
  have hvalueRead : readValue (readParts most) (value.chars ++ rest) = some (value, rest) := by
    refine readValue_chars hstops fun g hg =>
      ⟨hnested g rest (hvalue g hg) ?_, (hvalue g hg).join_parts⟩
    rw [hchars, hg, FilterValue.chars]
    simp
    omega
  obtain ⟨htake, hdrop⟩ := takeWhile_field hfield (operator ++ (value.chars ++ rest))
  have htext : (compare field value).chars ++ rest
      = field.toList ++ ' ' :: (operator ++ (value.chars ++ rest)) := by
    rw [hchars]
    simp
  have hcompare := hread (value.chars ++ rest)
  rw [List.cons_append] at hcompare
  simp only [readParts, htext, htake, hdrop, hcompare, hvalueRead, Option.bind_eq_bind,
    Option.bind_some, String.ofList_toList]

theorem readParts_joinedChars {most : Nat} {parts : List Filter} (hne : parts ≠ [])
    (hsingle : ∀ p ∈ parts, p.isAll = false) (hparts : ∀ p ∈ parts, Normal p) (hends : Ends rest)
    (hmost : (joinedChars parts).length < most) :
    readParts most (joinedChars parts ++ rest) = some (parts, rest) := by
  induction most generalizing parts rest with
  | zero => exact absurd hmost (Nat.not_lt_zero _)
  | succ most ih =>
    cases parts with
    | nil => exact absurd rfl hne
    | cons f tail =>
      have hf := hparts f (List.mem_cons_self ..)
      have hfsingle := hsingle f (List.mem_cons_self ..)
      -- a filter in braces is shorter than the part it stands in, which leaves fuel for it
      have hnested : f.chars.length ≤ most → ∀ g tail, Normal g → g.chars.length < f.chars.length
          → readParts most (g.chars ++ '}' :: tail) = some (g.parts, '}' :: tail) := by
        intro hf g tail hg hlength
        obtain ⟨hgne, hgsingle, hgparts⟩ := hg.parts_normal
        have hread := ih hgne hgsingle hgparts (.brace tail)
        rw [joinedChars_parts] at hread
        exact hread (by omega)
      by_cases htail : tail = []
      · subst htail
        rw [joinedChars] at hmost ⊢
        rw [readParts_cons hf hfsingle hends.stops (hnested (by omega))]
        cases hends <;> rfl
      · rw [joinedChars_cons htail] at hmost ⊢
        rw [List.length_append, List.length_cons] at hmost
        have hread := ih htail (fun p hp => hsingle p (List.mem_cons_of_mem _ hp))
          (fun p hp => hparts p (List.mem_cons_of_mem _ hp)) hends (by omega)
        rw [List.append_assoc, List.cons_append,
          readParts_cons hf hfsingle (.semicolon _) (hnested (by omega)), readMore, hread]
        rfl

/-- A filter in normal form is read back from its text. -/
theorem Normal.parse?_text (h : Normal f) : parse? f.text = some f := by
  obtain ⟨hne, hsingle, hparts⟩ := h.parts_normal
  have hread := readParts_joinedChars hne hsingle hparts .nil (Nat.lt_succ_self _)
  rw [joinedChars_parts, List.append_nil] at hread
  simp only [parse?, text, String.toList_ofList, hread, h.join_parts]

end Filter

/-! ## Other texts -/

mutual

/-- The condition with other texts for its text values. -/
def Filter.mapTexts (other : String → String) : Filter → Filter
  | .equal field value => .equal field (value.mapTexts other)
  | .less field value => .less field (value.mapTexts other)
  | .all parts => .all (Filter.mapTextsOfParts other parts)

/-- The value with another text if it is one, or with other texts in its condition. -/
def FilterValue.mapTexts (other : String → String) : FilterValue → FilterValue
  | .null => .null
  | .number n => .number n
  | .text s => .text (other s)
  | .nested f => .nested (f.mapTexts other)

/-- The conditions with other texts for their text values. -/
def Filter.mapTextsOfParts (other : String → String) : List Filter → List Filter
  | [] => []
  | f :: rest => f.mapTexts other :: Filter.mapTextsOfParts other rest

end

namespace Filter

variable {f : Filter} (other : String → String)

theorem mapTextsOfParts_append (l l' : List Filter) :
    mapTextsOfParts other (l ++ l') = mapTextsOfParts other l ++ mapTextsOfParts other l' := by
  induction l with
  | nil => rw [List.nil_append, mapTextsOfParts, List.nil_append]
  | cons f l ih =>
    rw [List.cons_append, mapTextsOfParts, ih, mapTextsOfParts, List.cons_append]

theorem parts_mapTexts (f : Filter) : (f.mapTexts other).parts = mapTextsOfParts other f.parts := by
  cases f with
  | equal | less => simp only [mapTexts, parts, mapTextsOfParts]
  | all parts => simp only [mapTexts, Filter.parts]

theorem mapTexts_and (f g : Filter) :
    (f.and g).mapTexts other = (f.mapTexts other).and (g.mapTexts other) := by
  rw [Filter.and, Filter.and, mapTexts, mapTextsOfParts_append, parts_mapTexts, parts_mapTexts]

/-- With other texts a filter is built as before. -/
theorem Built.mapTexts (h : Built f) : Built (f.mapTexts other) := by
  -- changing the texts of a value leaves its kind
  have hvalue : ∀ {value : FilterValue}, (∀ g, value = .nested g → Built (g.mapTexts other))
      → ∀ g, value.mapTexts other = .nested g → Built g := by
    intro value ih g hg
    cases value with
    | nested g' =>
      cases hg
      exact ih g' rfl
    | null | number | text => cases hg
  induction h with
  | equal hfield _ ih => exact .equal hfield (hvalue ih)
  | less hfield _ ih => exact .less hfield (hvalue ih)
  | isNull hfield => exact .isNull hfield
  | refers hfield _ ih => exact .refers hfield ih
  | and _ _ ihf ihg =>
    rw [mapTexts_and]
    exact ihf.and ihg

/-- **The text of a built filter stands for that filter only.** Joining is associative and leaves no
conjunction in a conjunction, the text can be read back, and no text value changes what is read
around it. -/
theorem unambiguous (h : Built f) :
    (∀ g k, (f.and g).and k = f.and (g.and k))
      ∧ (∀ parts, Inside (.all parts) f → 2 ≤ parts.length ∧ ∀ p ∈ parts, p.isAll = false)
      ∧ parse? f.text = some f
      ∧ (∀ g, Built g → f.text = g.text → f = g)
      ∧ ∀ other, parse? (f.mapTexts other).text = some (f.mapTexts other) := by
  refine ⟨f.and_assoc, fun parts hinside => ?_, h.normal.parse?_text, fun g hg htext => ?_,
    fun other => (h.mapTexts other).normal.parse?_text⟩
  · cases h.normal.of_inside hinside with
    | all hlength hsingle _ => exact ⟨hlength, hsingle⟩
  · have hread := h.normal.parse?_text
    rw [htext, hg.normal.parse?_text] at hread
    exact (Option.some.inj hread).symm

theorem unambiguous_separators :
    Built ((refers "list_root" (.equal "id" (.text "it's\\;\x7d"))).and
        (.less "level" (.number (-2))))
      ∧ parse? "list_root EQ \x7bid EQ 'it\\'s\\\\;\x7d'\x7d;level LT -2"
        = some ((refers "list_root" (.equal "id" (.text "it's\\;\x7d"))).and
          (.less "level" (.number (-2)))) := by
  have hbuilt : Built
      ((refers "list_root" (.equal "id" (.text "it's\\;\x7d"))).and
        (.less "level" (.number (-2)))) :=
    .and (.refers (isField_of_word (by decide)) (.equal (isField_of_word (by decide)) nofun))
      (.less (isField_of_word (by decide)) nofun)
  exact ⟨hbuilt, (unambiguous hbuilt).2.2.1⟩

end Filter

end TypedEntities
