import Mathlib
import TypedEntities.Json.Parser
import TypedEntities.Json.Printer

/-!
# What is written can be read

Reading the compact text of a JSON value gives the tree of the value, `Json.toTree`, provided its
numbers are integers: `Json.parse?_compact`. Doubles are left aside, since their digits are those of
another theory. A string is read back character by character, a number up to what follows it, and
arrays and objects by induction on the value; what follows a value is never what could extend it
(`Closes`).
-/

namespace TypedEntities.Json

/-! ## Strings -/

theorem hexValue?_hexDigit : ∀ n < 16, hexValue? (hexDigit n) = some n := by decide

/-- The escape of a control character is read as the character, whatever follows it. -/
theorem parseChars_unicode {c : Char} (hc : c.toNat < 32) (rest : List Char) :
    parseChars ('\\' :: 'u' :: '0' :: '0' :: hexDigit (c.toNat / 16) :: hexDigit (c.toNat % 16) :: rest)
      = (parseChars rest).map fun (cs, r) => (some c :: cs, r) := by
  have hunit : hexUnit? '0' '0' (hexDigit (c.toNat / 16)) (hexDigit (c.toNat % 16))
      = some c.toNat := by
    have hzero : hexValue? '0' = some 0 := by decide
    simp only [hexUnit?, hzero, hexValue?_hexDigit _ (show c.toNat / 16 < 16 by omega),
      hexValue?_hexDigit _ (show c.toNat % 16 < 16 by omega), Option.bind_eq_bind, Option.bind_some,
      Option.pure_def, Option.some.injEq]
    omega
  have hfirst : isFirstHalf c.toNat = false := by
    simp only [isFirstHalf, Bool.and_eq_false_iff, decide_eq_false_iff_not]
    omega
  have hsecond : isSecondHalf c.toNat = false := by
    simp only [isSecondHalf, Bool.and_eq_false_iff, decide_eq_false_iff_not]
    omega
  -- another escape may follow, which the reader looks at for a second half
  by_cases hnext : ∃ e f g h tail, rest = '\\' :: 'u' :: e :: f :: g :: h :: tail
  · obtain ⟨e, f, g, h, tail, rfl⟩ := hnext
    rw [parseChars]
    simp [hunit, hfirst, hsecond, Char.ofNat_toNat]
  · rw [parseChars]
    · simp [hunit, hfirst, hsecond, Char.ofNat_toNat]
    · intro e f g h tail heq
      exact hnext ⟨e, f, g, h, tail, heq⟩

/-- A character is read back from how it is written. -/
theorem parseChars_escapeChar (c : Char) (rest : List Char) :
    parseChars (escapeChar c ++ rest) = (parseChars rest).map fun (cs, r) => (some c :: cs, r) := by
  unfold escapeChar
  split
  next => simp [parseChars, shortEscape?]
  next => simp [parseChars, shortEscape?]
  next => simp [parseChars, shortEscape?]
  next => simp [parseChars, shortEscape?]
  next => simp [parseChars, shortEscape?]
  next hquote hslash _ _ _ =>
    split
    next h => simp [parseChars, shortEscape?, h]
    next =>
      split
      next h => simp [parseChars, shortEscape?, h]
      next =>
        split
        next h => exact parseChars_unicode h rest
        next h =>
          -- the character stands for itself, since it is neither a quote nor a backslash nor a
          -- control character
          have hplain : ¬(c.toNat < 32 || c == '\\') = true := by simpa using ⟨by omega, hslash⟩
          show parseChars (c :: rest) = _
          rw [parseChars, if_neg hplain]
          · exact hquote
          · intro a b c' d e f g h' tail heq _
            exact hslash heq
          · intro a b c' d tail heq _
            exact hslash heq
          · intro d tail heq _
            exact hslash heq

theorem toList_quote (s : String) :
    (quote s).toList = '"' :: (s.toList.flatMap escapeChar ++ ['"']) := by
  simp [quote]

/-- A string is read back. -/
theorem parseString_escape (s : String) (rest : List Char) :
    parseString (s.toList.flatMap escapeChar ++ '"' :: rest) = some (some s, rest) := by
  have hchars : ∀ cs : List Char,
      parseChars (cs.flatMap escapeChar ++ '"' :: rest) = some (cs.map some, rest) := by
    intro cs
    induction cs with
    | nil => simp [parseChars]
    | cons c cs ih =>
      rw [List.flatMap_cons, List.append_assoc, parseChars_escapeChar, ih]
      rfl
  have hwhole : ∀ cs : List Char, (cs.map some).mapM id = some cs := by
    intro cs
    induction cs with
    | nil => rfl
    | cons c cs ih => simp [ih]
  simp [parseString, hchars, hwhole]

/-! ## Numbers -/

/-- What may follow a value: nothing that could be a part of it. -/
inductive Closes : List Char → Prop
  | nil : Closes []
  | comma (rest : List Char) : Closes (',' :: rest)
  | bracket (rest : List Char) : Closes (']' :: rest)
  | brace (rest : List Char) : Closes ('\x7d' :: rest)

/-- The digits of a number, as they are read. -/
def digitsOf (n : Nat) : List Nat := (Nat.toDigits 10 n).map fun c => c.toNat - 48

/-- An integer as it is written. Doubles have no part in this. -/
def Number.written : Number → NumberText
  | .integer n => ⟨n < 0, digitsOf n.natAbs, [], none⟩
  | .double _ => default

theorem parseDigits_toDigits (n : Nat) {rest : List Char} (hrest : Closes rest) :
    parseDigits (Nat.toDigits 10 n ++ rest) = (digitsOf n, rest) := by
  have hdigits : ∀ c ∈ Nat.toDigits 10 n, c.isDigit = true :=
    fun c hc => Nat.isDigit_of_mem_toDigits (by decide) (by decide) hc
  have hstop : rest.takeWhile Char.isDigit = [] ∧ rest.dropWhile Char.isDigit = rest := by
    cases hrest <;> exact ⟨rfl, rfl⟩
  unfold parseDigits
  rw [List.takeWhile_append_of_pos hdigits, List.dropWhile_append_of_pos hdigits, hstop.1, hstop.2,
    List.append_nil]
  rfl

/-- A number does not begin with a zero, unless it is zero. -/
theorem exists_toDigits (n : Nat) :
    Nat.toDigits 10 n = ['0'] ∨ ∃ c cs, Nat.toDigits 10 n = c :: cs ∧ c.isDigit = true ∧ c ≠ '0' := by
  induction n using Nat.strong_induction_on with
  | _ n ih =>
    rw [Nat.toDigits_eq_if (by decide)]
    split
    next hn =>
      interval_cases n
      · exact .inl rfl
      all_goals exact .inr ⟨_, [], rfl, by decide, by decide⟩
    next hn =>
      right
      rcases ih (n / 10) (by omega) with hzero | ⟨c, cs, hcs, hdigit, hne⟩
      · -- only zero is written as zero, and this is a tenth of what is at least ten
        have hvalue := congrArg (Nat.ofDigitChars 10 · 0) hzero
        simp only [Nat.ofDigitChars_toDigits (show 1 < 10 by decide) (by decide)] at hvalue
        have : Nat.ofDigitChars 10 ['0'] 0 = 0 := by decide
        omega
      · rw [hcs]
        exact ⟨c, cs ++ _, rfl, hdigit, hne⟩

/-- A natural number begins with a digit. -/
theorem exists_head_toDigits (n : Nat) :
    ∃ c cs, Nat.toDigits 10 n = c :: cs ∧ c.isDigit = true := by
  rcases exists_toDigits n with hzero | ⟨c, cs, hcs, hdigit, -⟩
  · exact ⟨'0', [], hzero, rfl⟩
  · exact ⟨c, cs, hcs, hdigit⟩

theorem parseWhole_toDigits (n : Nat) {rest : List Char} (hrest : Closes rest) :
    parseWhole (Nat.toDigits 10 n ++ rest) = some (digitsOf n, rest) := by
  rcases exists_toDigits n with hzero | ⟨c, cs, hcs, hdigit, hne⟩
  · rw [digitsOf, hzero]
    cases hrest <;> rfl
  · have hdigits := parseDigits_toDigits n hrest
    rw [hcs, List.cons_append] at hdigits ⊢
    simp only [parseWhole, beq_iff_eq, hne, if_false, hdigit, if_true, hdigits]

theorem parseMagnitude_toDigits (negative : Bool) (n : Nat) {rest : List Char}
    (hrest : Closes rest) :
    parseMagnitude negative (Nat.toDigits 10 n ++ rest)
      = some (⟨negative, digitsOf n, [], none⟩, rest) := by
  have hfraction : parseFraction rest = some ([], rest) := by cases hrest <;> rfl
  have hexponent : parseExponent rest = some (none, rest) := by cases hrest <;> rfl
  simp [parseMagnitude, parseWhole_toDigits n hrest, hfraction, hexponent]

/-- An integer is written with digits, behind a sign if it is negative. -/
theorem toList_text_integer (n : Int) :
    (Number.integer n).text.toList
      = if n < 0 then '-' :: Nat.toDigits 10 n.natAbs else Nat.toDigits 10 n.natAbs := by
  show n.repr.toList = _
  cases n with
  | ofNat m =>
    rw [if_neg (by simp)]
    exact Nat.toList_repr
  | negSucc m =>
    rw [if_pos (Int.negSucc_lt_zero m), Int.repr]
    simp [Nat.toList_repr]

/-- An integer begins with a sign or a digit. -/
theorem exists_head_text (n : Int) :
    ∃ c cs, (Number.integer n).text.toList = c :: cs ∧ (c = '-' ∨ c.isDigit = true) := by
  rw [toList_text_integer]
  split
  next => exact ⟨'-', _, rfl, .inl rfl⟩
  next =>
    obtain ⟨c, cs, hcs, hdigit⟩ := exists_head_toDigits n.natAbs
    exact ⟨c, cs, hcs, .inr hdigit⟩

/-- A sign or a digit is no other character. -/
theorem ne_of_sign_or_digit {c : Char} (hc : c = '-' ∨ c.isDigit = true) (d : Char) (hd : d ≠ '-')
    (hdigit : d.isDigit = false) : c ≠ d := by
  rintro rfl
  rcases hc with hc | hc
  · exact hd hc
  · exact absurd (hc.symm.trans hdigit) (by decide)

/-- An integer is read back as it is written. -/
theorem parseNumber_text (n : Int) {rest : List Char} (hrest : Closes rest) :
    parseNumber ((Number.integer n).text.toList ++ rest)
      = some ((Number.integer n).written, rest) := by
  rw [toList_text_integer, Number.written]
  split
  next h =>
    rw [List.cons_append, parseNumber, parseMagnitude_toDigits _ _ hrest, decide_eq_true h]
  next h =>
    -- no digit is a sign
    have hsign : ∀ cs, Nat.toDigits 10 n.natAbs ++ rest ≠ '-' :: cs := by
      intro cs heq
      obtain ⟨c, cs', hcs, hdigit⟩ := exists_head_toDigits n.natAbs
      rw [hcs] at heq
      obtain ⟨rfl, -⟩ := List.cons.inj heq
      exact absurd hdigit (by decide)
    rw [parseNumber, parseMagnitude_toDigits _ _ hrest, decide_eq_false h]
    exact hsign

/-! ## Values -/

mutual

/-- The tree that a value is written as. -/
def toTree : Json → Tree
  | .null => .null
  | .bool b => .bool b
  | .number n => .number n.written
  | .text s => .text (some s)
  | .array items => .array (itemTrees items)
  | .object members => .object (memberTrees members)

/-- The trees of the items of an array. -/
def itemTrees : List Json → List Tree
  | [] => []
  | v :: rest => v.toTree :: itemTrees rest

/-- The keys and the trees of the members of an object. -/
def memberTrees : List (String × Json) → List (Option String × Tree)
  | [] => []
  | (key, v) :: rest => (some key, v.toTree) :: memberTrees rest

end

mutual

/-- No number of the value is a double. -/
def Whole : Json → Prop
  | .number (.double _) => False
  | .array items => WholeItems items
  | .object members => WholeMembers members
  | _ => True

/-- No number of an item is a double. -/
def WholeItems : List Json → Prop
  | [] => True
  | v :: rest => v.Whole ∧ WholeItems rest

/-- No number of a member is a double. -/
def WholeMembers : List (String × Json) → Prop
  | [] => True
  | (_, v) :: rest => v.Whole ∧ WholeMembers rest

end

/-- The text of a value begins with a character that is neither a blank nor a closing bracket. -/
theorem exists_head_compact {v : Json} (hv : v.Whole) :
    ∃ c cs, v.compact.toList = c :: cs ∧ isSpace c = false ∧ c ≠ ']' := by
  match v with
  | .null => exact ⟨'n', _, rfl, rfl, by decide⟩
  | .bool true => exact ⟨'t', _, rfl, rfl, by decide⟩
  | .bool false => exact ⟨'f', _, rfl, rfl, by decide⟩
  | .number (.integer n) =>
    obtain ⟨c, cs, hcs, hc⟩ := exists_head_text n
    have hother := ne_of_sign_or_digit hc
    refine ⟨c, cs, by rw [compact, hcs], ?_, hother _ (by decide) (by decide)⟩
    simp only [isSpace, Bool.or_eq_false_iff, beq_eq_false_iff_ne]
    exact ⟨⟨⟨hother _ (by decide) (by decide), hother _ (by decide) (by decide)⟩,
      hother _ (by decide) (by decide)⟩, hother _ (by decide) (by decide)⟩
  | .number (.double _) => exact hv.elim
  | .text s => exact ⟨'"', _, toList_quote s, rfl, by decide⟩
  | .array items => exact ⟨'[', _, by simp [compact]; rfl, rfl, by decide⟩
  | .object members => exact ⟨'\x7b', _, by simp [compact]; rfl, rfl, by decide⟩

theorem skipSpace_compact {v : Json} (hv : v.Whole) (rest : List Char) :
    skipSpace (v.compact.toList ++ rest) = v.compact.toList ++ rest := by
  obtain ⟨c, cs, hcs, hspace, -⟩ := exists_head_compact hv
  rw [hcs, List.cons_append, skipSpace, List.dropWhile_cons_of_neg (by simp [hspace])]

theorem length_compact_pos {v : Json} (hv : v.Whole) : 0 < v.compact.toList.length := by
  obtain ⟨c, cs, hcs, -⟩ := exists_head_compact hv
  simp [hcs]

/-- What is written as an integer is read as a number. -/
theorem parseValue_integer (n : Int) {rest : List Char} (hrest : Closes rest) (fuel : Nat) :
    parseValue (fuel + 1) ((Number.integer n).text.toList ++ rest)
      = some (.number (Number.integer n).written, rest) := by
  have hnumber := parseNumber_text n hrest
  obtain ⟨c, cs, hcs, hc⟩ := exists_head_text n
  rw [hcs, List.cons_append] at hnumber ⊢
  rw [parseValue, hnumber]
  · rfl
  -- the first character is that of no other kind of value
  all_goals
    intros
    rename_i heq
    exact ne_of_sign_or_digit hc _ (by decide) (by decide) (List.cons.inj heq).1

/-! ### Steps of the reader -/

section Steps

variable {fuel : Nat} {cs more rest : List Char} {t : Tree} {ts : List Tree} {key : Option String}
  {ms : List (Option String × Tree)}

/-- The items of an array stand behind its bracket. -/
theorem parseValue_array (hspace : skipSpace cs = cs) (hclose : ∀ r, cs ≠ ']' :: r)
    (hitems : parseItems fuel cs = some (ts, rest)) :
    parseValue (fuel + 1) ('[' :: cs) = some (.array ts, rest) := by
  rw [parseValue, hspace]
  split
  next r => exact absurd rfl (hclose r)
  next => rw [hitems]; rfl

/-- The members of an object stand behind its brace. -/
theorem parseValue_object (hmembers : parseMembers fuel ('"' :: cs) = some (ms, rest)) :
    parseValue (fuel + 1) ('\x7b' :: '"' :: cs) = some (.object ms, rest) := by
  rw [parseValue, show skipSpace ('"' :: cs) = '"' :: cs from rfl]
  split
  next r heq => exact absurd (List.cons.inj heq).1 (by decide)
  next => rw [hmembers]; rfl

theorem parseItems_last (hvalue : parseValue fuel cs = some (t, ']' :: rest)) :
    parseItems (fuel + 1) cs = some ([t], rest) := by
  rw [parseItems, hvalue]
  rfl

theorem parseItems_more (hvalue : parseValue fuel cs = some (t, ',' :: more))
    (hspace : skipSpace more = more) (hitems : parseItems fuel more = some (ts, rest)) :
    parseItems (fuel + 1) cs = some (t :: ts, rest) := by
  rw [parseItems, hvalue]
  show (parseItems fuel (skipSpace more)).map _ = _
  rw [hspace, hitems]
  rfl

theorem parseMembers_last (hkey : parseString cs = some (key, ':' :: more))
    (hspace : skipSpace more = more)
    (hvalue : parseValue fuel more = some (t, '\x7d' :: rest)) :
    parseMembers (fuel + 1) ('"' :: cs) = some ([(key, t)], rest) := by
  rw [parseMembers, hkey]
  simp only [show skipSpace (':' :: more) = ':' :: more from rfl, hspace, hvalue,
    show skipSpace ('\x7d' :: rest) = '\x7d' :: rest from rfl]

theorem parseMembers_more {next : List Char} (hkey : parseString cs = some (key, ':' :: more))
    (hspace : skipSpace more = more) (hvalue : parseValue fuel more = some (t, ',' :: '"' :: next))
    (hmembers : parseMembers fuel ('"' :: next) = some (ms, rest)) :
    parseMembers (fuel + 1) ('"' :: cs) = some ((key, t) :: ms, rest) := by
  rw [parseMembers, hkey]
  simp only [show skipSpace (':' :: more) = ':' :: more from rfl, hspace, hvalue,
    show skipSpace (',' :: '"' :: next) = ',' :: '"' :: next from rfl,
    show skipSpace ('"' :: next) = '"' :: next from rfl, hmembers]
  rfl

end Steps

/-! ### Reading back -/

/-- The text of items begins with the text of the first one. -/
theorem exists_compactItems (v : Json) (items : List Json) :
    ∃ tail, (compactItems (v :: items)).toList = v.compact.toList ++ tail := by
  cases items with
  | nil => exact ⟨[], by simp [compactItems]⟩
  | cons w items => exact ⟨',' :: (compactItems (w :: items)).toList, by simp [compactItems]⟩

/-- The text of members begins with the quote of the first key. -/
theorem exists_compactMembers (m : String × Json) (members : List (String × Json)) :
    ∃ tail, (compactMembers (m :: members)).toList = '"' :: tail := by
  obtain ⟨key, v⟩ := m
  cases members with
  | nil => exact ⟨_, by rw [compactMembers]; simp [toList_quote]; rfl⟩
  | cons m members => exact ⟨_, by rw [compactMembers]; simp [toList_quote]; rfl⟩

-- By induction on the fuel, as the reader goes.
mutual

/-- A value is read back, and what follows it stays. -/
theorem parseValue_compact (v : Json) (hv : v.Whole) {rest : List Char} (hrest : Closes rest)
    (fuel : Nat) (hfuel : 2 * v.compact.toList.length ≤ fuel) :
    parseValue fuel (v.compact.toList ++ rest) = some (v.toTree, rest) := by
  obtain ⟨fuel, rfl⟩ := Nat.exists_eq_add_one_of_ne_zero
    (show fuel ≠ 0 by have := length_compact_pos hv; omega)
  cases v with
  | null => rfl
  | bool b => cases b <;> rfl
  | number n =>
    cases n with
    | integer n => exact parseValue_integer n hrest fuel
    | double bits => exact hv.elim
  | text s =>
    rw [compact, toList_quote, List.cons_append, List.append_assoc, parseValue]
    simp [parseString_escape, toTree]
  | array items =>
    cases items with
    | nil => rfl
    | cons v items =>
      have htext : (Json.array (v :: items)).compact.toList
          = '[' :: ((compactItems (v :: items)).toList ++ [']']) := by simp [compact]
      have hlength := congrArg List.length htext
      simp only [List.length_cons, List.length_append, List.length_nil] at hlength
      rw [Whole] at hv
      have hitems := parseItems_compact v items hv rest fuel (by omega)
      obtain ⟨tail, htail⟩ := exists_compactItems v items
      rw [WholeItems] at hv
      obtain ⟨c, cs, hcs, -, hbracket⟩ := exists_head_compact hv.1
      rw [htext, List.cons_append, List.append_assoc, List.singleton_append, toTree]
      refine parseValue_array ?_ ?_ hitems
      · rw [htail, List.append_assoc, skipSpace_compact hv.1]
      · -- the first item does not begin with a bracket, so the array is not taken for an empty one
        rw [htail, hcs]
        exact fun r heq => hbracket (List.cons.inj heq).1
  | object members =>
    cases members with
    | nil => rfl
    | cons m members =>
      have htext : (Json.object (m :: members)).compact.toList
          = '\x7b' :: ((compactMembers (m :: members)).toList ++ ['\x7d']) := by simp [compact]
      have hlength := congrArg List.length htext
      simp only [List.length_cons, List.length_append, List.length_nil] at hlength
      rw [Whole] at hv
      have hmembers := parseMembers_compact m members hv rest fuel (by omega)
      obtain ⟨tail, htail⟩ := exists_compactMembers m members
      rw [htext, List.cons_append, List.append_assoc, List.singleton_append, toTree]
      rw [htail, List.cons_append] at hmembers ⊢
      exact parseValue_object hmembers
termination_by fuel
decreasing_by all_goals omega

/-- The items of an array are read back, up to the closing bracket. -/
theorem parseItems_compact (v : Json) (items : List Json) (hv : WholeItems (v :: items))
    (rest : List Char) (fuel : Nat)
    (hfuel : 2 * (compactItems (v :: items)).toList.length + 1 ≤ fuel) :
    parseItems fuel ((compactItems (v :: items)).toList ++ ']' :: rest)
      = some (itemTrees (v :: items), rest) := by
  rw [WholeItems] at hv
  obtain ⟨fuel, rfl⟩ := Nat.exists_eq_add_one_of_ne_zero (show fuel ≠ 0 by omega)
  cases items with
  | nil =>
    rw [compactItems] at hfuel ⊢
    rw [itemTrees, itemTrees]
    exact parseItems_last (parseValue_compact v hv.1 (.bracket rest) fuel (by omega))
  | cons w items =>
    have htext : (compactItems (v :: w :: items)).toList
        = v.compact.toList ++ ',' :: (compactItems (w :: items)).toList := by simp [compactItems]
    have hlength := congrArg List.length htext
    simp only [List.length_cons, List.length_append] at hlength
    -- an item has a character at least, which leaves less fuel for the others
    have hpos := length_compact_pos hv.1
    have hitems := parseItems_compact w items hv.2 rest fuel (by omega)
    obtain ⟨tail, htail⟩ := exists_compactItems w items
    rw [WholeItems] at hv
    rw [htext, List.append_assoc, List.cons_append, itemTrees]
    refine parseItems_more (parseValue_compact v hv.1 (.comma _) fuel (by omega)) ?_ hitems
    rw [htail, List.append_assoc, skipSpace_compact hv.2.1]
termination_by fuel
decreasing_by all_goals omega

/-- The members of an object are read back, up to the closing brace. -/
theorem parseMembers_compact (m : String × Json) (members : List (String × Json))
    (hm : WholeMembers (m :: members)) (rest : List Char) (fuel : Nat)
    (hfuel : 2 * (compactMembers (m :: members)).toList.length + 1 ≤ fuel) :
    parseMembers fuel ((compactMembers (m :: members)).toList ++ '\x7d' :: rest)
      = some (memberTrees (m :: members), rest) := by
  obtain ⟨fuel, rfl⟩ := Nat.exists_eq_add_one_of_ne_zero (show fuel ≠ 0 by omega)
  obtain ⟨key, v⟩ := m
  rw [WholeMembers] at hm
  cases members with
  | nil =>
    have htext : (compactMembers [(key, v)]).toList
        = '"' :: (key.toList.flatMap escapeChar ++ '"' :: ':' :: v.compact.toList) := by
      simp [compactMembers, toList_quote]
    have hlength := congrArg List.length htext
    simp only [List.length_cons, List.length_append] at hlength
    rw [htext, memberTrees, memberTrees]
    simp only [List.cons_append, List.append_assoc]
    exact parseMembers_last (parseString_escape key _) (skipSpace_compact hm.1 _)
      (parseValue_compact v hm.1 (.brace rest) fuel (by omega))
  | cons m' members =>
    have htext : (compactMembers ((key, v) :: m' :: members)).toList
        = '"' :: (key.toList.flatMap escapeChar
          ++ '"' :: ':' :: (v.compact.toList ++ ',' :: (compactMembers (m' :: members)).toList)) := by
      rw [compactMembers]
      simp [toList_quote]
    have hlength := congrArg List.length htext
    simp only [List.length_cons, List.length_append] at hlength
    have hmembers := parseMembers_compact m' members hm.2 rest fuel (by omega)
    obtain ⟨tail, htail⟩ := exists_compactMembers m' members
    rw [htail, List.cons_append] at hmembers
    have hvalue := parseValue_compact v hm.1 (.comma ('"' :: (tail ++ '\x7d' :: rest))) fuel
      (by omega)
    rw [htext, htail, memberTrees]
    simp only [List.cons_append, List.append_assoc]
    exact parseMembers_more (parseString_escape key _) (skipSpace_compact hm.1 _) hvalue hmembers
termination_by fuel
decreasing_by all_goals omega

end

/-- The text of a value is read as the tree of the value. -/
theorem parse?_compact {v : Json} (hv : v.Whole) : Tree.parse? v.compact = some v.toTree := by
  have hvalue := parseValue_compact v hv .nil (2 * v.compact.toList.length + 2) (by omega)
  have hspace := skipSpace_compact hv []
  rw [List.append_nil] at hvalue hspace
  rw [Tree.parse?, Tree.parseChars?, hspace, hvalue]
  rfl

end TypedEntities.Json
