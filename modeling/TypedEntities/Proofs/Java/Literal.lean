import Mathlib
import TypedEntities.Java.Lexical
import TypedEntities.Proofs.Listing

/-!
# Reading string literals

What `literalBody` writes is one Java string literal between double quotes, and its value is the text:
`isLiteralBody_literalBody`. Java goes over a source twice. At first it replaces Unicode escapes, which
begin with a backslash and a `u`, unless the backslash comes after an odd number of others. Then it
reads a literal up to the first quote that no escape holds. Both count backslashes, so the proofs rest
on one fact: each escape is written as a whole, and so the body of a text never ends in an odd number
of them (`even_backslashesAtEnd`).
-/

namespace TypedEntities.Java

/-! ## Readers -/

/-- The character that one after a backslash stands for. Java knows more escapes than these; they are
not read here. -/
def escaped? : Char → Option Char
  | '\\' => some '\\'
  | '"' => some '"'
  | 'n' => some '\n'
  | 'r' => some '\r'
  | 't' => some '\t'
  | _ => none

/-- A text with its escapes undone, from left to right. -/
def unescape? : List Char → Option (List Char)
  | [] => some []
  | '\\' :: c :: rest => do
    let value ← escaped? c
    let values ← unescape? rest
    return value :: values
  | c :: rest => if c = '\\' then none else (unescape? rest).map (c :: ·)

/-- The value of a literal after its first quote, and what comes after its last one. No line ends in a
literal. -/
def readBody? : List Char → Option (List Char × List Char)
  | [] => none
  | '"' :: rest => some ([], rest)
  | '\\' :: c :: rest => do
    let value ← escaped? c
    let (values, after) ← readBody? rest
    return (value :: values, after)
  | c :: rest =>
    if c = '\\' ∨ c = '\n' ∨ c = '\r' then none
    else (readBody? rest).map fun (values, after) => (c :: values, after)

/-- The value of the literal that a text begins with, and what comes after it. Three quotes begin a
text of several lines, which is no literal of this kind. -/
def readLiteral? : List Char → Option (List Char × List Char)
  | '"' :: '"' :: '"' :: _ => none
  | '"' :: rest => readBody? rest
  | _ => none

/-! ## One character -/

/-- A character is written as a backslash and one that stands for it, or as it is. -/
theorem escapeChar_cases (c : Char) :
    (∃ d, escapeChar c = ['\\', d] ∧ escaped? d = some c)
      ∨ escapeChar c = [c] ∧ c ≠ '\\' ∧ c ≠ '"' ∧ c ≠ '\n' ∧ c ≠ '\r' := by
  unfold escapeChar
  split
  next => exact .inl ⟨_, rfl, rfl⟩
  next => exact .inl ⟨_, rfl, rfl⟩
  next => exact .inl ⟨_, rfl, rfl⟩
  next => exact .inl ⟨_, rfl, rfl⟩
  next => exact .inl ⟨_, rfl, rfl⟩
  next hbackslash hquote hline hreturn _ =>
    exact .inr ⟨rfl, hbackslash, hquote, hline, hreturn⟩

theorem unescape?_cons {c : Char} (h : c ≠ '\\') (text : List Char) :
    unescape? (c :: text) = (unescape? text).map (c :: ·) := by
  rw [unescape?, if_neg h]
  exact fun _ _ heq _ => h heq

theorem unescape?_escapeChar (c : Char) {text values : List Char} (h : unescape? text = some values) :
    unescape? (escapeChar c ++ text) = some (c :: values) := by
  rcases escapeChar_cases c with ⟨d, hc, hd⟩ | ⟨hc, hbackslash, -⟩
  · simp [hc, unescape?, hd, h]
  · simp [hc, unescape?_cons hbackslash, h]

theorem readBody?_cons {c : Char} (hbackslash : c ≠ '\\') (hquote : c ≠ '"') (hline : c ≠ '\n')
    (hreturn : c ≠ '\r') (text : List Char) :
    readBody? (c :: text) = (readBody? text).map fun (values, after) => (c :: values, after) := by
  rw [readBody?, if_neg (by simp [hbackslash, hline, hreturn])]
  · exact fun heq => hquote heq
  · exact fun _ _ heq _ => hbackslash heq

theorem readBody?_escapeChar (c : Char) {text values after : List Char}
    (h : readBody? text = some (values, after)) :
    readBody? (escapeChar c ++ text) = some (c :: values, after) := by
  rcases escapeChar_cases c with ⟨d, hc, hd⟩ | ⟨hc, hbackslash, hquote, hline, hreturn⟩
  · simp [hc, readBody?, hd, h]
  · simp [hc, readBody?_cons hbackslash hquote hline hreturn, h]

/-! ## Whole texts -/

theorem unescape?_flatMap_escapeChar (text : List Char) :
    unescape? (text.flatMap escapeChar) = some text := by
  induction text with
  | nil => rfl
  | cons c text ih => exact unescape?_escapeChar c ih

theorem readBody?_flatMap_escapeChar (text after : List Char) :
    readBody? (text.flatMap escapeChar ++ '"' :: after) = some (text, after) := by
  induction text with
  | nil => rfl
  | cons c text ih =>
    rw [List.flatMap_cons, List.append_assoc]
    exact readBody?_escapeChar c ih

/-- No body begins with a quote, so a literal begins a text of several lines only if it is empty and
another quote comes after it. -/
theorem readLiteral?_flatMap_escapeChar (text : List Char) {after : List Char}
    (h : text.flatMap escapeChar = [] → after.head? ≠ some '"') :
    readLiteral? ('"' :: (text.flatMap escapeChar ++ '"' :: after)) = some (text, after) := by
  rw [readLiteral?]
  · exact readBody?_flatMap_escapeChar text after
  · intro rest heq
    cases text with
    | nil =>
      obtain ⟨-, rfl⟩ := List.cons.inj heq
      exact h rfl rfl
    | cons c text =>
      rcases escapeChar_cases c with ⟨d, hc, -⟩ | ⟨hc, -, hquote, -⟩
      · rw [List.flatMap_cons, hc] at heq
        cases heq
      · rw [List.flatMap_cons, hc] at heq
        exact hquote (List.cons.inj heq).1

/-! ## Backslashes -/

/-- How many backslashes a text ends in. -/
def backslashesAtEnd (text : List Char) : Nat := (text.reverse.takeWhile (· = '\\')).length

theorem backslashesAtEnd_concat (text : List Char) (c : Char) :
    backslashesAtEnd (text ++ [c]) = if c = '\\' then backslashesAtEnd text + 1 else 0 := by
  unfold backslashesAtEnd
  rw [List.reverse_concat, List.takeWhile_cons]
  by_cases h : c = '\\' <;> simp [h]

/-- The escapes of a text end in whole pairs of backslashes. -/
theorem even_backslashesAtEnd (text : List Char) :
    Even (backslashesAtEnd (text.flatMap escapeChar)) := by
  -- from the end, since only the last character can add to the backslashes there
  induction text using List.reverseRecOn with
  | nil => exact Even.zero
  | append_singleton text c ih =>
    rw [List.flatMap_append, List.flatMap_singleton]
    rcases escapeChar_cases c with ⟨d, hc, -⟩ | ⟨hc, hbackslash, -⟩
    · have hpair : text.flatMap escapeChar ++ ['\\', d]
          = (text.flatMap escapeChar ++ ['\\']) ++ [d] := by simp
      rw [hc, hpair, backslashesAtEnd_concat, backslashesAtEnd_concat, if_pos rfl]
      split
      next => exact (Even.add_one ih).add_one
      next => exact Even.zero
    · rw [hc, backslashesAtEnd_concat, if_neg hbackslash]
      exact Even.zero

/-- Where a character in the body of a text comes from: it begins an escape, it is the other half of
one, or it is written as it is. -/
theorem exists_origin {text before after : List Char} {m : Char}
    (h : text.flatMap escapeChar = before ++ m :: after) :
    ∃ text₁ text₂ : List Char,
      (before = text₁.flatMap escapeChar ∧ m = '\\'
        ∧ ∃ d c, escaped? d = some c ∧ after = d :: text₂.flatMap escapeChar)
      ∨ (before = text₁.flatMap escapeChar ++ ['\\'] ∧ ∃ c, escaped? m = some c)
      ∨ (m ≠ '\\' ∧ m ≠ '"' ∧ m ≠ '\n' ∧ m ≠ '\r') := by
  obtain ⟨text₁, c, text₂, front, back, -, hc, rfl, rfl⟩ := exists_of_flatMap_eq_append_cons h
  refine ⟨text₁, text₂, ?_⟩
  rcases escapeChar_cases c with ⟨d, hd, hescaped⟩ | ⟨hd, hplain⟩
  · -- an escape of two characters, of which `m` is the first or the second
    rw [hd] at hc
    rcases List.cons_eq_append_iff.mp hc with ⟨rfl, hback⟩ | ⟨front, rfl, hback⟩
    · obtain ⟨rfl, rfl⟩ := List.cons.inj hback
      exact .inl ⟨List.append_nil _, rfl, d, c, hescaped, rfl⟩
    · obtain ⟨rfl, hback⟩ : front = [] ∧ m :: back = [d] := by
        simpa using List.singleton_eq_append_iff.mp hback
      obtain ⟨rfl, rfl⟩ := List.cons.inj hback
      exact .inr (.inl ⟨rfl, c, hescaped⟩)
  · -- a plain character, which is `m` itself
    rw [hd] at hc
    obtain ⟨rfl, hback⟩ : front = [] ∧ m :: back = [c] := by
      simpa using List.singleton_eq_append_iff.mp hc
    obtain ⟨rfl, rfl⟩ := List.cons.inj hback
    exact .inr (.inr hplain)

/-- The half of an escape after its backslash comes after an odd number of them. -/
theorem odd_backslashesAtEnd (text : List Char) :
    Odd (backslashesAtEnd (text.flatMap escapeChar ++ ['\\'])) := by
  rw [backslashesAtEnd_concat, if_pos rfl]
  exact (even_backslashesAtEnd text).add_one

/-! ## Literals -/

/-- A text that is one string literal between double quotes, with the given value: no line ends in it,
each quote in it is escaped, no Unicode escape begins in it, undoing the escapes gives the value, and
so does reading the literal, whatever comes after it. Only after an empty literal no quote may come,
since three quotes begin a text of several lines. -/
structure IsLiteralBody (body value : List Char) : Prop where
  lines : '\n' ∉ body ∧ '\r' ∉ body
  quotes : ∀ before after, body = before ++ '"' :: after → Odd (backslashesAtEnd before)
  unicode : ∀ before after, body = before ++ '\\' :: 'u' :: after →
    ¬Even (backslashesAtEnd before)
  unescape : unescape? body = some value
  reads : ∀ after : List Char, (body = [] → after.head? ≠ some '"') →
    readLiteral? ('"' :: (body ++ '"' :: after)) = some (value, after)

/-- No line ends in the body of a text. -/
theorem notMem_flatMap_escapeChar {m : Char} (hm : m = '\n' ∨ m = '\r') (text : List Char) :
    m ∉ text.flatMap escapeChar := by
  intro hmem
  obtain ⟨before, after, h⟩ := List.append_of_mem hmem
  obtain ⟨text₁, text₂, ⟨-, rfl, -⟩ | ⟨-, c, hescaped⟩ | ⟨-, -, hline, hreturn⟩⟩ := exists_origin h
  · simp at hm
  · rcases hm with rfl | rfl <;> cases hescaped
  · exact hm.elim hline hreturn

/-- **Texts as string literals.** What is written for a text is one literal with the text as its
value. -/
theorem isLiteralBody_literalBody (text : String) :
    IsLiteralBody (literalBody text).toList text.toList := by
  rw [literalBody, String.toList_ofList]
  constructor
  case lines =>
    exact ⟨notMem_flatMap_escapeChar (.inl rfl) _, notMem_flatMap_escapeChar (.inr rfl) _⟩
  case quotes =>
    intro before after h
    obtain ⟨text₁, text₂, ⟨-, hm, -⟩ | ⟨rfl, -⟩ | ⟨-, hquote, -⟩⟩ := exists_origin h
    · cases hm
    · exact odd_backslashesAtEnd text₁
    · exact absurd rfl hquote
  case unicode =>
    intro before after h
    obtain ⟨text₁, text₂, ⟨-, -, d, c, hescaped, hafter⟩ | ⟨rfl, -⟩ | ⟨hbackslash, -⟩⟩ :=
      exists_origin h
    · -- no escape is a backslash and a `u`
      obtain ⟨rfl, -⟩ := List.cons.inj hafter
      cases hescaped
    · exact Nat.not_even_iff_odd.mpr (odd_backslashesAtEnd text₁)
    · exact absurd rfl hbackslash
  case unescape => exact unescape?_flatMap_escapeChar text.toList
  case reads => exact fun after h => readLiteral?_flatMap_escapeChar text.toList h

end TypedEntities.Java
