import TypedEntities.Java.Lexical
import TypedEntities.Text.Basic

/-!
# Distinct constants for siblings

The constants of one enumeration come from display names, and different names can give the same
constant. `distinctConstants` gives every sibling a constant of its own: a constant that only one
sibling has, and that is not reserved, is kept; the others get a number after two underscores.
Numbers are given in the order of constant, name and id, so the result does not depend on the order
in which siblings with different names or ids are listed.
-/

namespace TypedEntities.Java

/-- A named thing that needs a constant among others of its kind. -/
structure Sibling where
  name : String
  id : String
deriving DecidableEq, Repr, Inhabited

/-- What siblings are sorted by. -/
def Sibling.key (s : Sibling) : Texts := ⟨[s.name, s.id]⟩

/-- A sibling with the constant its name gives and its place in the list of siblings. -/
structure Candidate where
  base : String
  sibling : Sibling
  place : Nat
deriving DecidableEq, Repr, Inhabited

/-- What contested candidates are numbered by. -/
def Candidate.key (c : Candidate) : Texts := ⟨[c.base, c.sibling.name, c.sibling.id]⟩

/-- The siblings with their constants and places. -/
def candidates (siblings : List Sibling) : List Candidate :=
  siblings.zipIdx.map fun (s, place) => ⟨constantName s.name, s, place⟩

/-- A constant that several siblings want, or that is reserved, goes to none of them unchanged. -/
def isContested (bases : List String) (reserved : Option String) (base : String) : Bool :=
  1 < bases.count base || reserved == some base

/-- A constant with a number after it. -/
def numbered (base : String) (n : Nat) : String := base ++ "__" ++ toString n

/-- The least number from `n` on whose constant is not taken; `tries` bounds the search, and as many
tries as there are taken constants are enough. -/
def firstFree (taken : List String) (base : String) : (tries n : Nat) → Nat
  | 0, n => n
  | tries + 1, n => if numbered base n ∈ taken then firstFree taken base tries (n + 1) else n

/-- The constants given out so far: those taken, and what each place among the siblings got. -/
structure Assignment where
  taken : List String
  given : List (Nat × String)

/-- Gives a candidate its constant. -/
def Assignment.give (contested : String → Bool) (a : Assignment) (c : Candidate) : Assignment :=
  if contested c.base then
    let constant := numbered c.base (firstFree a.taken c.base a.taken.length 1)
    ⟨constant :: a.taken, (c.place, constant) :: a.given⟩
  else ⟨a.taken, (c.place, c.base) :: a.given⟩

/-- One constant per sibling, in the order of the siblings; all differ from each other and from the
reserved one. -/
def distinctConstants (siblings : List Sibling) (reserved : Option String) : List String :=
  let all := candidates siblings
  let bases := all.map Candidate.base
  let contested := isContested bases reserved
  let start : Assignment := ⟨reserved.toList ++ bases.filter (!contested ·), []⟩
  let final := (all.mergeSort fun a b => a.key ≤ b.key).foldl (Assignment.give contested) start
  (final.given.mergeSort fun a b => a.1 ≤ b.1).map (·.2)

/-- The constants that stand for names which are their own ids. -/
def constantsForNames (names : List String) : List (String × String) :=
  (distinctConstants (names.map fun name => ⟨name, name⟩) none).zip names

end TypedEntities.Java
