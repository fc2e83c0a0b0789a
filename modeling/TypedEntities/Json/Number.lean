import TypedEntities.Decimal.Shortest

/-!
# JSON numbers

A number without point and exponent that fits 64 bits, signed or unsigned, is an integer; every other
number, minus zero included, is a double. A double is written with the fewest digits that read back,
with a point while its first digit is neither far before nor far behind it and with an exponent
otherwise.
-/

namespace TypedEntities.Json

/-- The value of a JSON number. A double is kept as its bits. -/
inductive Number
  | integer (value : Int)
  | double (bits : UInt64)
deriving DecidableEq, Repr, Inhabited

/-- A JSON number as it is written. -/
structure NumberText where
  negative : Bool
  /-- The digits before the point. -/
  whole : List Nat
  /-- The digits after the point; none if there is no point. -/
  fraction : List Nat
  /-- Whether the exponent is negative, and its digits. -/
  exponent : Option (Bool × List Nat)
deriving DecidableEq, Repr, Inhabited

/-- The number that decimal digits stand for. -/
def ofDigits (digits : List Nat) : Nat := digits.foldl (fun n d => n * 10 + d) 0

/-! ## Reading a double -/

/-- The greatest significand that is read exactly. -/
def maxSignificand : Nat := 0xFFFFFFFFFFFFFFFF

/-- Digits before the point taken into the significand while it fits 64 bits; the others count as
powers of ten. -/
def takeWhole : (significand : Nat) → (digits : List Nat) → Nat × Int
  | n, [] => (n, 0)
  | n, d :: rest =>
    if n * 10 + d ≤ maxSignificand then takeWhole (n * 10 + d) rest else (n, (d :: rest).length)

/-- Digits after the point taken into the significand while it fits 64 bits; the others are left
out. -/
def takeFraction : (significand : Nat) → (exponent : Int) → (digits : List Nat) → Nat × Int
  | n, e, [] => (n, e)
  | n, e, d :: rest =>
    if n * 10 + d ≤ maxSignificand then takeFraction (n * 10 + d) (e - 1) rest else (n, e)

def powerOfTen (n : Nat) : Float := Float.ofScientific 1 false n

/-- A double times a power of ten, rounded; nothing if the result is not finite. Powers that are no
doubles themselves are applied in two steps. -/
def scale? (x : Float) (exponent : Int) : Option Float :=
  if 308 < exponent then if x == 0 then some x else none
  else if 0 ≤ exponent then
    let y := x * powerOfTen exponent.toNat
    if y.isInf then none else some y
  else if -308 ≤ exponent then some (x / powerOfTen (-exponent).toNat)
  else if -616 ≤ exponent then some (x / powerOfTen 308 / powerOfTen (-exponent - 308).toNat)
  else some 0

/-- The double that a written number is read as, unless it is too large. -/
def NumberText.double? (t : NumberText) : Option Number :=
  let (n, e) := takeWhole 0 t.whole
  let (n, e) := takeFraction n e t.fraction
  let e := match t.exponent with
    | none => e
    | some (true, digits) => e - ofDigits digits
    | some (false, digits) => e + ofDigits digits
  (scale? (Float.ofNat n) e).map fun x => .double (if t.negative then -x else x).toBits

/-- The value of a written number, unless it is too large. -/
def NumberText.value? (t : NumberText) : Option Number :=
  let n := ofDigits t.whole
  if !t.fraction.isEmpty || t.exponent.isSome then t.double?
  else if t.negative then
    if 0 < n ∧ n ≤ 0x8000000000000000 then some (.integer (-n)) else t.double?
  else if n < 0x10000000000000000 then some (.integer n)
  else t.double?

/-! ## Writing -/

/-- A decimal with a point in it; an integral one gets one digit after the point. `digits` are those
of the coefficient. -/
def plainText (digits : List Char) (exponent : Int) : List Char :=
  let point := (digits.length : Int) + exponent
  if 0 ≤ exponent then digits ++ List.replicate exponent.toNat '0' ++ ['.', '0']
  else if 0 < point then digits.take point.toNat ++ '.' :: digits.drop point.toNat
  else ['0', '.'] ++ List.replicate (-point).toNat '0' ++ digits

/-- A decimal with one digit before the point and the exponent with its sign. -/
def exponentText (digits : List Char) (exponent : Int) : List Char :=
  let point := match digits.tail with
    | [] => digits
    | more => digits.take 1 ++ '.' :: more
  let e := (digits.length : Int) - 1 + exponent
  point ++ 'e' :: (if e < 0 then '-' else '+') :: (Nat.toDigits 10 e.natAbs)

/-- A positive decimal: with a point while the exponent of its first digit is from -5 to 15. -/
def decimalText (d : Decimal.Scientific) : List Char :=
  let digits := Nat.toDigits 10 d.coefficient
  let leading := (digits.length : Int) - 1 + d.exponent
  if -5 ≤ leading ∧ leading ≤ 15 then plainText digits d.exponent
  else exponentText digits d.exponent

/-- The text of a number. -/
def Number.text : Number → String
  | .integer n => toString n
  | .double bits =>
    let sign := if bits.toNat < 0x8000000000000000 then [] else ['-']
    match Decimal.Positive.ofBits? bits with
    | none => String.ofList (sign ++ "0.0".toList)
    | some x => String.ofList (sign ++ decimalText (Decimal.shortest x))

end TypedEntities.Json
