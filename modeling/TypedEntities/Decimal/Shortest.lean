/-!
# The shortest decimal of a double

A finite double stands for every real number that rounds to it. `shortest` finds, among the decimals
in that interval with the fewest digits, the one nearest to the double. All arithmetic is exact, on
natural numbers.
-/

namespace TypedEntities.Decimal

/-- The decimal `coefficient * 10 ^ exponent`. -/
structure Scientific where
  coefficient : Nat
  exponent : Int
deriving DecidableEq, Repr, Inhabited

/-- A positive finite double `significand * 2 ^ exponent`. `lowerHalf` says that the next smaller
double is half as far away as the next greater one. -/
structure Positive where
  significand : Nat
  exponent : Int
  lowerHalf : Bool
deriving DecidableEq, Repr, Inhabited

/-- The magnitude of the finite double with the given bits, unless it is zero. -/
def Positive.ofBits? (bits : UInt64) : Option Positive :=
  let fraction : Nat := bits.toNat % 0x10000000000000
  let biased : Nat := bits.toNat / 0x10000000000000 % 0x800
  if biased = 0 then
    if fraction = 0 then none else some ⟨fraction, -1074, false⟩
  else some ⟨0x10000000000000 + fraction, (biased : Int) - 1075, fraction = 0 && 1 < biased⟩

/-- A fraction of natural numbers; the denominator is positive. -/
structure Ratio where
  num : Nat
  den : Nat
deriving DecidableEq, Repr, Inhabited

/-- The fraction `n * base ^ exponent`. -/
def Ratio.scaled (n base : Nat) (exponent : Int) : Ratio :=
  if 0 ≤ exponent then ⟨n * Nat.pow base exponent.toNat, 1⟩ else ⟨n, Nat.pow base (-exponent).toNat⟩

def Ratio.le (a b : Ratio) : Bool := a.num * b.den ≤ b.num * a.den

def Ratio.lt (a b : Ratio) : Bool := a.num * b.den < b.num * a.den

/-- The double itself. -/
def Positive.value (x : Positive) : Ratio := .scaled (4 * x.significand) 2 (x.exponent - 2)

/-- Where the interval of numbers that round to the double begins. -/
def Positive.low (x : Positive) : Ratio :=
  .scaled (4 * x.significand - if x.lowerHalf then 1 else 2) 2 (x.exponent - 2)

/-- Where the interval of numbers that round to the double ends. -/
def Positive.high (x : Positive) : Ratio := .scaled (4 * x.significand + 2) 2 (x.exponent - 2)

/-- Whether a number rounds to the double: a number halfway between two doubles goes to the one with
the even significand. -/
def Positive.covers (x : Positive) (r : Ratio) : Bool :=
  if x.significand % 2 = 0 then x.low.le r && r.le x.high else x.low.lt r && r.lt x.high

/-- The number of decimal digits of a positive number. -/
def digitCount (n : Nat) : Nat := (Nat.toDigits 10 n).length

/-- How many places after the point the first digit other than zero of a fraction below one is at;
`places` bounds the search. -/
def leadingPlace (r : Ratio) : (places start : Nat) → Nat
  | 0, start => start
  | places + 1, start =>
    if r.den ≤ r.num * Nat.pow 10 start then start else leadingPlace r places (start + 1)

/-- The exponent of ten of the first digit of a positive fraction not below `10 ^ -400`. -/
def leadingExponent (r : Ratio) : Int :=
  if r.den ≤ r.num then (digitCount (r.num / r.den) : Int) - 1 else -(leadingPlace r 400 1 : Int)

/-- The multiple of `10 ^ exponent` below or at the double and the next one, the nearer one first;
of two equally near the even one. -/
def neighbours (value : Ratio) (exponent : Int) : List Nat :=
  let unit := Ratio.scaled 1 10 exponent
  let num := value.num * unit.den
  let den := value.den * unit.num
  let below := num / den
  let twice := 2 * (num % den)
  if twice < den || (twice == den && below % 2 == 0) then [below, below + 1]
  else [below + 1, below]

/-- The decimal without the zeros at the end of its coefficient; `digits` bounds their number. -/
def dropZeros : (digits : Nat) → Scientific → Scientific
  | 0, d => d
  | digits + 1, d =>
    if d.coefficient % 10 = 0 then dropZeros digits ⟨d.coefficient / 10, d.exponent + 1⟩ else d

/-- The nearest decimal with the given number of digits that rounds to the double, if there is
one. -/
def withDigits? (x : Positive) (digits : Nat) : Option Scientific :=
  let exponent := leadingExponent x.value - (digits - 1)
  ((neighbours x.value exponent).find? fun n => x.covers (.scaled n 10 exponent)).map
    fun n => ⟨n, exponent⟩

/-- The nearest of the decimals with the fewest digits that round to the double. Seventeen digits
are always enough. -/
def shortest (x : Positive) : Scientific :=
  dropZeros 17 (((List.range 17).findSome? fun n => withDigits? x (n + 1)).getD ⟨0, 0⟩)

end TypedEntities.Decimal
