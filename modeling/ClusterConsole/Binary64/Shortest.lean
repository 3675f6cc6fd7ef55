/-
The shortest decimal that reads back as a given number: of all decimals that round to the number,
one with the fewest digits, and of those the nearest. For each count of digits it is enough to try
the two neighbours of the number on the grid of that many digits.
-/
import ClusterConsole.Binary64

namespace ClusterConsole.Binary64

/-- How many digits the decimal numeral of `n` has. -/
def digitCount (n : Nat) : Nat := (Nat.toDigits 10 n).length

/-- The exponent of the leading decimal digit of `num / den`. -/
def leadingExponent (num den : Nat) : Int :=
  if den ≤ num then (digitCount (num / den) : Int) - 1
  else
    let d := digitCount (den / num)
    if num * Nat.pow 10 (d - 1) = den then -((d : Int) - 1) else -(d : Int)

/-- The interval of fractions that round to `x`, over a common denominator: the number itself, the
least and the greatest. Below a power of two the interval is half as wide. -/
def roundingInterval (x : Binary64) : (Nat × Nat × Nat) × Nat :=
  let below := if x.significand = 0x10000000000000 ∧ x.exponent ≠ -1074 then 1 else 2
  let m := 4 * x.significand
  let e := x.exponent - 2
  if 0 ≤ e then
    ((m <<< e.toNat, (m - below) <<< e.toNat, (m + 2) <<< e.toNat), 1)
  else ((m, m - below, m + 2), 1 <<< (-e).toNat)

/-- The nearest decimal of `n` digits that rounds to `x`, as its digits and the exponent of the
last one. -/
def decimalWith (x : Binary64) (n : Nat) : Option (Nat × Int) :=
  let ((value, least, greatest), den) := roundingInterval x
  let p : Int := leadingExponent value den - (n : Int) + 1
  let (up, down) := if 0 ≤ p then (Nat.pow 10 p.toNat, 1) else (1, Nat.pow 10 (-p).toNat)
  let inside (a : Nat) : Bool :=
    let t := a * up * den
    let lo := least * down
    let hi := greatest * down
    if x.significand % 2 = 0 then lo ≤ t && t ≤ hi else lo < t && t < hi
  -- the neighbour below and the one above, and how far each is from the number
  let a := value * down / (up * den)
  let belowError := value * down - a * up * den
  let aboveError := (a + 1) * up * den - value * down
  match inside a, inside (a + 1) with
  | true, true =>
    some (if belowError < aboveError ∨ (belowError = aboveError ∧ a % 2 = 0) then a else a + 1, p)
  | true, false => some (a, p)
  | false, true => some (a + 1, p)
  | false, false => none

/-- The first of the counts from `n` on, `fuel` of them, that has a decimal. -/
def firstDecimal (x : Binary64) : Nat → Nat → Nat × Int
  | 0, _ => (0, 0)
  | fuel + 1, n =>
    match decimalWith x n with
    | some d => d
    | none => firstDecimal x fuel (n + 1)

/-- The digits of the shortest decimal for a number other than zero, and the exponent of the first
of them. Seventeen digits always suffice. -/
def shortest (x : Binary64) : List Char × Int :=
  let (a, p) := firstDecimal x 17 1
  let digits := Nat.toDigits 10 a
  let kept := (digits.reverse.dropWhile (· == '0')).reverse
  (kept, p + digits.length - 1)

end ClusterConsole.Binary64
