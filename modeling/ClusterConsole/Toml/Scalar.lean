/-
The values that TOML spells without quotes or brackets: truth values, numbers, dates and times. Such
a spelling reaches up to the next blank, comma, bracket or comment, and is judged as a whole.
-/
import ClusterConsole.Binary64
import ClusterConsole.Toml

namespace ClusterConsole.Toml

/-! ## Digits -/

/-- Whether `c` is a digit in the given base. -/
def isDigitOf (base : Nat) (c : Char) : Bool := (Text.hexDigit? c).any (· < base)

/-- The value of a numeral, most significant digit first; underscores are of no account. -/
def numeral (base : Nat) (t : Text) : Nat :=
  t.foldl (fun n c => match Text.hexDigit? c with
    | some d => n * base + d
    | none => n) 0

/-- Whether `t` is made of digits in the given base, with single underscores between digits. -/
def isNumeral (base : Nat) : Text → Bool
  | [] => false
  | [c] => isDigitOf base c
  | c :: '_' :: cs => isDigitOf base c && isNumeral base cs
  | c :: cs => isDigitOf base c && isNumeral base cs

/-- Whether `t` is a decimal numeral without leading zeros. -/
def isPlainNumeral (t : Text) : Bool := isNumeral 10 t && (t.length == 1 || t.head? != some '0')

/-- A sign in front, and what follows it. -/
def cutSign : Text → Bool × Text
  | '-' :: t => (true, t)
  | '+' :: t => (false, t)
  | t => (false, t)

/-! ## Integers -/

/-- The integer if it has 64 bits. -/
def integerInRange (n : Int) : Option Toml :=
  if -0x8000000000000000 ≤ n ∧ n < 0x8000000000000000 then some (.integer n) else none

/-- A numeral in a base that a letter after a zero announces. -/
def basedInteger? (base : Nat) (t : Text) : Option Toml :=
  if isNumeral base t then integerInRange (numeral base t) else none

/-- The integer that is spelled. -/
def integer? : Text → Option Toml
  | '0' :: 'x' :: t => basedInteger? 16 t
  | '0' :: 'o' :: t => basedInteger? 8 t
  | '0' :: 'b' :: t => basedInteger? 2 t
  | t =>
    let (negative, digits) := cutSign t
    if isPlainNumeral digits then
      integerInRange (if negative then -(numeral 10 digits : Int) else numeral 10 digits)
    else none

/-! ## Floating-point numbers -/

/-- The parts of the spelling of a decimal fraction, without their marks. -/
structure Decimal where
  whole : Text
  fraction : Option Text
  exponent : Option Text

/-- Cuts a spelling at the point and at the letter of the exponent. -/
def Decimal.cut (t : Text) : Decimal :=
  let isLetter := fun c : Char => c == 'e' || c == 'E'
  let mantissa := t.takeWhile (!isLetter ·)
  let exponent := match t.dropWhile (!isLetter ·) with
    | [] => none
    | _ :: e => some e
  let fraction := match mantissa.dropWhile (· != '.') with
    | [] => none
    | _ :: f => some f
  ⟨mantissa.takeWhile (· != '.'), fraction, exponent⟩

/-- Whether the parts make a number, of which the fraction or the exponent may be left out. -/
def Decimal.isWellFormed (d : Decimal) : Bool :=
  isPlainNumeral d.whole && d.fraction.all (isNumeral 10) &&
    d.exponent.all (fun e => isNumeral 10 (cutSign e).2) && (d.fraction.isSome || d.exponent.isSome)

/-- Whether the number, without a sign, is beyond the greatest floating-point number. -/
def Decimal.overflows (d : Decimal) : Bool :=
  let fraction := (d.fraction.getD []).filter (· != '_')
  let significand := numeral 10 (d.whole ++ fraction)
  let (down, power) := cutSign (d.exponent.getD [])
  let e : Int := (if down then -(numeral 10 power : Int) else numeral 10 power) - fraction.length
  let size : Int := (Text.ofNat significand).length + e
  if significand = 0 ∨ size < 300 then false
  else if 320 < size then true
  else
    let (num, den) :=
      if 0 ≤ e then (significand * Nat.pow 10 e.toNat, 1) else (significand, Nat.pow 10 (-e).toNat)
    (Binary64.ofQuotient false num den).isNone

/-- The floating-point number that is spelled; an infinite one has to be spelled as such, unless it
is negative. -/
def float? (t : Text) : Option Toml :=
  let (negative, magnitude) := cutSign t
  let d := Decimal.cut magnitude
  if magnitude = "inf".toList ∨ magnitude = "nan".toList then some (.float t)
  else if d.isWellFormed && (negative || !d.overflows) then some (.float t)
  else none

/-! ## Dates and times -/

/-- Whether `t` is a numeral of two digits with a value from `low` to `high`. -/
def isTwoDigits (low high : Nat) (t : Text) : Bool :=
  t.length == 2 && t.all (isDigitOf 10) && low ≤ numeral 10 t && numeral 10 t ≤ high

/-- The number of days of a month. -/
def daysIn (year month : Nat) : Nat :=
  if month = 2 then
    if year % 4 = 0 ∧ (year % 100 ≠ 0 ∨ year % 400 = 0) then 29 else 28
  else if month = 4 ∨ month = 6 ∨ month = 9 ∨ month = 11 then 30
  else 31

/-- Whether `t` is a date such as `2024-02-29`. -/
def isDate (t : Text) : Bool :=
  match Text.splitOn '-' t with
  | [year, month, day] =>
    year.length == 4 && year.all (isDigitOf 10) && isTwoDigits 1 12 month &&
      isTwoDigits 1 (daysIn (numeral 10 year) (numeral 10 month)) day
  | _ => false

/-- Whether `t` is the seconds of a time, perhaps with a fraction. -/
def isSeconds (t : Text) : Bool :=
  isTwoDigits 0 60 (t.take 2) &&
    match t.drop 2 with
    | [] => true
    | '.' :: fraction => !fraction.isEmpty && fraction.all (isDigitOf 10)
    | _ => false

/-- Whether `t` is a time such as `07:32:00.5`. -/
def isTime (t : Text) : Bool :=
  match Text.splitOn ':' t with
  | [hour, minute, second] => isTwoDigits 0 23 hour && isTwoDigits 0 59 minute && isSeconds second
  | _ => false

/-- Whether `t` is an offset from universal time without its sign, such as `07:00`. -/
def isOffset (t : Text) : Bool :=
  match Text.splitOn ':' t with
  | [hour, minute] => isTwoDigits 0 23 hour && isTwoDigits 0 59 minute
  | _ => false

/-- Whether `t` is a time that an offset may follow. -/
def isOffsetTime (t : Text) : Bool :=
  let time := t.takeWhile fun c => c != 'Z' && c != 'z' && c != '+' && c != '-'
  isTime time &&
    match t.drop time.length with
    | [] => true
    | ['Z'] => true
    | ['z'] => true
    | '+' :: offset => isOffset offset
    | '-' :: offset => isOffset offset
    | _ => false

/-- Whether `c` separates a date from a time. -/
def isTimeMark (c : Char) : Bool := c == 'T' || c == 't' || c == ' '

/-- The date, the time, or both that are spelled. -/
def dateTime? (t : Text) : Option Toml :=
  let date := t.takeWhile (!isTimeMark ·)
  let accepted := match t.drop date.length with
    | [] => isDate t || isTime t
    | _ :: time => isDate date && isOffsetTime time
  if accepted then some (.dateTime t) else none

/-! ## Spellings -/

/-- The value that a whole spelling stands for. -/
def scalar? (t : Text) : Option Toml :=
  if t = "true".toList then some (.boolean true)
  else if t = "false".toList then some (.boolean false)
  else (dateTime? t).orElse fun _ => (float? t).orElse fun _ => integer? t

/-- Whether `c` ends a spelling. -/
def endsSpelling (c : Char) : Bool := [' ', '\t', '\n', '\r', ',', ']', '\x7d', '#'].contains c

/-- Whether a time continues a date after a space. -/
def continuesDate (date rest : Text) : Bool :=
  isDate date &&
    match rest with
    | ' ' :: a :: b :: ':' :: _ => isDigitOf 10 a && isDigitOf 10 b
    | _ => false

/-- The spelling at the front, and the text after it. -/
def cutSpelling (t : Text) : Text × Text :=
  let spelling := t.takeWhile (!endsSpelling ·)
  let rest := t.dropWhile (!endsSpelling ·)
  if continuesDate spelling rest then
    let time := (rest.drop 1).takeWhile (!endsSpelling ·)
    (spelling ++ ' ' :: time, (rest.drop 1).dropWhile (!endsSpelling ·))
  else (spelling, rest)

/-- Reads a value that is spelled without quotes or brackets. -/
def readScalar (t : Text) : Option (Toml × Text) :=
  let (spelling, rest) := cutSpelling t
  (scalar? spelling).map (·, rest)

end ClusterConsole.Toml
