import FunctionService.Json.Basic

/-!
# Number literals

A number literal has an integer part without superfluous zeros, and optionally a fraction and an
exponent. It denotes an integer when it has neither, is not a negative zero, and fits in 64 bits,
signed or unsigned. Every other literal denotes a floating-point number, and has no value when it is
too large for one.
-/

namespace FunctionService.Json

/-- The parts of a number literal. -/
structure Numeral where
  negative : Bool
  whole : List Char
  fraction : List Char
  exponent : Int
  /-- Neither a fraction nor an exponent is written. -/
  plain : Bool

/-- The number that decimal digits spell. -/
def digitsValue (digits : List Char) : Nat :=
  digits.foldl (fun n d => 10 * n + (d.toNat - '0'.toNat)) 0

namespace Numeral

/-- The fraction after the integer part, if a point follows; at least one digit belongs to it. -/
def splitFraction : List Char → Option (Option (List Char) × List Char)
  | '.' :: rest =>
    match rest.takeWhile Char.isDigit with
    | [] => none
    | digits => some (some digits, rest.dropWhile Char.isDigit)
  | rest => some (none, rest)

/-- One or more digits that end the literal. -/
def lastDigits (cs : List Char) : Option Nat :=
  if cs.isEmpty || !cs.all Char.isDigit then none else some (digitsValue cs)

/-- The exponent, if the letter that announces one follows; it ends the literal. -/
def splitExponent : List Char → Option (Option Int)
  | [] => some none
  | e :: rest =>
    if e == 'e' || e == 'E' then
      match rest with
      | '-' :: digits => (lastDigits digits).map fun n => some (-(n : Int))
      | '+' :: digits => (lastDigits digits).map fun n => some (n : Int)
      | digits => (lastDigits digits).map fun n => some (n : Int)
    else none

/-- The integer part is a zero alone or starts with another digit. -/
def wholeOk : List Char → Bool
  | [] => false
  | ['0'] => true
  | '0' :: _ => false
  | _ => true

/-- Reads a literal, sign first. -/
def ofChars (cs : List Char) : Option Numeral := do
  let (negative, cs) := match cs with
    | '-' :: rest => (true, rest)
    | _ => (false, cs)
  let whole := cs.takeWhile Char.isDigit
  guard (wholeOk whole)
  let (fraction, rest) ← splitFraction (cs.dropWhile Char.isDigit)
  let exponent ← splitExponent rest
  return {
    negative, whole
    fraction := fraction.getD []
    exponent := exponent.getD 0
    plain := fraction.isNone && exponent.isNone }

/-- Appends digits to a significand for as long as the result fits in 64 bits. The digits from the first
one that does not fit are handed back. -/
def extend : Nat → List Char → Nat × List Char
  | s, [] => (s, [])
  | s, d :: rest =>
    let longer := 10 * s + (d.toNat - '0'.toNat)
    if longer < UInt64.size then extend longer rest else (s, d :: rest)

/-- The significand of a literal and the power of ten that goes with it. Digits in front of the point
that the significand has no room for still count in the power; those behind the point do not. -/
def scaled (n : Numeral) : Nat × Int :=
  let (whole, beyond) := extend 0 n.whole
  let (significand, dropped) := extend whole n.fraction
  (significand, n.exponent + beyond.length - (n.fraction.length - dropped.length : Nat))

/-- The natural number nearest to another that has at most 53 binary digits in front of zeros; of two
that are equally near, the one whose last digit is even. -/
def nearest53 (n : Nat) : Nat :=
  let unit := Nat.pow 2 (n.log2 - 52)
  let digits := n / unit
  let rest := 2 * (n % unit)
  (if rest > unit || (rest == unit && digits % 2 == 1) then digits + 1 else digits) * unit

/-- Products from here on are too large for a double: the nearest double would be infinite. -/
def overflow : Nat :=
  Nat.pow 2 1024 - Nat.pow 2 970

/-- The greatest power of ten that is a double. -/
def maxPower : Nat :=
  308

/-- Whether a literal has a value as a double. The value is the product of two doubles, the ones nearest
to the significand and to its power of ten, so a few literals just below the greatest double have none
and a few just above it have one. -/
def finite (n : Numeral) : Bool :=
  let (significand, power) := n.scaled
  if significand == 0 || power ≤ 0 then true
  else if power > maxPower then false
  else nearest53 significand * nearest53 (Nat.pow 10 power.toNat) < overflow

/-- The integer that a plain literal spells. A negative zero is not one. -/
def integer? (n : Numeral) : Option Int :=
  if !n.plain then none
  else if n.negative then
    let magnitude := digitsValue n.whole
    if magnitude == 0 || magnitude > 0x8000000000000000 then none else some (-(magnitude : Int))
  else
    let magnitude := digitsValue n.whole
    if magnitude < UInt64.size then some magnitude else none

end Numeral

/-- The value of a number literal: an integer, another number, or nothing for one that is too large. -/
def ofNumeral (literal : String) : Option Json := do
  let n ← Numeral.ofChars literal.toList
  match n.integer? with
  | some i => return .int i
  | none => if n.finite then return .real literal else none

end FunctionService.Json
