import ItemCatalog.Json.Token
import ItemCatalog.Number.Decimal

/-!
# Numbers in JSON

A number is an optional minus sign, digits without a needless zero in front, an optional fraction and
an optional exponent. Whole numbers of 64 bits are exact. The value of any other is computed from its
leading digits, as many as fit 64 bits, and one power of ten, each rounded to double precision.
-/

namespace ItemCatalog.Json

/-- The parts of a number as written. `exponent` is a sign, true for minus, with digits. -/
structure Numeral where
  negative : Bool
  whole : List Char
  fraction : Option (List Char)
  exponent : Option (Bool × List Char)
  deriving Repr

/-- One more than the largest number of 64 bits. -/
def wordLimit : Nat := UInt64.size

/-- One more than the largest exponent that is counted. -/
def exponentLimit : Nat := Nat.pow 2 31

/-- The leading digits as one number of 64 bits, and how many digits are left out. -/
def leadingDigits (n : Nat) : List Char → Nat × Nat
  | [] => (n, 0)
  | c :: rest =>
    let next := 10 * n + digitValue c
    if next < wordLimit then leadingDigits next rest else (n, rest.length + 1)

/-- A power of ten in double precision. -/
def powerOfTen (n : Nat) : Double :=
  Double.ofNat (Nat.pow 10 n)

/-- `x · 10^exponent` by one multiplication or division where the power is within range, and by
divisions in steps where it is smaller. Infinite results are out of range. -/
def scaled (x : Double) (exponent : Int) : Nat → Except Fault Double
  | 0 => .ok x
  | fuel + 1 =>
    if exponent.natAbs ≤ 308 then
      if 0 ≤ exponent then
        match x * powerOfTen exponent.natAbs with
        | .infinite _ => .error .malformed
        | product => .ok product
      else .ok (x / powerOfTen exponent.natAbs)
    else if x.same .zero then .ok x
    else if 0 ≤ exponent then .error .malformed
    else scaled (x / powerOfTen 308) (exponent + 308) fuel

/-- The double-precision value of leading digits with a power of ten. Past a few steps of scaling
down nothing is left of a number. -/
def realValue (negative : Bool) (digits : Nat) (exponent : Int) : Except Fault Number := do
  let x ← scaled (Double.ofNat digits) exponent 5
  return .real (if negative then -x else x)

namespace Numeral

/-- The value of an exponent as written, or nothing when it is too large to be counted. -/
def exponentValue? (ds : List Char) : Option Nat :=
  let n := digitsValue ds
  if n < exponentLimit then some n else none

/-- The leading digits of a number with the power of ten that belongs to them. Digits of the whole
part that do not fit count as zeros, digits of the fraction that do not fit are dropped. -/
def significant (n : Numeral) : Nat × Int :=
  let (digits, dropped) := leadingDigits 0 n.whole
  let fraction := n.fraction.getD []
  let (digits, unread) := leadingDigits digits fraction
  (digits, dropped - ((fraction.length - unread : Nat) : Int))

/-- The value of a number that is not a whole number of 64 bits. -/
def toReal (n : Numeral) : Except Fault Number :=
  let (digits, power) := n.significant
  match n.exponent with
  | none => realValue n.negative digits power
  | some (down, ds) =>
    match exponentValue? ds with
    | some e => realValue n.negative digits (if down then power - e else power + e)
    | none =>
      if digits = 0 || down then .ok (.real (.finite n.negative 0)) else .error .malformed

/-- The value of a number. Minus zero is not a whole number, nor is one below the range of 64 bits. -/
def value (n : Numeral) : Except Fault Number :=
  let digits := digitsValue n.whole
  if n.fraction.isSome || n.exponent.isSome || wordLimit ≤ digits then n.toReal
  else if !n.negative then .ok (.whole digits)
  else if digits = 0 || Nat.pow 2 63 < digits then .ok (.real (-Double.ofNat digits))
  else .ok (.whole (-digits))

end Numeral

/-- Digits, at least one; without one the number is broken. -/
def splitDigits (cs : List Char) : Except Fault (List Char × List Char) :=
  let (digits, rest) := cs.span Char.isDigit
  if digits.isEmpty then .error (if rest.isEmpty then .truncated else .malformed)
  else .ok (digits, rest)

/-- The whole part: a zero stands alone. -/
def splitWhole (cs : List Char) : Except Fault (List Char × List Char) := do
  let (digits, rest) ← splitDigits cs
  if digits.head? = some '0' && digits.length ≠ 1 then throw .malformed else return (digits, rest)

/-- The fraction, if there is one. -/
def splitFraction : List Char → Except Fault (Option (List Char) × List Char)
  | '.' :: rest => do
    let (digits, rest) ← splitDigits rest
    return (some digits, rest)
  | rest => .ok (none, rest)

/-- The exponent, if there is one. -/
def splitExponent : List Char → Except Fault (Option (Bool × List Char) × List Char)
  | c :: rest =>
    if c = 'e' || c = 'E' then do
      let (down, rest) := Decimal.splitSign rest
      let (digits, rest) ← splitDigits rest
      return (some (down, digits), rest)
    else .ok (none, c :: rest)
  | [] => .ok (none, [])

/-- Splits a number off a text that starts with a digit or a minus sign. -/
def splitNumeral (cs : List Char) : Except Fault (Numeral × List Char) := do
  let (negative, cs) := match cs with
    | '-' :: rest => (true, rest)
    | cs => (false, cs)
  let (whole, cs) ← splitWhole cs
  let (fraction, cs) ← splitFraction cs
  let (exponent, cs) ← splitExponent cs
  return (⟨negative, whole, fraction, exponent⟩, cs)

end ItemCatalog.Json
