import ItemCatalog.Number.Double

/-!
# Decimal numbers as text

`Decimal` is a whole number of powers of ten. `Decimal.read?` reads one from text: digits with an
optional point, at least one digit in all, and an optional exponent. `Double.read?` adds the sign and
the names of the numbers that have no digits. Reading is exact; only `Decimal.toDouble` rounds, once.
-/

namespace ItemCatalog

/-- The number `digits · 10^exponent`. -/
structure Decimal where
  digits : Nat
  exponent : Int
  deriving DecidableEq, Repr

/-- The value of a digit. -/
def digitValue (c : Char) : Nat :=
  c.toNat - '0'.toNat

/-- The number that a run of digits writes, read from the left. -/
def digitsValue (cs : List Char) : Nat :=
  cs.foldl (fun n c => 10 * n + digitValue c) 0

/-- A number written with digits. -/
def digitsOf (n : Nat) : List Char :=
  Nat.toDigits 10 n

namespace Decimal

/-- The nearest number of double precision. Past 310 digits before the point a number is infinite,
and with 400 zeros after it it is zero, so the powers stay small. -/
def toDouble (negative : Bool) (d : Decimal) : Double :=
  let size := d.exponent + (digitsOf d.digits).length
  if d.digits = 0 then .finite negative 0
  else if 310 < size then .infinite negative
  else if size < -400 then .finite negative 0
  else if 0 ≤ d.exponent then Double.ofRatio negative (d.digits * Nat.pow 10 d.exponent.toNat) 1
  else Double.ofRatio negative d.digits (Nat.pow 10 (-d.exponent).toNat)

/-- Splits off a sign; without one a number is positive. -/
def splitSign : List Char → Bool × List Char
  | '-' :: rest => (true, rest)
  | '+' :: rest => (false, rest)
  | rest => (false, rest)

/-- A signed run of digits, at least one, and nothing else. -/
def readExponent? (cs : List Char) : Option Int :=
  let (negative, ds) := splitSign cs
  if ds.isEmpty || !ds.all Char.isDigit then none
  else if negative then some (-(digitsValue ds : Int)) else some (digitsValue ds)

/-- The digits after a point, if there is one, and what follows them. -/
def splitFraction : List Char → List Char × List Char
  | '.' :: rest => rest.span Char.isDigit
  | rest => ([], rest)

/-- An unsigned decimal number such as `12`, `1.5`, `.5`, `5.` or `1e-3`. -/
def read? (cs : List Char) : Option Decimal :=
  let (whole, afterWhole) := cs.span Char.isDigit
  let (fraction, tail) := splitFraction afterWhole
  let digits := digitsValue (whole ++ fraction)
  if whole.isEmpty && fraction.isEmpty then none
  else match tail with
    | [] => some ⟨digits, -fraction.length⟩
    | c :: exponent =>
      if c = 'e' || c = 'E' then
        (readExponent? exponent).map fun e => ⟨digits, e - fraction.length⟩
      else none

end Decimal

namespace Double

/-- The text in small letters, for the names of numbers. -/
def namedNumber? (negative : Bool) (cs : List Char) : Option Double :=
  let name := cs.map Char.toLower
  if name = "inf".toList || name = "infinity".toList then some (.infinite negative)
  else if name = "nan".toList then some .nan
  else none

/-- Reads a signed number; `inf`, `infinity` and `nan` may be written in any case. -/
def read? (cs : List Char) : Option Double :=
  let (negative, body) := Decimal.splitSign cs
  match namedNumber? negative body with
  | some x => some x
  | none => (Decimal.read? body).map (Decimal.toDouble negative)

end Double

end ItemCatalog
