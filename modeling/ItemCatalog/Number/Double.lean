/-!
# Double-precision numbers

A finite number of double precision is a whole multiple of `2⁻¹⁰⁷⁴`, the least positive one, with at
most 53 significant bits. `Double` stores that multiple and a sign, so that every operation is what
its definition says: the exact result, rounded once to the nearest representable number, a tie going
to the even neighbour.

* `Double.roundMagnitude` rounds a positive ratio of units;
* `Double.add`, `sub`, `mul`, `div` and `fusedMultiplyAdd` round their exact results once;
* `Double.position` places a number on the line, and `Double.compare?` compares positions;
* `Double.ofRatio`, `ofNat` and `ofInt` make numbers, `Double.truncated` reads the whole part.
-/

namespace ItemCatalog

/-- A number of double precision. `finite negative magnitude` is `± magnitude · 2⁻¹⁰⁷⁴`; zero comes
with both signs. -/
inductive Double
  | finite (negative : Bool) (magnitude : Nat)
  | infinite (negative : Bool)
  | nan
  deriving DecidableEq, Repr, Inhabited

/-- The whole number nearest to `num / den`; a tie goes to the even one. -/
def roundedQuotient (num den : Nat) : Nat :=
  let quotient := num / den
  let twice := 2 * (num % den)
  if twice < den then quotient
  else if den < twice then quotient + 1
  else if quotient % 2 = 0 then quotient
  else quotient + 1

namespace Double

/-- How many units make one: `1 = 2¹⁰⁷⁴ · 2⁻¹⁰⁷⁴`. -/
def one : Nat := Nat.pow 2 1074

/-- The first magnitude that is too large to be finite, `2¹⁰²⁴`. -/
def limit : Nat := Nat.pow 2 2098

/-- How many significant bits a number has. -/
def precision : Nat := 53

/-- The lowest bit that a number of this magnitude can carry, as an exponent of two. -/
def lowestBit (magnitude : Nat) : Nat :=
  magnitude.log2 + 1 - precision

/-- The magnitude nearest to `num / den` units among those with at most 53 significant bits. -/
def roundMagnitude (num den : Nat) : Nat :=
  let shift := lowestBit (num / den)
  roundedQuotient num (den <<< shift) <<< shift

/-- `± num / den` units, rounded. -/
def ofUnits (negative : Bool) (num den : Nat) : Double :=
  let magnitude := roundMagnitude num den
  if magnitude < limit then .finite negative magnitude else .infinite negative

/-- `± num / den`, rounded. -/
def ofRatio (negative : Bool) (num den : Nat) : Double :=
  ofUnits negative (num * one) den

/-- The nearest number to a natural one. -/
def ofNat (n : Nat) : Double :=
  ofRatio false n 1

/-- The nearest number to a whole one. -/
def ofInt (n : Int) : Double :=
  ofRatio (decide (n < 0)) n.natAbs 1

/-- Positive zero. -/
def zero : Double := .finite false 0

instance : OfNat Double n := ⟨ofNat n⟩

/-- Neither infinite nor undefined. -/
def isFinite : Double → Bool
  | .finite _ _ => true
  | _ => false

/-- Where a number stands on the line, in units; the infinities stand just outside the finite
numbers. Both zeros have one place. -/
def position : Double → Option Int
  | .finite negative magnitude => some (if negative then -(magnitude : Int) else magnitude)
  | .infinite negative => some (if negative then -(limit : Int) else limit)
  | .nan => none

/-- The order of two numbers; `nan` is comparable with nothing. -/
def compare? (x y : Double) : Option Ordering :=
  match x.position, y.position with
  | some a, some b => some (compare a b)
  | _, _ => none

/-- Both stand at one place. -/
def same (x y : Double) : Bool :=
  x.compare? y == some .eq

/-- The first stands before the second. -/
def below (x y : Double) : Bool :=
  x.compare? y == some .lt

/-- The order for sorting: what cannot be compared counts as equal. -/
def order (x y : Double) : Ordering :=
  (x.compare? y).getD .eq

/-- The larger of two numbers; a number wins over `nan`. -/
def larger (x y : Double) : Double :=
  match x, y with
  | .nan, y => y
  | x, .nan => x
  | x, y => if x.below y then y else x

/-- The opposite number. -/
def neg : Double → Double
  | .finite negative magnitude => .finite (!negative) magnitude
  | .infinite negative => .infinite (!negative)
  | .nan => .nan

/-- The exact sum `± a / den ± b / den` units, rounded. A sum of zero is positive unless both parts
are negative. -/
def sumOfUnits (negA : Bool) (a : Nat) (negB : Bool) (b : Nat) (den : Nat) : Double :=
  if negA = negB then ofUnits negA (a + b) den
  else if a = b then zero
  else if b < a then ofUnits negA (a - b) den
  else ofUnits negB (b - a) den

/-- The sum, rounded once. -/
def add : Double → Double → Double
  | .finite s m, .finite t n => sumOfUnits s m t n 1
  | .finite _ _, .infinite t => .infinite t
  | .infinite s, .finite _ _ => .infinite s
  | .infinite s, .infinite t => if s = t then .infinite s else .nan
  | _, _ => .nan

/-- The difference, rounded once. -/
def sub (x y : Double) : Double :=
  x.add y.neg

/-- The product, rounded once. -/
def mul : Double → Double → Double
  | .finite s m, .finite t n => ofUnits (s != t) (m * n) one
  | .finite s m, .infinite t => if m = 0 then .nan else .infinite (s != t)
  | .infinite s, .finite t n => if n = 0 then .nan else .infinite (s != t)
  | .infinite s, .infinite t => .infinite (s != t)
  | _, _ => .nan

/-- The quotient, rounded once. -/
def div : Double → Double → Double
  | .finite s m, .finite t n =>
    if n = 0 then if m = 0 then .nan else .infinite (s != t)
    else ofUnits (s != t) (m * one) n
  | .finite s _, .infinite t => .finite (s != t) 0
  | .infinite s, .finite t _ => .infinite (s != t)
  | _, _ => .nan

/-- `x * y + z`, rounded once and not after the product. The exact product of finite numbers is
finite. -/
def fusedMultiplyAdd : Double → Double → Double → Double
  | .finite s m, .finite t n, .finite u p => sumOfUnits (s != t) (m * n) u (p * one) one
  | .finite _ _, .finite _ _, .infinite u => .infinite u
  | x, y, z => (x.mul y).add z

instance : Neg Double := ⟨neg⟩
instance : Add Double := ⟨add⟩
instance : Mul Double := ⟨mul⟩
instance : Div Double := ⟨div⟩

/-- Has no digits after the point. -/
def isWhole : Double → Bool
  | .finite _ magnitude => magnitude % one = 0
  | _ => false

/-- The whole part of a finite number. -/
def truncated : Double → Int
  | .finite negative magnitude =>
    if negative then -((magnitude / one : Nat) : Int) else (magnitude / one : Nat)
  | _ => 0

/-- The nearest whole number; a half goes away from zero. -/
def roundedHalfAway : Double → Double
  | .finite negative magnitude => .finite negative ((magnitude + one / 2) / one * one)
  | x => x

/-- A number of single precision, which double precision holds exactly. -/
def ofSingle (x : Float32) : Double :=
  let bits := x.toBits.toNat
  let negative := decide (Nat.pow 2 31 ≤ bits)
  let exponent := bits / Nat.pow 2 23 % 256
  let fraction := bits % Nat.pow 2 23
  if exponent = 255 then
    if fraction = 0 then .infinite negative else .nan
  else if exponent = 0 then .finite negative (fraction <<< 925)
  else .finite negative ((Nat.pow 2 23 + fraction) <<< (exponent + 924))

end Double

end ItemCatalog
