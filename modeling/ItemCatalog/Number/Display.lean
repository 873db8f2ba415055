import ItemCatalog.Number.Shortest

/-!
# Written forms of numbers

* `Double.plain`: the shortest digits that read back, without an exponent;
* `Double.withPointChars`: the shortest digits that read back, always marked as a fraction, with an
  exponent for numbers from `10¹⁶` on and below `10⁻⁵`;
* `Double.signedHundredths`: a sign and two places, a half going to the even neighbour.
-/

namespace ItemCatalog

/-- `places` digits after the point of a number written with digits. -/
def withPlaces (digits : List Char) (places : Nat) : List Char :=
  let padded := List.replicate (places + 1 - digits.length) '0' ++ digits
  let whole := padded.take (padded.length - places)
  if places = 0 then whole else whole ++ '.' :: padded.drop (padded.length - places)

/-- A decimal without an exponent. -/
def Decimal.positional (d : Decimal) : List Char :=
  if 0 ≤ d.exponent then digitsOf d.digits ++ List.replicate d.exponent.toNat '0'
  else withPlaces (digitsOf d.digits) (-d.exponent).toNat

/-- A decimal with one digit before the point and an exponent with its sign; a lone digit has no
point. -/
def Decimal.scientific (d : Decimal) : List Char :=
  let digits := digitsOf d.digits
  let exponent := d.exponent + digits.length - 1
  let mantissa := match digits with
    | [] => []
    | [c] => [c]
    | c :: rest => c :: '.' :: rest
  let power := digitsOf exponent.natAbs
  mantissa ++ 'e' :: (if exponent < 0 then '-' else '+') :: power

namespace Double

/-- The text of the sign of a number. -/
def minus (negative : Bool) : List Char :=
  if negative then ['-'] else []

/-- The shortest digits that read back, in positional notation. -/
def plainChars : Double → List Char
  | .finite negative magnitude =>
    minus negative ++ if magnitude = 0 then ['0'] else (shortest .up magnitude).positional
  | .infinite negative => minus negative ++ "inf".toList
  | .nan => "NaN".toList

/-- The shortest digits that read back, in positional notation. -/
def plain (x : Double) : String :=
  String.ofList x.plainChars

/-- Whether a decimal of this size is written without an exponent. -/
def isPositional (d : Decimal) : Bool :=
  let pointAt := d.exponent + (digitsOf d.digits).length
  decide (-5 < pointAt ∧ pointAt ≤ 16)

/-- The shortest digits that read back, marked as a number with a fraction: a whole number ends in
`.0`, and very large or small numbers carry an exponent. The numbers without digits are `null`. -/
def withPointChars : Double → List Char
  | .finite negative magnitude =>
    minus negative ++
      if magnitude = 0 then "0.0".toList
      else
        let d := shortest .even magnitude
        if !isPositional d then d.scientific
        else if 0 ≤ d.exponent then d.positional ++ ".0".toList
        else d.positional
  | _ => "null".toList

/-- A sign, and the exact value rounded to two places; a tie goes to the even neighbour. -/
def signedHundredths : Double → String
  | .finite negative magnitude =>
    let hundredths := roundedQuotient (magnitude * 100) one
    String.ofList ((if negative then '-' else '+') :: withPlaces (digitsOf hundredths) 2)
  | .infinite negative => if negative then "-inf" else "+inf"
  | .nan => "NaN"

end Double

end ItemCatalog
