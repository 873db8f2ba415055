import ItemCatalog.Config.Escape
import ItemCatalog.Config.Setting
import ItemCatalog.Number.Decimal
import ItemCatalog.Text.Word

/-!
# Values in TOML

The values of a TOML document: texts in four kinds of quotation marks, numbers in four bases, truth
values, points in time, lists and tables in one line. A reader takes a value off the front of a text
and fails where there is none.
-/

namespace ItemCatalog.Config.Toml

/-- Takes something off the front of a text. -/
abbrev Reader (α : Type) := List Char → Option (α × List Char)

/-- A space or a tab. -/
def isSpace (c : Char) : Bool :=
  c = ' ' || c = '\t'

/-- A text without the spaces in front. -/
def skipSpace (cs : List Char) : List Char :=
  cs.dropWhile isSpace

/-- What follows the end of a line, if the text starts with one. -/
def afterLineEnd? : List Char → Option (List Char)
  | '\n' :: rest => some rest
  | '\r' :: '\n' :: rest => some rest
  | _ => none

/-- What follows a comment, if the text starts with one. Fails on control characters in it. -/
def skipComment : List Char → Option (List Char)
  | '#' :: rest =>
    let (comment, rest) := rest.span fun c => c != '\n' && c != '\r'
    if comment.all isPlain then some rest else none
  | cs => some cs

/-- Skips spaces, line ends and comments. Each step uses up a character, so `fuel` is the number of
characters. -/
def skipLinesWith : Nat → List Char → Option (List Char)
  | 0, cs => some cs
  | fuel + 1, cs => do
    let cs ← skipComment (skipSpace cs)
    match afterLineEnd? cs with
    | some rest => skipLinesWith fuel rest
    | none => return cs

/-- Skips spaces, line ends and comments. -/
def skipLines (cs : List Char) : Option (List Char) :=
  skipLinesWith (cs.length + 1) cs

/-- What follows a given beginning. -/
def after? (start : String) (cs : List Char) : Option (List Char) :=
  if start.toList.isPrefixOf cs then some (cs.drop start.length) else none

/-! ## Texts -/

/-- A text in single quotation marks, where nothing is escaped, behind the opening one. -/
def literalText? : Reader (List Char)
  | cs =>
    let (text, rest) := cs.span fun c => c != '\'' && c != '\n' && c != '\r'
    match rest with
    | '\'' :: rest => if text.all isPlain then some (text, rest) else none
    | _ => none

/-- The quotation marks at the end of a text over several lines: the last three close it, and up to
two more belong to it. -/
def closingMarks? (mark : Char) (cs : List Char) : Option (List Char × List Char) :=
  let marks := cs.takeWhile (· = mark)
  if marks.length < 3 then none
  else
    let own := min (marks.length - 3) 2
    some (List.replicate own mark, cs.drop (own + 3))

/-- Reads a text over several lines behind its opening marks. `escapes` says whether a backslash
escapes. -/
def longTextWith? (mark : Char) (escapes : Bool) : Nat → Reader (List Char)
  | 0, _ => none
  | _, [] => none
  | fuel + 1, c :: rest =>
    if c = mark then
      match closingMarks? mark (c :: rest) with
      | some result => some result
      | none => (longTextWith? mark escapes fuel rest).map fun (text, rest) => (c :: text, rest)
    else if escapes && c = '\\' then
      match afterLineEnd? (skipSpace rest) with
      | some next => longTextWith? mark escapes fuel (next.dropWhile fun c => isSpace c || c = '\n' || c = '\r')
      | none => do
        let (c, rest) ← escape? rest
        let (text, rest) ← longTextWith? mark escapes fuel rest
        return (c :: text, rest)
    else
      match afterLineEnd? (c :: rest) with
      | some rest => (longTextWith? mark escapes fuel rest).map fun (text, rest) => ('\n' :: text, rest)
      | none =>
        if isPlain c then
          (longTextWith? mark escapes fuel rest).map fun (text, rest) => (c :: text, rest)
        else none

/-- A text over several lines behind its opening marks. A line end right behind them does not
count. -/
def longText? (mark : Char) (escapes : Bool) : Reader (List Char)
  | cs =>
    let cs := (afterLineEnd? cs).getD cs
    longTextWith? mark escapes (cs.length + 1) cs

/-- A text in quotation marks of any kind. -/
def text? (cs : List Char) : Option (List Char × List Char) :=
  match cs with
  | '"' :: '"' :: '"' :: rest => longText? '"' true rest
  | '\'' :: '\'' :: '\'' :: rest => longText? '\'' false rest
  | '"' :: rest => basicText? rest
  | '\'' :: rest => literalText? rest
  | _ => none

/-! ## Numbers -/

/-- Digits that satisfy a test, with single underscores between them. -/
def digits? (isDigit : Char → Bool) : Reader (List Char)
  | [] => none
  | c :: rest =>
    if !isDigit c then none
    else
      match rest with
      | '_' :: d :: more =>
        if isDigit d then (digits? isDigit (d :: more)).map fun (ds, rest) => (c :: ds, rest) else none
      | ['_'] => none
      | d :: more =>
        if isDigit d then (digits? isDigit (d :: more)).map fun (ds, rest) => (c :: ds, rest)
        else some ([c], d :: more)
      | [] => some ([c], [])

/-- A whole number within 64 bits. -/
def wholeWithin? (n : Int) : Option Setting :=
  if Int64.minValue.toInt ≤ n ∧ n ≤ Int64.maxValue.toInt then some (.whole n) else none

/-- A number in base sixteen, eight or two, behind its mark. -/
def basedNumber? (base : Nat) (isDigit : Char → Bool) : Reader Setting
  | cs => do
    let (ds, rest) ← digits? isDigit cs
    let n := ds.foldl (fun n c => base * n + (Json.hexValue? c).getD 0) 0
    return (← wholeWithin? n, rest)

/-- Whether digits have no needless zero in front. -/
def isProper (ds : List Char) : Bool :=
  ds.length = 1 || ds.head? != some '0'

/-- The exponent of a number with a fraction. -/
def exponent? : Reader Unit
  | cs => do
    let (_, rest) ← digits? Char.isDigit (Decimal.splitSign cs).2
    return ((), rest)

/-- A fraction and an exponent, at least one of them, behind the whole part of a number. -/
def fractionOrExponent? : Reader Unit
  | '.' :: cs => do
    let (_, rest) ← digits? Char.isDigit cs
    match rest with
    | 'e' :: rest | 'E' :: rest => exponent? rest
    | _ => return ((), rest)
  | 'e' :: rest | 'E' :: rest => exponent? rest
  | _ => none

/-- A decimal number, or a named one. -/
def decimalNumber? (cs : List Char) : Option (Setting × List Char) :=
  let (negative, body) := Decimal.splitSign cs
  match after? "inf" body, after? "nan" body with
  | some rest, _ | _, some rest => some (.real, rest)
  | none, none => do
    let (ds, rest) ← digits? Char.isDigit body
    if !isProper ds then none
    else
      match fractionOrExponent? rest, rest with
      | some ((), rest), _ => return (.real, rest)
      | none, c :: _ =>
        if c = '.' || c = 'e' || c = 'E' then none
        else
          let n := digitsValue ds
          return (← wholeWithin? (if negative then -n else n), rest)
      | none, [] =>
        let n := digitsValue ds
        return (← wholeWithin? (if negative then -n else n), [])

/-- A number. -/
def number? (cs : List Char) : Option (Setting × List Char) :=
  match cs with
  | '0' :: 'x' :: rest => basedNumber? 16 (fun c => (Json.hexValue? c).isSome) rest
  | '0' :: 'o' :: rest => basedNumber? 8 (fun c => '0' ≤ c && c ≤ '7') rest
  | '0' :: 'b' :: rest => basedNumber? 2 (fun c => c = '0' || c = '1') rest
  | cs => decimalNumber? cs

/-! ## Points in time -/

/-- A number of so many digits between two bounds. -/
def digitsBetween? (count low high : Nat) : Reader Nat
  | cs =>
    let ds := cs.take count
    let n := digitsValue ds
    if ds.length = count && ds.all Char.isDigit && low ≤ n && n ≤ high then some (n, cs.drop count)
    else none

/-- How many days a month has. -/
def daysIn (year month : Nat) : Nat :=
  if month = 2 then
    if year % 4 = 0 && (year % 100 ≠ 0 || year % 400 = 0) then 29 else 28
  else if month = 4 || month = 6 || month = 9 || month = 11 then 30 else 31

/-- A date. -/
def date? : Reader Unit
  | cs => do
    let (year, cs) ← digitsBetween? 4 0 9999 cs
    let (month, cs) ← digitsBetween? 2 1 12 (← after? "-" cs)
    let (_, cs) ← digitsBetween? 2 1 (daysIn year month) (← after? "-" cs)
    return ((), cs)

/-- A time of day. -/
def time? : Reader Unit
  | cs => do
    let (_, cs) ← digitsBetween? 2 0 23 cs
    let (_, cs) ← digitsBetween? 2 0 59 (← after? ":" cs)
    let (_, cs) ← digitsBetween? 2 0 60 (← after? ":" cs)
    match cs with
    | '.' :: cs =>
      let (fraction, rest) := cs.span Char.isDigit
      if fraction.isEmpty then none else return ((), rest)
    | cs => return ((), cs)

/-- The offset of a time zone, if there is one. -/
def skipOffset (cs : List Char) : Option (List Char) :=
  match cs with
  | 'Z' :: rest | 'z' :: rest => some rest
  | '+' :: rest | '-' :: rest => do
    let (_, cs) ← digitsBetween? 2 0 23 rest
    let (_, cs) ← digitsBetween? 2 0 59 (← after? ":" cs)
    return cs
  | cs => some cs

/-- A date, a time of day, or both. No setting of the program is one, and a table takes it for one
without any of its keys. -/
def moment? (cs : List Char) : Option (Setting × List Char) :=
  match date? cs with
  | some ((), rest) =>
    match rest with
    | c :: more =>
      if c = 'T' || c = 't' || (c = ' ' && (more.head?.map Char.isDigit) = some true) then do
        let ((), rest) ← time? more
        return (.table [], ← skipOffset rest)
      else some (.table [], rest)
    | [] => some (.table [], [])
  | none => (time? cs).map fun ((), rest) => (.table [], rest)

/-! ## Keys -/

/-- Characters of keys without quotation marks. -/
def isKeyCharacter (c : Char) : Bool :=
  c.isAlphanum || c = '_' || c = '-'

/-- One key, in quotation marks or without. -/
def simpleKey? (cs : List Char) : Option (String × List Char) :=
  match cs with
  | '"' :: rest => (basicText? rest).map fun (text, rest) => (String.ofList text, rest)
  | '\'' :: rest => (literalText? rest).map fun (text, rest) => (String.ofList text, rest)
  | cs =>
    let (key, rest) := cs.span isKeyCharacter
    if key.isEmpty then none else some (String.ofList key, rest)

/-- Keys with points between them and spaces around each, down to a depth. -/
def pathWith? : Nat → Reader (List String)
  | 0, _ => none
  | fuel + 1, cs => do
    let (key, rest) ← simpleKey? (skipSpace cs)
    match skipSpace rest with
    | '.' :: rest => do
      let (path, rest) ← pathWith? fuel rest
      return (key :: path, rest)
    | rest => return ([key], rest)

/-- Keys with points between them and spaces around each. -/
def path? (cs : List Char) : Option (List String × List Char) :=
  pathWith? (cs.length + 1) cs

end ItemCatalog.Config.Toml
