import ItemCatalog.Config.Escape
import ItemCatalog.Config.Setting
import ItemCatalog.Number.Decimal
import ItemCatalog.Text.Word

/-!
# Settings from environment variables

A variable whose name starts with the prefix of the program sets the key that the rest of the name
spells; two underscores lead from a table to its keys, and letter case does not matter. The value is a
truth value, a number, a list, a table or a text; what is none of these as a whole is a text as it
stands.
-/

namespace ItemCatalog.Config.Environment

/-- Blank characters of ASCII. -/
def isSpace (c : Char) : Bool :=
  c = ' ' || c = '\t' || c = '\n' || c = '\r' || c.toNat = 12

/-- Characters that end a value without quotation marks. -/
def isSeparator (c : Char) : Bool :=
  c = ',' || c = '[' || c = ']' || c.toNat = 0x7B || c.toNat = 0x7D

/-- Characters of keys without quotation marks. -/
def isKeyCharacter (c : Char) : Bool :=
  c.isAlphanum || c = '_' || c = '-'

/-- A text without the spaces in front. -/
def skipSpace (cs : List Char) : List Char :=
  cs.dropWhile isSpace

/-- What follows a given beginning. -/
def after? (start : String) (cs : List Char) : Option (List Char) :=
  if start.toList.isPrefixOf cs then some (cs.drop start.length) else none

/-- Whether a text is digits, at least one, with a sign at most. -/
def wholeNumber? (cs : List Char) : Option Int :=
  let (negative, digits) := Decimal.splitSign cs
  if digits.isEmpty || !digits.all Char.isDigit then none
  else
    let n := digitsValue digits
    if n < Nat.pow 2 127 then some (if negative then -n else n)
    else if n < Nat.pow 2 128 && !negative then some n
    else none

/-- A value without quotation marks: a number, or a text. -/
def bareValue (cs : List Char) : Setting :=
  if cs.contains '.' && (Double.read? cs).isSome then .real
  else match wholeNumber? cs with
    | some n => .whole n
    | none => .text (String.ofList cs)

/-- The key of an entry of a table, with or without quotation marks. -/
def key? (cs : List Char) : Option (String × List Char) :=
  match skipSpace cs with
  | '"' :: rest => do
    let (text, rest) ← basicText? rest
    return (String.ofList text, skipSpace rest)
  | cs =>
    let (key, rest) := cs.span isKeyCharacter
    if key.isEmpty then none else some (String.ofList key, skipSpace rest)

mutual

/-- Reads a value with the spaces around it. Each step goes deeper or further, so `fuel` is the number
of characters. -/
def valueWith? : Nat → List Char → Option (Setting × List Char)
  | 0, _ => none
  | fuel + 1, cs => do
    let cs := skipSpace cs
    let (value, rest) ←
      match after? "true" cs, after? "false" cs with
      | some rest, _ => some (Setting.truth true, rest)
      | _, some rest => some (Setting.truth false, rest)
      | _, _ =>
        match cs with
        | '"' :: rest => do
          let (text, rest) ← basicText? rest
          some (Setting.text (String.ofList text), rest)
        | '[' :: rest => do
          let (items, rest) ← itemsWith? fuel rest
          some (Setting.list items, rest)
        | c :: rest =>
          if c.toNat = 0x7B then do
            let (entries, rest) ← entriesWith? fuel [] rest
            some (Setting.table entries, rest)
          else
            some (bareValue (Text.trim ((c :: rest).takeWhile (!isSeparator ·))),
              (c :: rest).dropWhile (!isSeparator ·))
        | [] => some (bareValue [], [])
    return (value, skipSpace rest)

/-- Reads the values of a list up to its end. -/
def itemsWith? : Nat → List Char → Option (List Setting × List Char)
  | 0, _ => none
  | _, ']' :: rest => some ([], rest)
  | fuel + 1, cs => do
    let (item, rest) ← valueWith? fuel cs
    match rest with
    | ',' :: rest => do
      let (items, rest) ← itemsWith? fuel rest
      return (item :: items, rest)
    | ']' :: rest => return ([item], rest)
    | _ => none

/-- Reads the entries of a table up to its end. -/
def entriesWith? : Nat → List (String × Setting) → List Char →
    Option (List (String × Setting) × List Char)
  | 0, _, _ => none
  | fuel + 1, done, cs =>
    if (cs.head?.map Char.toNat) = some 0x7D then some (done, cs.drop 1)
    else do
      let (key, rest) ← key? cs
      let rest ← after? "=" rest
      let (value, rest) ← valueWith? fuel rest
      let done := Setting.put key value done
      match rest with
      | ',' :: rest => entriesWith? fuel done rest
      | c :: rest => if c.toNat = 0x7D then return (done, rest) else none
      | [] => none

end

/-- The value of a variable. -/
def value (text : String) : Setting :=
  match valueWith? (text.length + 1) text.toList with
  | some (value, []) => value
  | _ => .text text

/-- The prefix of the names of variables, in small letters. -/
def namePrefix : String := "itemdex_"

/-- The path of keys that a name spells behind the prefix: its parts between pairs of underscores and
between points. -/
def pathOf (name : List Char) : List String :=
  (go name).map String.ofList
where
  /-- The parts of a name. -/
  go : List Char → List (List Char)
    | [] => [[]]
    | '_' :: '_' :: rest => [] :: go rest
    | '.' :: rest => [] :: go rest
    | c :: rest => Text.extendFirst c (go rest)

/-- The keys that a variable sets, if it is one of the program. -/
def keys? (name : String) : Option (List String) := do
  let small := (Text.trim name.toList).map Char.toLower
  let path := pathOf (← after? namePrefix small)
  if path.any (·.isEmpty) then none else some path

/-- The settings of variables, a later one laid over those before it. -/
def settings (environment : List (String × String)) : Setting :=
  environment.foldl (fun settings (name, text) =>
    match keys? name with
    | some path => settings.mergeOver (Setting.atPath path (value text))
    | none => settings) (.table [])

end ItemCatalog.Config.Environment
