import ItemCatalog.Filter.Basic
import ItemCatalog.Number.Decimal

/-!
# Level bounds

A request may end in a bound on the level of items, such as `>= 50`. The bound starts at the first
comparison sign of the text. Where several signs start there the one listed first counts, and longer
ones are listed before their beginnings.
-/

namespace ItemCatalog

/-- Why a request for items cannot be carried out. -/
inductive RequestError
  | invalidLevel
  | levelOutOfRange
  | specialCharacters
  | unknownCommand (command : String)
  | emptyQuery
  deriving DecidableEq, Repr

/-- The explanation shown to the user. -/
def RequestError.message : RequestError → String
  | invalidLevel => "Either the operator you used or the number you entered is invalid."
  | levelOutOfRange => "The \x60level\x60 filter must be between 0 and 90."
  | specialCharacters => "The search query cannot contain special characters."
  | unknownCommand command => "Unknown command '" ++ command ++ "'."
  | emptyQuery => "Give me an item name to look for."

/-- A bound on the level of items. -/
structure LevelBound where
  op : Comparison
  value : Double
  deriving DecidableEq, Repr

namespace LevelBound

/-- The comparison signs, in the order in which they are tried. -/
def signs : List (String × Comparison) :=
  [("===", .eq), ("=/=", .ne), ("==", .eq), ("<=", .le), ("=<", .le), (">=", .ge), ("=>", .ge),
    ("!=", .ne), ("=", .eq), ("<", .lt), (">", .gt), ("/", .le)]

/-- The comparison sign that a text starts with. -/
def signAt? (cs : List Char) : Option (String × Comparison) :=
  signs.find? fun (sign, _) => sign.toList.isPrefixOf cs

/-- What stands before the first comparison sign, the comparison, and what stands behind the sign. -/
def splitAtSign? : List Char → Option (List Char × Comparison × List Char)
  | [] => none
  | c :: rest =>
    match signAt? (c :: rest) with
    | some (sign, op) => some ([], op, (c :: rest).drop sign.length)
    | none => (splitAtSign? rest).map fun (before, op, behind) => (c :: before, op, behind)

/-- The bound with a comparison and a number, which has to be between zero and the highest level. -/
def ofText (op : Comparison) (text : List Char) : Except RequestError LevelBound :=
  match Double.read? (Text.trim text) with
  | none => .error .invalidLevel
  | some value =>
    if !value.isFinite then .error .invalidLevel
    else if value.below .zero || (Double.ofNat maxLevel.toNat).below value then
      .error .levelOutOfRange
    else .ok ⟨op, value⟩

/-- Splits a text into a name and a level bound, if it has one. -/
def split (input : List Char) : Except RequestError (List Char × Option LevelBound) :=
  match splitAtSign? input with
  | none => .ok (Text.trim input, none)
  | some (before, op, behind) =>
    match ofText op behind with
    | .ok bound => .ok (Text.trim before, some bound)
    | .error e => .error e

/-- The bound that a text consists of. -/
def ofBound (text : String) : Except RequestError LevelBound :=
  match split text.toList with
  | .ok ([], some bound) => .ok bound
  | .ok _ => .error .invalidLevel
  | .error e => .error e

end LevelBound

end ItemCatalog
