import ItemCatalog.Request.Level
import ItemCatalog.Text.LowerCase

/-!
# Requests for items

A request is a command with the name of an item. The command narrows the search to a category and to
types of items, and the text may end in a level bound. `Hints` collects these conditions, and
`Hints.toFilter` makes them a filter.
-/

namespace ItemCatalog

/-- Conditions that go with a search text. -/
structure Hints where
  category : Option Category := none
  /-- The types to search; all types when the list is empty. -/
  types : List String := []
  level : Option LevelBound := none
  deriving DecidableEq, Repr

namespace Hints

/-- The condition on the category. -/
def categoryFilters (h : Hints) : List Filter :=
  match h.category with
  | some c => [.equal .category (.text c.name)]
  | none => []

/-- The condition on the type. -/
def typeFilters (h : Hints) : List Filter :=
  match h.types with
  | [] => []
  | [type] => [.equal .type (.text type)]
  | types => [.oneOf .type (types.map .text)]

/-- The condition on the level. -/
def levelFilters (h : Hints) : List Filter :=
  match h.level with
  | some bound => [.compare .level bound.op (.number bound.value)]
  | none => []

/-- All conditions as one filter. -/
def toFilter (h : Hints) : Filter :=
  .all (h.categoryFilters ++ h.typeFilters ++ h.levelFilters)

/-- The commands with what each of them searches for. -/
def commands : List (String × Hints) :=
  let weapons (names : List String) (types : List String) : List (String × Hints) :=
    names.map fun name => (name, { category := some .weapon, types })
  let accessories (names : List String) (types : List String) : List (String × Hints) :=
    names.map fun name => (name, { category := some .accessory, types })
  [("item", { category := none })] ++
    weapons ["wep", "weap", "weapon"] [] ++
    weapons ["sword", "axe", "mace"] ["sword", "mace", "axe"] ++
    weapons ["staff", "wand"] ["staff", "wand"] ++
    weapons ["dagger"] ["dagger"] ++
    weapons ["scythe"] ["scythe"] ++
    accessories ["acc", "accessory"] [] ++
    accessories ["helm", "helmet"] ["helm"] ++
    accessories ["cape", "wing", "wings"] ["cape", "wings"] ++
    (["belt", "necklace", "ring", "trinket", "bracer"].flatMap fun name => accessories [name] [name])

/-- What a command searches for; large letters make no difference. -/
def ofCommand (command : String) : Except RequestError Hints :=
  let name := String.ofList (Text.lowerInContext command.toList)
  match commands.lookup name with
  | some hints => .ok hints
  | none => .error (.unknownCommand name)

end Hints

/-- A name to search for, with conditions. -/
structure ItemRequest where
  name : String
  hints : Hints
  deriving DecidableEq, Repr

namespace ItemRequest

/-- The characters that names in requests may hold: letters and digits of ASCII, spaces, hyphens, bars
and quotation marks, straight or curly. -/
def isNameCharacter (c : Char) : Bool :=
  c.isAlphanum || c = ' ' || c = '-' || c = '|' || c = '\'' || c = '"' ||
    c.toNat = 0x2018 || c.toNat = 0x2019 || c.toNat = 0x201C || c.toNat = 0x201D

/-- The request that a command with a text makes. -/
def parse (command input : String) : Except RequestError ItemRequest := do
  let hints ← Hints.ofCommand command
  if (Text.trim input.toList).isEmpty then throw .emptyQuery
  let (name, level) ← LevelBound.split input.toList
  if !name.all isNameCharacter then throw .specialCharacters
  return { name := String.ofList name, hints := { hints with level } }

/-- A text set as code. -/
def asCode (text : String) : String :=
  "\x60" ++ text ++ "\x60"

/-- How a command is used. -/
def usage (command : String) : String :=
  let name := asCode "[name]"
  let level := asCode "level"
  let signs := ["=", "<", ">", "<=", ">=", "!= or =/="].map asCode
  "Usage: " ++ command ++ " " ++ name ++ " - Fetches the details of an item\n_or_ " ++
    command ++ " " ++ name ++ " " ++ asCode "(operator)" ++ " " ++ level ++
    " - Fetches the details of an item and filters based on " ++ level ++ "\n" ++ level ++
    " should be between 0 and 90 and " ++ asCode "operator" ++
    " must be one of the following: " ++ ", ".intercalate signs

end ItemRequest

end ItemCatalog
