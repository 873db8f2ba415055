import ItemCatalog.Name.Sanitize
import ItemCatalog.Text.Word

/-!
# Short names

Players call items by short names. A short name stands for a whole phrase or for one word of it;
phrases are replaced first. `AliasTable.normalize` turns the text of a search into a `Query`: the
canonical phrase and its words with the short ones written out.
-/

namespace ItemCatalog.Name

/-- A search phrase in canonical form. -/
structure Query where
  /-- The canonical text, after a short name for the whole phrase has been replaced. -/
  phrase : String
  /-- What each word of the phrase stands for; a short word may stand for several. -/
  tokens : List String
  deriving DecidableEq, Repr

namespace Query

/-- The phrase with its short words written out. -/
def expanded (q : Query) : String :=
  Text.join " " q.tokens

/-- The words of the phrase with its short words written out. -/
def words (q : Query) : List String :=
  q.tokens.flatMap fun token => (Text.pieces ' ' token.toList).map String.ofList

/-- Nothing is searched for. -/
def isEmpty (q : Query) : Bool :=
  q.phrase.isEmpty

/-- Whether a canonical name is the one searched for, as typed or with short words written out. -/
def matchesExactly (q : Query) (name : String) : Bool :=
  name = q.phrase || name = q.expanded

end Query

/-- Short names with what they stand for. Of two entries for one short name the later one holds. -/
structure AliasTable where
  phrases : List (String × String)
  words : List (String × String)
  deriving Repr

namespace AliasTable

/-- What a short name stands for in a list of entries; other names stand for themselves. -/
def meaning (entries : List (String × String)) (name : String) : String :=
  (entries.reverse.lookup name).getD name

/-- The query for a text that is in canonical form already. -/
def resolve (table : AliasTable) (sanitized : String) : Query :=
  let phrase := meaning table.phrases sanitized
  { phrase
    tokens := (Text.pieces ' ' phrase.toList).map fun word => meaning table.words (String.ofList word) }

/-- The query for any text. -/
def normalize (table : AliasTable) (raw : String) : Query :=
  table.resolve (sanitize raw)

/-- No short names. -/
def empty : AliasTable := ⟨[], []⟩

/-- Short names for whole phrases. -/
def builtinPhrases : List (String × String) := [
    ("dm cannon", "defender cannon"),
    ("drgn capacitor", "drgn c4p4c170r"),
    ("drgn claw", "drgn c74w"),
    ("drgn visor", "drgn v1z0r"),
    ("drgn vizor", "drgn v1z0r"),
    ("ur mom", "unsqueakable farce"),
    ("your mom", "unsqueakable farce"),
    ("1k wings", "wings of the thousand flames"),
    ("1k infernos", "wings of the thousand infernos")]

/-- Short names for single words. -/
def builtinWords : List (String × String) := [
    ("adl", "ancient dragonlord helm"),
    ("adsoe", "ancient dragon amulet scythe of the elements"),
    ("aya", "summon gem ayauhnqui ex"),
    ("ba", "baltaels aventail"),
    ("blod", "blinding light of destiny"),
    ("boa", "blade of awe"),
    ("bod", "blade of destiny"),
    ("bsw", "baltaels aventail"),
    ("c7", "the corrupted seven"),
    ("ddb", "defenders dragon belt"),
    ("ddn", "defenders dragon necklace"),
    ("ddr", "defenders dragon ring"),
    ("ddsoe", "doomed dragon amulet scythe of the elements"),
    ("ddsoe1", "doomed dragon amulet scythe of elementals"),
    ("ddsoe2", "doomed dragon amulet scythe of the elements"),
    ("ddv", "distorted doom visage"),
    ("drk", "dragonknight"),
    ("dsod", "dragonstaff of destiny"),
    ("eud", "elemental unity defender"),
    ("fc", "frozen claymore"),
    ("fdl", "fierce dragonlord"),
    ("dlc", "dragonlord captain"),
    ("fs", "frostscythe"),
    ("gg", "forgotten gloom glaive"),
    ("gt", "grove tender"),
    ("isis", "ice scythe"),
    ("lh", "lucky hammer"),
    ("npsb", "necro paragon soulblade"),
    ("nsod", "necrotic sword of doom"),
    ("nstb", "not so tiny bubbles"),
    ("pdl", "dragons patience"),
    ("rdl", "dragons rage"),
    ("bdl", "dragons bulwark"),
    ("wdl", "dragons wrath"),
    ("scc", "sea chickens conquest"),
    ("sf", "soulforged"),
    ("tbod", "twin blades of destiny"),
    ("udsod", "ultimate dragonstaff of destiny"),
    ("ublod", "ultimate blinding light of destiny"),
    ("utbod", "ultimate twin blades of destiny"),
    ("unrav", "unraveler"),
    ("uok", "ultra omniknight"),
    ("vik", "vanilla ice katana")]

/-- The short names in common use. -/
def builtin : AliasTable := ⟨builtinPhrases, builtinWords⟩

end AliasTable

end ItemCatalog.Name
