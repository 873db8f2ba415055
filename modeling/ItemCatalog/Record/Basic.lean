import ItemCatalog.Number.Double
import ItemCatalog.Text.Word

/-!
# Catalog records

A `Record` is one entry of the catalog: one variant of an item with its stats. The statistics that
searching and ranking read from it are defined here, and `Record.validate` says which records a
catalog may hold.
-/

namespace ItemCatalog

/-- The two sorts of items. -/
inductive Category
  | weapon
  | accessory
  deriving DecidableEq, Repr

/-- The name of a category. -/
def Category.name : Category → String
  | weapon => "weapon"
  | accessory => "accessory"

/-- One combination of tags that an item can be had with. -/
structure TagGroup where
  tags : List String := []
  deriving DecidableEq, Repr

/-- Whether a tag is in the combination. -/
def TagGroup.contains (group : TagGroup) (tag : String) : Bool :=
  List.contains group.tags tag

/-- A named signed value: a stat bonus or a resistance. -/
structure Boost where
  key : String
  value : Int32
  deriving DecidableEq, Repr

/-- A special effect of a weapon. -/
structure Special where
  activation : String
  effect : String
  elements : Option (List String)
  rate : Option Double
  deriving DecidableEq, Repr

/-- The skill of a trinket. -/
structure Skill where
  effect : String
  manaCost : Int32
  cooldown : Int32
  damageType : Option String
  element : Option (List String)
  deriving DecidableEq, Repr

/-- One variant of an item. -/
structure Record where
  name : String
  title : String
  link : String
  family : String
  category : Category
  itemType : String
  level : UInt8
  tagSet : List TagGroup
  bonuses : List Boost
  resists : List Boost
  damage : List UInt32
  elements : List String
  specials : Option (List Special)
  skill : Option Skill
  images : List String
  modifies : Option String
  colorCustom : Option (List String)
  deriving DecidableEq, Repr

/-- A value with the relevance or score that a search gave it. -/
structure Scored (α : Type) where
  item : α
  score : Double
  deriving DecidableEq, Repr

/-- The highest level of an item. -/
def maxLevel : UInt8 := 90

/-- Why a record may not be in a catalog. -/
inductive RecordFault
  | emptyTitle
  | levelOutOfRange
  deriving DecidableEq, Repr

/-- The wording of a fault. -/
def RecordFault.message : RecordFault → String
  | emptyTitle => "empty title"
  | levelOutOfRange => "level out of range"

namespace Record

/-- The first fault of a record, if it has one. A record without a title is known by its name. -/
def validate (r : Record) : Except (String × RecordFault) Unit :=
  if (Text.trim r.title.toList).isEmpty then .error (r.name, .emptyTitle)
  else if maxLevel < r.level then .error (r.title, .levelOutOfRange)
  else .ok ()

/-- The value of the first boost with a key. -/
def boost? (boosts : List Boost) (key : String) : Option Int32 :=
  (boosts.find? (·.key = key)).map (·.value)

/-- The bonus to a stat. -/
def bonus? (r : Record) (key : String) : Option Int32 :=
  boost? r.bonuses key

/-- The resistance against an element. -/
def resist? (r : Record) (key : String) : Option Int32 :=
  boost? r.resists key

/-- The sum of all bonuses, added up in 64 bits. -/
def bonusSum (r : Record) : Int :=
  let values := r.bonuses.map fun bonus => bonus.value.toInt64
  (values.foldl (· + ·) 0).toInt

/-- The mean of the damage range. Items without one scale with their bearer and count as zero. -/
def averageDamage (r : Record) : Double :=
  if r.damage.isEmpty then .zero
  else (r.damage.foldl (fun sum d => sum + Double.ofNat d.toNat) .zero) /
    Double.ofNat r.damage.length

/-- The tags of all groups. -/
def allTags (r : Record) : List String :=
  r.tagSet.flatMap (·.tags)

/-- Whether the item has looks and no stats. -/
def isCosmetic (r : Record) : Bool :=
  r.allTags.contains "cosmetic"

/-- Whether all tag groups of the item are as asked for. An item without groups has one empty
group. -/
def everyTagGroup (r : Record) (p : TagGroup → Bool) : Bool :=
  if r.tagSet.isEmpty then p {} else r.tagSet.all p

end Record

end ItemCatalog
