import ItemCatalog.Json.Reader
import ItemCatalog.Json.Writer
import ItemCatalog.Record.Basic

/-!
# Catalog records as JSON

The catalog is a JSON list of objects. `Record.write` gives the compact form of a record, with its
members in the order of the fields and without the optional ones that are absent; `Record.reader`
reads it. While an object is read its values are gathered in a draft, in which every field may still
be missing.
-/

namespace ItemCatalog

open Json (Reader Fault)
open Json.Reader (field)

/-- A number of 8 bits. -/
def readUInt8 : Reader UInt8 :=
  Json.Reader.whole fun n => if 0 ≤ n ∧ n < UInt8.size then some (UInt8.ofNat n.toNat) else none

/-- A number of 32 bits without a sign. -/
def readUInt32 : Reader UInt32 :=
  Json.Reader.whole fun n => if 0 ≤ n ∧ n < UInt32.size then some (UInt32.ofNat n.toNat) else none

/-- A number of 32 bits with a sign. -/
def readInt32 : Reader Int32 :=
  Json.Reader.whole fun n => if Int32.minValue.toInt ≤ n ∧ n ≤ Int32.maxValue.toInt then some (Int32.ofInt n) else none

/-- A list of texts. -/
def readTexts : Reader (List String) :=
  Json.Reader.list Json.Reader.text

/-- A list of texts, written. -/
def writeTexts (texts : List String) : List Char :=
  Json.Writer.list Json.Writer.text texts

namespace Category

/-- The categories by name. -/
def byName : List (String × Category) :=
  [weapon, accessory].map fun c => (c.name, c)

/-- A category. -/
def reader : Reader Category :=
  Json.Reader.named byName

/-- A category, written as its name. -/
def write (c : Category) : List Char :=
  Json.Writer.text c.name

end Category

namespace TagGroup

/-- A combination of tags; a missing list of tags is empty. -/
def reader : Reader TagGroup :=
  Json.Reader.record (σ := Option (List String))
    [field "tags" (·.isSome) (fun _ tags => some tags) readTexts]
    none (fun tags => some ⟨tags.getD []⟩)

/-- A combination of tags, written. -/
def write (group : TagGroup) : List Char :=
  Json.Writer.object [Json.Writer.member "tags" (writeTexts group.tags)]

end TagGroup

namespace Boost

/-- A boost with the fields read so far. -/
structure Draft where
  key : Option String := none
  value : Option Int32 := none

/-- The fields of a boost. -/
def fields : List (Json.Field Draft) :=
  [ field "k" (·.key.isSome) (fun d x => { d with key := some x }) Json.Reader.text,
    field "v" (·.value.isSome) (fun d x => { d with value := some x }) readInt32 ]

/-- The boost of a draft in which no field is missing. -/
def Draft.finish? (d : Draft) : Option Boost := do
  return { key := ← d.key, value := ← d.value }

/-- A boost. -/
def reader : Reader Boost :=
  Json.Reader.record fields {} Draft.finish?

/-- A boost, written. -/
def write (b : Boost) : List Char :=
  Json.Writer.object
    [ Json.Writer.member "k" (Json.Writer.text b.key),
      Json.Writer.member "v" (Json.Writer.whole b.value.toInt) ]

end Boost

namespace Special

/-- A special effect with the fields read so far. -/
structure Draft where
  activation : Option String := none
  effect : Option String := none
  elements : Option (Option (List String)) := none
  rate : Option (Option Double) := none

/-- The fields of a special effect. -/
def fields : List (Json.Field Draft) :=
  [ field "activation" (·.activation.isSome) (fun d x => { d with activation := some x })
      Json.Reader.text,
    field "effect" (·.effect.isSome) (fun d x => { d with effect := some x }) Json.Reader.text,
    field "elements" (·.elements.isSome) (fun d x => { d with elements := some x })
      (Json.Reader.optional readTexts),
    field "rate" (·.rate.isSome) (fun d x => { d with rate := some x })
      (Json.Reader.optional Json.Reader.real) ]

/-- The effect of a draft in which no needed field is missing. -/
def Draft.finish? (d : Draft) : Option Special := do
  return {
    activation := ← d.activation
    effect := ← d.effect
    elements := d.elements.getD none
    rate := d.rate.getD none }

/-- A special effect. -/
def reader : Reader Special :=
  Json.Reader.record fields {} Draft.finish?

/-- A special effect, written. -/
def write (s : Special) : List Char :=
  Json.Writer.object <|
    [ Json.Writer.member "activation" (Json.Writer.text s.activation),
      Json.Writer.member "effect" (Json.Writer.text s.effect) ] ++
    Json.Writer.optional "elements" writeTexts s.elements ++
    Json.Writer.optional "rate" Json.Writer.real s.rate

end Special

namespace Skill

/-- A skill with the fields read so far. -/
structure Draft where
  effect : Option String := none
  manaCost : Option Int32 := none
  cooldown : Option Int32 := none
  damageType : Option (Option String) := none
  element : Option (Option (List String)) := none

/-- The fields of a skill. -/
def fields : List (Json.Field Draft) :=
  [ field "effect" (·.effect.isSome) (fun d x => { d with effect := some x }) Json.Reader.text,
    field "manaCost" (·.manaCost.isSome) (fun d x => { d with manaCost := some x }) readInt32,
    field "cooldown" (·.cooldown.isSome) (fun d x => { d with cooldown := some x }) readInt32,
    field "damageType" (·.damageType.isSome) (fun d x => { d with damageType := some x })
      (Json.Reader.optional Json.Reader.text),
    field "element" (·.element.isSome) (fun d x => { d with element := some x })
      (Json.Reader.optional readTexts) ]

/-- The skill of a draft in which no needed field is missing. -/
def Draft.finish? (d : Draft) : Option Skill := do
  return {
    effect := ← d.effect
    manaCost := ← d.manaCost
    cooldown := ← d.cooldown
    damageType := d.damageType.getD none
    element := d.element.getD none }

/-- A skill. -/
def reader : Reader Skill :=
  Json.Reader.record fields {} Draft.finish?

/-- A skill, written. -/
def write (s : Skill) : List Char :=
  Json.Writer.object <|
    [ Json.Writer.member "effect" (Json.Writer.text s.effect),
      Json.Writer.member "manaCost" (Json.Writer.whole s.manaCost.toInt),
      Json.Writer.member "cooldown" (Json.Writer.whole s.cooldown.toInt) ] ++
    Json.Writer.optional "damageType" Json.Writer.text s.damageType ++
    Json.Writer.optional "element" writeTexts s.element

end Skill

namespace Record

/-- A record with the fields read so far. -/
structure Draft where
  name : Option String := none
  title : Option String := none
  link : Option String := none
  family : Option String := none
  category : Option Category := none
  itemType : Option String := none
  level : Option UInt8 := none
  tagSet : Option (List TagGroup) := none
  bonuses : Option (List Boost) := none
  resists : Option (List Boost) := none
  damage : Option (List UInt32) := none
  elements : Option (List String) := none
  specials : Option (Option (List Special)) := none
  skill : Option (Option Skill) := none
  images : Option (List String) := none
  modifies : Option (Option String) := none
  colorCustom : Option (Option (List String)) := none

/-- The fields of a record. -/
def fields : List (Json.Field Draft) :=
  [ field "name" (·.name.isSome) (fun d x => { d with name := some x }) Json.Reader.text,
    field "title" (·.title.isSome) (fun d x => { d with title := some x }) Json.Reader.text,
    field "link" (·.link.isSome) (fun d x => { d with link := some x }) Json.Reader.text,
    field "family" (·.family.isSome) (fun d x => { d with family := some x }) Json.Reader.text,
    field "category" (·.category.isSome) (fun d x => { d with category := some x }) Category.reader,
    field "type" (·.itemType.isSome) (fun d x => { d with itemType := some x }) Json.Reader.text,
    field "level" (·.level.isSome) (fun d x => { d with level := some x }) readUInt8,
    field "tagSet" (·.tagSet.isSome) (fun d x => { d with tagSet := some x })
      (Json.Reader.list TagGroup.reader),
    field "bonuses" (·.bonuses.isSome) (fun d x => { d with bonuses := some x })
      (Json.Reader.list Boost.reader),
    field "resists" (·.resists.isSome) (fun d x => { d with resists := some x })
      (Json.Reader.list Boost.reader),
    field "damage" (·.damage.isSome) (fun d x => { d with damage := some x })
      (Json.Reader.list readUInt32),
    field "elements" (·.elements.isSome) (fun d x => { d with elements := some x }) readTexts,
    field "specials" (·.specials.isSome) (fun d x => { d with specials := some x })
      (Json.Reader.optional (Json.Reader.list Special.reader)),
    field "skill" (·.skill.isSome) (fun d x => { d with skill := some x })
      (Json.Reader.optional Skill.reader),
    field "images" (·.images.isSome) (fun d x => { d with images := some x }) readTexts,
    field "modifies" (·.modifies.isSome) (fun d x => { d with modifies := some x })
      (Json.Reader.optional Json.Reader.text),
    field "colorCustom" (·.colorCustom.isSome) (fun d x => { d with colorCustom := some x })
      (Json.Reader.optional readTexts) ]

/-- The record of a draft in which no needed field is missing. -/
def Draft.finish? (d : Draft) : Option Record := do
  return {
    name := ← d.name
    title := ← d.title
    link := ← d.link
    family := ← d.family
    category := ← d.category
    itemType := ← d.itemType
    level := ← d.level
    tagSet := d.tagSet.getD []
    bonuses := d.bonuses.getD []
    resists := d.resists.getD []
    damage := d.damage.getD []
    elements := d.elements.getD []
    specials := d.specials.getD none
    skill := d.skill.getD none
    images := d.images.getD []
    modifies := d.modifies.getD none
    colorCustom := d.colorCustom.getD none }

/-- A record. -/
def reader : Reader Record :=
  Json.Reader.record fields {} Draft.finish?

/-- A record, written. -/
def write (r : Record) : List Char :=
  Json.Writer.object <|
    [ Json.Writer.member "name" (Json.Writer.text r.name),
      Json.Writer.member "title" (Json.Writer.text r.title),
      Json.Writer.member "link" (Json.Writer.text r.link),
      Json.Writer.member "family" (Json.Writer.text r.family),
      Json.Writer.member "category" r.category.write,
      Json.Writer.member "type" (Json.Writer.text r.itemType),
      Json.Writer.member "level" (Json.Writer.whole r.level.toNat),
      Json.Writer.member "tagSet" (Json.Writer.list TagGroup.write r.tagSet),
      Json.Writer.member "bonuses" (Json.Writer.list Boost.write r.bonuses),
      Json.Writer.member "resists" (Json.Writer.list Boost.write r.resists),
      Json.Writer.member "damage"
        (Json.Writer.list (fun d : UInt32 => Json.Writer.whole d.toNat) r.damage),
      Json.Writer.member "elements" (writeTexts r.elements) ] ++
    Json.Writer.optional "specials" (Json.Writer.list Special.write) r.specials ++
    Json.Writer.optional "skill" Skill.write r.skill ++
    [Json.Writer.member "images" (writeTexts r.images)] ++
    Json.Writer.optional "modifies" Json.Writer.text r.modifies ++
    Json.Writer.optional "colorCustom" writeTexts r.colorCustom

/-- The JSON text of a record. -/
def toJson (r : Record) : String :=
  String.ofList r.write

/-- The record that a JSON text describes. -/
def ofJson (source : String) : Except Fault Record :=
  Json.Reader.document reader source

/-- The JSON text of a catalog. -/
def catalogToJson (records : List Record) : String :=
  String.ofList (Json.Writer.list write records)

/-- The records of a catalog. -/
def catalogOfJson (source : String) : Except Fault (List Record) :=
  Json.Reader.document (Json.Reader.list reader) source

end Record

end ItemCatalog
