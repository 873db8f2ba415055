import ItemCatalog.Caption
import ItemCatalog.Json.Writer
import ItemCatalog.Record.Basic

/-!
# Item cards

A card is everything that is shown of one item: its title and link, lines of facts, and fields for
special effects, for similar items and for other pictures.
-/

namespace ItemCatalog

/-- A part of a card with a heading of its own. -/
structure CardField where
  name : String
  value : String
  deriving DecidableEq, Repr

/-- What is shown of an item. -/
structure ItemCard where
  title : String
  url : String
  description : List String
  fields : List CardField
  image : Option String
  footer : Option String
  deriving DecidableEq, Repr

namespace ItemCard

/-- How a tag is shown. -/
def formatTag (tag : String) : String :=
  if tag = "se" then "Seasonal"
  else if tag = "ak" then "ArchKnight Saga"
  else if tag = "alexander" then "Alexander Saga"
  else if tag = "temp" then "Temporary"
  else if tag = "fs" then "Free Storage"
  else Caption.capitalize tag

/-- A boost as it is shown, with its sign. -/
def formatBoost (b : Boost) : String :=
  let n := b.value.toInt
  Caption.capitalize b.key ++ " " ++ (if n < 0 then "-" else "+") ++ toString n.natAbs

/-- Boosts as they are shown. -/
def formatBoosts (boosts : List Boost) : String :=
  if boosts.isEmpty then "None" else ", ".intercalate (boosts.map formatBoost)

/-- Captions with slashes between them. -/
def slashed (names : List String) : String :=
  " / ".intercalate (names.map Caption.capitalize)

/-- A chance as a percentage, with three places at most. -/
def formatRate (rate : Double) : String :=
  let hundred := Double.ofNat 100000
  ((rate * hundred).roundedHalfAway / Double.ofNat 1000).plain ++ "%"

/-- A line with a label. -/
def labelled (label value : String) : String :=
  "**" ++ label ++ ":** " ++ value

/-- A text set as code. -/
def asCode (text : String) : String :=
  "\x60" ++ text ++ "\x60"

/-- A link with a text. -/
def linked (text url : String) : String :=
  "[" ++ text ++ "](" ++ url ++ ")"

/-- A combination of tags as it is shown. -/
def formatTagGroup (group : TagGroup) : String :=
  asCode (if group.tags.isEmpty then "None" else ", ".intercalate (group.tags.map formatTag))

/-- The lines that every card has. -/
def commonLines (r : Record) : List String :=
  [ labelled "Tags" (" or ".intercalate (r.tagSet.map formatTagGroup)),
    labelled "Level" (toString r.level.toNat),
    labelled "Type" (Caption.capitalize r.itemType) ]

/-- The range of damage of a weapon. -/
def damageLine (r : Record) : String :=
  labelled "Damage" <|
    if r.damage.isEmpty then "Scaled" else "-".intercalate (r.damage.map fun d => toString d.toNat)

/-- The lines for stats. -/
def statLines (r : Record) : List String :=
  [labelled "Bonuses" (formatBoosts r.bonuses), labelled "Resists" (formatBoosts r.resists)]

/-- Lines that items without stats do not have. -/
def unlessCosmetic (r : Record) (lines : List String) : List String :=
  if r.isCosmetic then [] else lines

/-- The lines that depend on the category. -/
def categoryLines (r : Record) : List String :=
  match r.category with
  | .weapon =>
    unlessCosmetic r [damageLine r] ++ [labelled "Element" (slashed r.elements)] ++
      unlessCosmetic r (statLines r)
  | .accessory => unlessCosmetic r (statLines r) ++ r.modifies.toList.map (labelled "Modifies")

/-- Activations whose chance means nothing. -/
def ratelessActivations : List String := ["specific enemy", "click weapon"]

/-- The field of a special effect. -/
def specialField (s : Special) : CardField where
  name := "Weapon Special"
  value := "\n".intercalate <|
    [labelled "Activation" (Caption.capitalize s.activation), labelled "Effect" s.effect] ++
      s.elements.toList.map (fun names => labelled "Element" (slashed names)) ++
      (if ratelessActivations.contains s.activation then []
        else s.rate.toList.map fun rate => labelled "Rate" (formatRate rate))

/-- The elements of a skill, if any are named. -/
def skillElement (s : Skill) : String :=
  let element := slashed (s.element.getD [])
  if element.isEmpty then "N/A" else element

/-- The field of a skill. -/
def skillField (s : Skill) : CardField where
  name := "Trinket Skill"
  value := "\n".intercalate
    [ labelled "Effect" s.effect,
      labelled "Mana Cost" (toString s.manaCost.toInt),
      labelled "Cooldown" (toString s.cooldown.toInt),
      labelled "Damage Type" (Caption.capitalize (s.damageType.getD "N/A")),
      labelled "Element" (skillElement s) ]

/-- The fields that depend on the category. -/
def categoryFields (r : Record) : List CardField :=
  match r.category with
  | .weapon => (r.specials.getD []).map specialField
  | .accessory => r.skill.toList.map skillField

/-- A field for a list of links, unless the list is empty. -/
def linksField (name : String) (links : List String) : List CardField :=
  if links.isEmpty then [] else [⟨name, ", ".intercalate links⟩]

/-- Links to the pictures of an item from the second on. -/
def appearanceLinks (images : List String) : List String :=
  (images.drop 1).zipIdx.map fun (url, i) => linked ("Appearance " ++ toString (i + 2)) url

/-- The card of an item with other items that are similar. -/
def ofRecord (r : Record) (similar : List Record) : ItemCard where
  title := r.title
  url := r.link
  description := commonLines r ++ categoryLines r
  fields := categoryFields r ++
    linksField "Similar Results" (similar.map fun s => linked s.title s.link) ++
    linksField "Other Appearances" (appearanceLinks r.images)
  image := r.images.head?
  footer := r.colorCustom.map fun colors =>
    "This item is color-custom to your " ++ ", ".intercalate colors ++ " color"

/-- The JSON text of a field. -/
def writeField (f : CardField) : List Char :=
  Json.Writer.object
    [ Json.Writer.member "name" (Json.Writer.text f.name),
      Json.Writer.member "value" (Json.Writer.text f.value) ]

/-- The JSON text of a card. -/
def write (c : ItemCard) : List Char :=
  Json.Writer.object <|
    [ Json.Writer.member "title" (Json.Writer.text c.title),
      Json.Writer.member "url" (Json.Writer.text c.url),
      Json.Writer.member "description" (Json.Writer.list Json.Writer.text c.description),
      Json.Writer.member "fields" (Json.Writer.list writeField c.fields) ] ++
    Json.Writer.optional "image" Json.Writer.text c.image ++
    Json.Writer.optional "footer" Json.Writer.text c.footer

end ItemCard

end ItemCatalog
