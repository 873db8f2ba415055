import ItemCatalog.Proofs.Json.Spelling
import ItemCatalog.Record.Json

/-!
# Catalogs survive the way through JSON

Results:
1. `Record.readsBack`: a written record is read back.
2. `Record.catalogOfJson_catalogToJson`: a written catalog is read back.
-/

namespace ItemCatalog

open Json (ReadsBack RealReadsBack Fills readsBack_object)

/-! ## Numbers and texts -/

theorem readsBack_text (s : String) : ReadsBack Json.Reader.text (Json.Writer.text s) s :=
  ⟨_, Json.spells_text s⟩

theorem readsBack_texts (texts : List String) : ReadsBack readTexts (writeTexts texts) texts :=
  ReadsBack.list fun s _ => readsBack_text s

theorem readsBack_uint8 (n : UInt8) : ReadsBack readUInt8 (Json.Writer.whole n.toNat) n := by
  have hlt := n.toNat_lt
  refine ⟨_, Json.spells_whole ?_ (by omega) (by omega)⟩
  have hrange : 0 ≤ (n.toNat : Int) ∧ (n.toNat : Int) < UInt8.size :=
    ⟨Int.natCast_nonneg _, Int.ofNat_lt.mpr hlt⟩
  rw [if_pos hrange, Int.toNat_natCast, UInt8.ofNat_toNat]

theorem readsBack_uint32 (n : UInt32) : ReadsBack readUInt32 (Json.Writer.whole n.toNat) n := by
  have hlt := n.toNat_lt
  refine ⟨_, Json.spells_whole ?_ (by omega) (by omega)⟩
  have hrange : 0 ≤ (n.toNat : Int) ∧ (n.toNat : Int) < UInt32.size :=
    ⟨Int.natCast_nonneg _, Int.ofNat_lt.mpr hlt⟩
  rw [if_pos hrange, Int.toNat_natCast, UInt32.ofNat_toNat]

theorem readsBack_int32 (n : Int32) : ReadsBack readInt32 (Json.Writer.whole n.toInt) n := by
  have hle : -2 ^ 31 ≤ n.toInt := n.le_toInt
  have hlt : n.toInt < 2 ^ 31 := n.toInt_lt
  refine ⟨_, Json.spells_whole ?_ (by omega) (by omega)⟩
  rw [if_pos ⟨n.minValue_le_toInt, n.toInt_le⟩, Int32.ofInt_toInt]

theorem readsBack_category (c : Category) : ReadsBack Category.reader c.write c :=
  ⟨_, Json.spells_named (by cases c <;> rfl)⟩

theorem getD_map_some {α : Type} (value : Option α) : (value.map some).getD none = value := by
  cases value <;> rfl

/-! ## Parts of records -/

theorem TagGroup.readsBack (group : TagGroup) : ReadsBack TagGroup.reader group.write group :=
  readsBack_object (.field 0 (by decide) rfl rfl (readsBack_texts group.tags) rfl (.done _)) rfl

theorem Boost.nodup_keys : (Boost.fields.map Json.Field.key).Nodup := by decide

theorem Boost.readsBack (b : Boost) : ReadsBack Boost.reader b.write b :=
  readsBack_object
    (.field 0 Boost.nodup_keys rfl rfl (readsBack_text b.key) rfl <|
      .field 1 Boost.nodup_keys rfl rfl (readsBack_int32 b.value) rfl <| .done _)
    rfl

namespace Special

theorem nodup_keys : (Special.fields.map Json.Field.key).Nodup := by decide

/-- The draft of an effect when so many of its fields have been read. -/
def draftTo (s : Special) (count : Nat) : Draft where
  activation := if 0 < count then some s.activation else none
  effect := if 1 < count then some s.effect else none
  elements := if 2 < count then s.elements.map some else none
  rate := if 3 < count then s.rate.map some else none

theorem finish?_draftTo (s : Special) : (s.draftTo 4).finish? = some s := by
  show some (⟨s.activation, s.effect, (s.elements.map some).getD none, (s.rate.map some).getD none⟩ :
    Special) = some s
  rw [getD_map_some, getD_map_some]

theorem readsBack {s : Special} (hrate : ∀ x ∈ s.rate, RealReadsBack x) :
    ReadsBack Special.reader s.write s := by
  have hneeded : Fills fields (s.draftTo 0)
      [Json.Writer.member "activation" (Json.Writer.text s.activation),
        Json.Writer.member "effect" (Json.Writer.text s.effect)] (s.draftTo 2) :=
    .field 0 nodup_keys rfl rfl (readsBack_text s.activation) rfl <|
    .field 1 nodup_keys rfl rfl (readsBack_text s.effect) rfl <| .done _
  have helements : Fills fields (s.draftTo 2)
      (Json.Writer.optional "elements" writeTexts s.elements) (s.draftTo 3) :=
    .optional 2 (fun d x => { d with elements := x }) nodup_keys rfl rfl
      (fun texts _ => readsBack_texts texts) rfl rfl
  have hrates : Fills fields (s.draftTo 3)
      (Json.Writer.optional "rate" Json.Writer.real s.rate) (s.draftTo 4) :=
    .optional 3 (fun d x => { d with rate := x }) nodup_keys rfl rfl
      (fun x hx => Json.readsBack_real (hrate x hx)) rfl rfl
  exact readsBack_object ((hneeded.append helements).append hrates) s.finish?_draftTo

end Special

namespace Skill

theorem nodup_keys : (Skill.fields.map Json.Field.key).Nodup := by decide

/-- The draft of a skill when so many of its fields have been read. -/
def draftTo (s : Skill) (count : Nat) : Draft where
  effect := if 0 < count then some s.effect else none
  manaCost := if 1 < count then some s.manaCost else none
  cooldown := if 2 < count then some s.cooldown else none
  damageType := if 3 < count then s.damageType.map some else none
  element := if 4 < count then s.element.map some else none

theorem finish?_draftTo (s : Skill) : (s.draftTo 5).finish? = some s := by
  show some (⟨s.effect, s.manaCost, s.cooldown, (s.damageType.map some).getD none,
    (s.element.map some).getD none⟩ : Skill) = some s
  rw [getD_map_some, getD_map_some]

theorem readsBack (s : Skill) : ReadsBack Skill.reader s.write s := by
  have hneeded : Fills fields (s.draftTo 0)
      [Json.Writer.member "effect" (Json.Writer.text s.effect),
        Json.Writer.member "manaCost" (Json.Writer.whole s.manaCost.toInt),
        Json.Writer.member "cooldown" (Json.Writer.whole s.cooldown.toInt)] (s.draftTo 3) :=
    .field 0 nodup_keys rfl rfl (readsBack_text s.effect) rfl <|
    .field 1 nodup_keys rfl rfl (readsBack_int32 s.manaCost) rfl <|
    .field 2 nodup_keys rfl rfl (readsBack_int32 s.cooldown) rfl <| .done _
  have hdamageType : Fills fields (s.draftTo 3)
      (Json.Writer.optional "damageType" Json.Writer.text s.damageType) (s.draftTo 4) :=
    .optional 3 (fun d x => { d with damageType := x }) nodup_keys rfl rfl
      (fun text _ => readsBack_text text) rfl rfl
  have helement : Fills fields (s.draftTo 4)
      (Json.Writer.optional "element" writeTexts s.element) (s.draftTo 5) :=
    .optional 4 (fun d x => { d with element := x }) nodup_keys rfl rfl
      (fun texts _ => readsBack_texts texts) rfl rfl
  exact readsBack_object ((hneeded.append hdamageType).append helement) s.finish?_draftTo

end Skill

namespace Record

theorem nodup_keys : (Record.fields.map Json.Field.key).Nodup := by decide

/-- The draft of a record when so many of its fields have been read. -/
def draftTo (r : Record) (count : Nat) : Draft where
  name := if 0 < count then some r.name else none
  title := if 1 < count then some r.title else none
  link := if 2 < count then some r.link else none
  family := if 3 < count then some r.family else none
  category := if 4 < count then some r.category else none
  itemType := if 5 < count then some r.itemType else none
  level := if 6 < count then some r.level else none
  tagSet := if 7 < count then some r.tagSet else none
  bonuses := if 8 < count then some r.bonuses else none
  resists := if 9 < count then some r.resists else none
  damage := if 10 < count then some r.damage else none
  elements := if 11 < count then some r.elements else none
  specials := if 12 < count then r.specials.map some else none
  skill := if 13 < count then r.skill.map some else none
  images := if 14 < count then some r.images else none
  modifies := if 15 < count then r.modifies.map some else none
  colorCustom := if 16 < count then r.colorCustom.map some else none

theorem finish?_draftTo (r : Record) : (r.draftTo 17).finish? = some r := by
  show some ({ r with
      specials := (r.specials.map some).getD none
      skill := (r.skill.map some).getD none
      modifies := (r.modifies.map some).getD none
      colorCustom := (r.colorCustom.map some).getD none } : Record) = some r
  rw [getD_map_some, getD_map_some, getD_map_some, getD_map_some]

/-- The rates of the effects of a record. -/
def rates (r : Record) : List Double :=
  (r.specials.getD []).filterMap (·.rate)

theorem mem_rates {r : Record} {specials : List Special} {s : Special} {x : Double}
    (hspecials : specials ∈ r.specials) (hs : s ∈ specials) (hx : x ∈ s.rate) : x ∈ r.rates := by
  rw [Option.mem_def] at hspecials
  rw [rates, hspecials]
  exact List.mem_filterMap.mpr ⟨s, hs, hx⟩

theorem fills_needed (r : Record) : Fills fields (r.draftTo 0)
    [ Json.Writer.member "name" (Json.Writer.text r.name),
      Json.Writer.member "title" (Json.Writer.text r.title),
      Json.Writer.member "link" (Json.Writer.text r.link),
      Json.Writer.member "family" (Json.Writer.text r.family),
      Json.Writer.member "category" r.category.write,
      Json.Writer.member "type" (Json.Writer.text r.itemType),
      Json.Writer.member "level" (Json.Writer.whole r.level.toNat),
      Json.Writer.member "tagSet" (Json.Writer.list TagGroup.write r.tagSet),
      Json.Writer.member "bonuses" (Json.Writer.list Boost.write r.bonuses),
      Json.Writer.member "resists" (Json.Writer.list Boost.write r.resists),
      Json.Writer.member "damage"
        (Json.Writer.list (fun d : UInt32 => Json.Writer.whole d.toNat) r.damage),
      Json.Writer.member "elements" (writeTexts r.elements) ] (r.draftTo 12) :=
  .field 0 nodup_keys rfl rfl (readsBack_text r.name) rfl <|
  .field 1 nodup_keys rfl rfl (readsBack_text r.title) rfl <|
  .field 2 nodup_keys rfl rfl (readsBack_text r.link) rfl <|
  .field 3 nodup_keys rfl rfl (readsBack_text r.family) rfl <|
  .field 4 nodup_keys rfl rfl (readsBack_category r.category) rfl <|
  .field 5 nodup_keys rfl rfl (readsBack_text r.itemType) rfl <|
  .field 6 nodup_keys rfl rfl (readsBack_uint8 r.level) rfl <|
  .field 7 nodup_keys rfl rfl (.list fun group _ => group.readsBack) rfl <|
  .field 8 nodup_keys rfl rfl (.list fun b _ => b.readsBack) rfl <|
  .field 9 nodup_keys rfl rfl (.list fun b _ => b.readsBack) rfl <|
  .field 10 nodup_keys rfl rfl (.list fun n _ => readsBack_uint32 n) rfl <|
  .field 11 nodup_keys rfl rfl (readsBack_texts r.elements) rfl <| .done _

theorem readsBack {r : Record} (hrates : ∀ x ∈ r.rates, RealReadsBack x) :
    ReadsBack Record.reader r.write r := by
  have hspecials : Fills fields (r.draftTo 12)
      (Json.Writer.optional "specials" (Json.Writer.list Special.write) r.specials) (r.draftTo 13) :=
    .optional 12 (fun d x => { d with specials := x }) nodup_keys rfl rfl
      (fun specials h => .list fun s hs => Special.readsBack fun x hx =>
        hrates x (mem_rates h hs hx)) rfl rfl
  have hskill : Fills fields (r.draftTo 13)
      (Json.Writer.optional "skill" Skill.write r.skill) (r.draftTo 14) :=
    .optional 13 (fun d x => { d with skill := x }) nodup_keys rfl rfl
      (fun skill _ => skill.readsBack) rfl rfl
  have himages : Fills fields (r.draftTo 14)
      [Json.Writer.member "images" (writeTexts r.images)] (r.draftTo 15) :=
    .field 14 nodup_keys rfl rfl (readsBack_texts r.images) rfl (.done _)
  have hmodifies : Fills fields (r.draftTo 15)
      (Json.Writer.optional "modifies" Json.Writer.text r.modifies) (r.draftTo 16) :=
    .optional 15 (fun d x => { d with modifies := x }) nodup_keys rfl rfl
      (fun text _ => readsBack_text text) rfl rfl
  have hcolorCustom : Fills fields (r.draftTo 16)
      (Json.Writer.optional "colorCustom" writeTexts r.colorCustom) (r.draftTo 17) :=
    .optional 16 (fun d x => { d with colorCustom := x }) nodup_keys rfl rfl
      (fun texts _ => readsBack_texts texts) rfl rfl
  have hfills := ((((r.fills_needed.append hspecials).append hskill).append himages).append
    hmodifies).append hcolorCustom
  exact readsBack_object hfills r.finish?_draftTo

/-- A written catalog is read back: no field of a record is lost or changed, and absent fields stay
apart from empty ones. -/
theorem catalogOfJson_catalogToJson {records : List Record}
    (hrates : ∀ r ∈ records, ∀ x ∈ r.rates, RealReadsBack x) :
    catalogOfJson (catalogToJson records) = .ok records :=
  (ReadsBack.list fun r hr => readsBack (hrates r hr)).document

/-- A scythe with two effects, one of them without elements and rate. -/
def frostScythe : Record where
  name := "frost scythe"
  title := "Frost \"Scythe\""
  link := ""
  family := "frost\\scythe"
  category := .weapon
  itemType := "scythe"
  level := 90
  tagSet := [{ tags := ["rare", "dc"] }, {}]
  bonuses := [⟨"int", -3⟩]
  resists := []
  damage := [0, 4294967295]
  elements := ["ice", "\t"]
  specials := some [⟨"on hit", "freeze", some [], some (.ofRatio false 1 10)⟩,
    ⟨"on attack", "chill", none, none⟩]
  skill := none
  images := []
  modifies := some ""
  colorCustom := some []

theorem catalogOfJson_catalogToJson_frostScythe :
    RealReadsBack (.ofRatio false 1 10) ∧
      catalogOfJson (catalogToJson [frostScythe]) = .ok [frostScythe] := by
  have hrate : RealReadsBack (.ofRatio false 1 10) := by
    unfold RealReadsBack
    decide +kernel
  have hrates : ∀ r ∈ [frostScythe], ∀ x ∈ r.rates, RealReadsBack x := by
    rw [List.forall_mem_singleton]
    exact List.forall_mem_singleton.mpr hrate
  exact ⟨hrate, catalogOfJson_catalogToJson hrates⟩

end Record

end ItemCatalog
