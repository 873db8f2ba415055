import ItemCatalog.Proofs.Number.Order
import ItemCatalog.Proofs.Request.Sign
import ItemCatalog.Proofs.Text.Word
import ItemCatalog.Request.Item

/-!
# Requests made from texts

A text is split at its first sign, the text behind the sign has to be a level, and the trimmed text
before it is the name. The test for blank texts sees the whole text and not the name, so a text that
holds nothing but a level bound makes a request without a name.

Results:
1. `ofText_eq_ok_iff`: which texts are levels.
2. `split_eq_ok_some_iff`, `parse_eq_ok_iff`: which texts make requests, and which ones.
3. `madeFrom_of_parse`: what every request has.
-/

namespace ItemCatalog

namespace LevelBound

/-! ## Levels -/

/-- A finite number between zero and the highest level. -/
structure IsLevel (value : Double) : Prop where
  isFinite : value.isFinite
  nonneg : 0 ≤ value.place
  le_maxLevel : value.place ≤ maxLevel.toNat * Double.one

theorem ofNat_maxLevel :
    Double.ofNat maxLevel.toNat = .finite false (maxLevel.toNat * Double.one) := by
  decide +kernel

/-- The comparisons with both ends find the levels among the finite numbers. -/
theorem isLevel_iff {value : Double} (hfinite : value.isFinite) :
    IsLevel value ↔
      ¬ (value.below .zero || (Double.ofNat maxLevel.toNat).below value) := by
  have hnan := Double.ne_nan_of_isFinite hfinite
  have hlow : value.below .zero = true ↔ value.place < 0 :=
    Double.below_iff (y := .zero) hnan nofun
  have hhigh : (Double.ofNat maxLevel.toNat).below value = true ↔
      (maxLevel.toNat * Double.one : Int) < value.place := by
    rw [ofNat_maxLevel, Double.below_iff (by exact nofun) hnan, Double.place_finite,
      if_neg Bool.false_ne_true, Int.natCast_mul]
  rw [Bool.or_eq_true, not_or, hlow, hhigh, Int.not_lt, Int.not_lt]
  exact ⟨fun h => ⟨h.nonneg, h.le_maxLevel⟩, fun h => ⟨hfinite, h.1, h.2⟩⟩

theorem ofText_eq_ok_iff {op : Comparison} {text : List Char} {bound : LevelBound} :
    ofText op text = .ok bound ↔
      bound.op = op ∧ Double.read? (Text.trim text) = some bound.value ∧ IsLevel bound.value := by
  rw [ofText]
  split
  next hread => simp [hread]
  next value hread =>
    rw [hread]
    split
    next hinfinite =>
      refine ⟨nofun, ?_⟩
      rintro ⟨-, ⟨⟩, hlevel⟩
      simp [hlevel.isFinite] at hinfinite
    next hfinite =>
      have hfinite : value.isFinite := by simpa using hfinite
      split
      next hrange =>
        refine ⟨nofun, ?_⟩
        rintro ⟨-, ⟨⟩, hlevel⟩
        exact absurd hrange ((isLevel_iff hfinite).mp hlevel)
      next hrange =>
        constructor
        · rintro ⟨⟩
          exact ⟨rfl, rfl, (isLevel_iff hfinite).mpr hrange⟩
        · rintro ⟨rfl, ⟨⟩, -⟩
          rfl

/-! ## Splitting -/

/-- A text that has a level bound, split at its first sign. -/
structure Bounded (input before behind : List Char) (bound : LevelBound) : Prop where
  first : ∃ sign, FirstSign input before sign bound.op behind
  reads : Double.read? (Text.trim behind) = some bound.value
  isLevel : IsLevel bound.value

theorem split_eq_ok_none_iff {input name : List Char} :
    split input = .ok (name, none) ↔
      (∀ s ∈ signs, ¬ s.1.toList <:+: input) ∧ name = Text.trim input := by
  rw [← splitAtSign?_eq_none_iff, split]
  split
  next hsplit => simp [hsplit, eq_comm]
  next before op behind hsplit =>
    rw [hsplit]
    split
    next => simp
    next => simp

theorem split_eq_ok_some_iff {input name : List Char} {bound : LevelBound} :
    split input = .ok (name, some bound) ↔
      ∃ before behind, Bounded input before behind bound ∧ name = Text.trim before := by
  rw [split]
  split
  next hsplit =>
    refine ⟨nofun, ?_⟩
    rintro ⟨before, behind, hbounded, -⟩
    rw [splitAtSign?_eq_some_iff.mpr hbounded.first] at hsplit
    cases hsplit
  next before op behind hsplit =>
    constructor
    · intro h
      split at h
      next found htext =>
        cases h
        obtain ⟨rfl, hreads, hlevel⟩ := ofText_eq_ok_iff.mp htext
        exact ⟨before, behind, ⟨splitAtSign?_eq_some_iff.mp hsplit, hreads, hlevel⟩, rfl⟩
      next => cases h
    · rintro ⟨before', behind', ⟨hfirst, hreads, hlevel⟩, rfl⟩
      rw [splitAtSign?_eq_some_iff.mpr hfirst] at hsplit
      cases hsplit
      rw [ofText_eq_ok_iff.mpr ⟨rfl, hreads, hlevel⟩]

end LevelBound

namespace ItemRequest

open LevelBound (signs FirstSign Bounded)

/-! ## Names -/

/-- The characters of names besides letters and digits. -/
def nameMarks : List Char :=
  [' ', '-', '|', '\'', '"', '‘', '’', '“', '”']

theorem isNameCharacter_iff {c : Char} : isNameCharacter c ↔ c.isAlphanum ∨ c ∈ nameMarks := by
  have hcode (d : Char) : c.toNat = d.toNat ↔ c = d := Char.toNat_inj
  have hleft := hcode '‘'
  have hright := hcode '’'
  have hopen := hcode '“'
  have hclose := hcode '”'
  simp only [Char.reduceToNat] at hleft hright hopen hclose
  simp only [isNameCharacter, nameMarks, Bool.or_eq_true, decide_eq_true_eq, List.mem_cons,
    List.not_mem_nil, or_false, or_assoc, hleft, hright, hopen, hclose]

theorem ofList_trim_eq_empty_iff {cs : List Char} :
    String.ofList (Text.trim cs) = "" ↔ ∀ c ∈ cs, Text.isBlank c := by
  rw [← Text.trim_eq_nil_iff, ← String.toList_inj, String.toList_ofList]
  rfl

theorem ofList_trim_eq_empty_or_solid (cs : List Char) :
    String.ofList (Text.trim cs) = "" ∨ Text.Solid (String.ofList (Text.trim cs)).toList := by
  rw [ofList_trim_eq_empty_iff, ← Text.trim_eq_nil_iff, String.toList_ofList]
  exact Text.trim_eq_nil_or_solid cs

/-! ## Requests -/

/-- A command, a text that is not blank, a split and a name without special characters make a
request. -/
theorem parse_eq_ok_iff {command input : String} {request : ItemRequest} :
    parse command input = .ok request ↔
      ∃ hints name level, Hints.ofCommand command = .ok hints ∧
        Text.trim input.toList ≠ [] ∧ LevelBound.split input.toList = .ok (name, level) ∧
        (∀ c ∈ name, isNameCharacter c) ∧
        { name := String.ofList name, hints := { hints with level } } = request := by
  unfold parse
  cases hcommand : Hints.ofCommand command with
  | error e => simp [bind, Except.bind]
  | ok hints =>
    by_cases hblank : Text.trim input.toList = []
    · simp [bind, Except.bind, hblank, throw, throwThe, MonadExceptOf.throw]
    · cases hsplit : LevelBound.split input.toList with
      | error e => simp [bind, Except.bind, hblank]
      | ok parts =>
        obtain ⟨name, level⟩ := parts
        by_cases hname : ∀ c ∈ name, isNameCharacter c
        · have hall : name.all isNameCharacter = true := List.all_eq_true.mpr hname
          simpa [bind, Except.bind, hblank, pure, Except.pure, hall] using fun _ => hname
        · have hall : name.all isNameCharacter = false := by
            rwa [← Bool.not_eq_true, List.all_eq_true]
          simp [bind, Except.bind, hblank, throw, throwThe, MonadExceptOf.throw, hall, hname]

/-- What every request has that is made from a text. -/
structure MadeFrom (input : List Char) (request : ItemRequest) : Prop where
  name_characters : ∀ c ∈ request.name.toList, c.isAlphanum ∨ c ∈ nameMarks
  name_trimmed : request.name = "" ∨ Text.Solid request.name.toList
  /-- A name is missing only where nothing but blanks stands before a level bound. -/
  nameless_iff : request.name = "" ↔
    ∃ blanks sign op behind, FirstSign input blanks sign op behind ∧ ∀ c ∈ blanks, Text.isBlank c
  level_isSome_iff : request.hints.level.isSome ↔ ∃ s ∈ signs, s.1.toList <:+: input
  level_bounded : ∀ bound, request.hints.level = some bound →
    ∃ before behind, Bounded input before behind bound ∧
      request.name = String.ofList (Text.trim before)

/-- Every request has a name of the admitted characters, unless its text is a level bound alone, and
a level in the admitted range exactly when its text has a sign, with the comparison of the first
one. -/
theorem madeFrom_of_parse {command input : String} {request : ItemRequest}
    (h : parse command input = .ok request) : MadeFrom input.toList request := by
  obtain ⟨hints, name, level, -, hblank, hsplit, hname, rfl⟩ := parse_eq_ok_iff.mp h
  have hcharacters : ∀ c ∈ (String.ofList name).toList, c.isAlphanum ∨ c ∈ nameMarks := by
    rw [String.toList_ofList]
    exact fun c hc => isNameCharacter_iff.mp (hname c hc)
  cases level with
  | none =>
    obtain ⟨hsign, rfl⟩ := LevelBound.split_eq_ok_none_iff.mp hsplit
    have hno : ¬ ∃ s ∈ signs, s.1.toList <:+: input.toList := by simpa using hsign
    refine ⟨hcharacters, ofList_trim_eq_empty_or_solid _, ?_, by simpa using hno, nofun⟩
    rw [ofList_trim_eq_empty_iff, ← Text.trim_eq_nil_iff]
    refine ⟨fun hempty => absurd hempty hblank, ?_⟩
    rintro ⟨_, _, _, _, hfirst, -⟩
    exact absurd ⟨_, hfirst.longest.mem, hfirst.isInfix⟩ hno
  | some bound =>
    obtain ⟨before, behind, hbounded, rfl⟩ := LevelBound.split_eq_ok_some_iff.mp hsplit
    obtain ⟨sign, hfirst⟩ := hbounded.first
    refine ⟨hcharacters, ofList_trim_eq_empty_or_solid _, ?_, ?_, ?_⟩
    · rw [ofList_trim_eq_empty_iff]
      refine ⟨fun hempty => ⟨before, sign, _, behind, hfirst, hempty⟩, ?_⟩
      rintro ⟨blanks, sign', op', behind', hfirst', hblanks⟩
      -- There is only one first sign.
      have hsame := LevelBound.splitAtSign?_eq_some_iff.mpr ⟨sign', hfirst'⟩
      rw [LevelBound.splitAtSign?_eq_some_iff.mpr hbounded.first] at hsame
      cases hsame
      exact hblanks
    · exact iff_of_true rfl ⟨_, hfirst.longest.mem, hfirst.isInfix⟩
    · rintro _ ⟨⟩
      exact ⟨before, behind, hbounded, rfl⟩

/-- The swords from a level on whose names are like a given one. -/
def swordFromLevel15 : ItemRequest where
  name := "Blade of Awe"
  hints := { category := some .weapon, types := ["sword", "mace", "axe"], level := some ⟨.ge, 15⟩ }

theorem madeFrom_of_parse_sword :
    parse "sword" "Blade of Awe >= 15" = .ok swordFromLevel15 ∧
      MadeFrom "Blade of Awe >= 15".toList swordFromLevel15 := by
  have h : parse "sword" "Blade of Awe >= 15" = .ok swordFromLevel15 := by decide +kernel
  exact ⟨h, madeFrom_of_parse h⟩

/-- A level bound alone is taken for a request, although there is no name to look for. -/
theorem parse_level_alone :
    ¬ ∀ (command input : String) (request : ItemRequest),
      parse command input = .ok request → request.name ≠ "" := by
  intro h
  have hparse : parse "item" "<= 50" = .ok ⟨"", { level := some ⟨.le, 50⟩ }⟩ := by decide +kernel
  exact h _ _ _ hparse rfl

end ItemRequest

end ItemCatalog
