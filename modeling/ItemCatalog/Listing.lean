import ItemCatalog.Filter.Basic
import ItemCatalog.Number.Display

/-!
# Listings

A listing shows scored records in groups of equal score, the best first. It has at most a given number
of groups, and its text at most a given number of characters; what does not fit is left out and the
listing marked as truncated. Of variants with one link or one name only the highest level is shown,
and rare items do not appear behind the second group.
-/

namespace ItemCatalog

/-- Which scores come first. -/
inductive Direction
  /-- The lowest. -/
  | ascending
  /-- The highest. -/
  | descending
  deriving DecidableEq, Repr

/-- The name of a direction. -/
def Direction.name : Direction → String
  | ascending => "ascending"
  | descending => "descending"

/-- The order of a direction, from the ascending one. -/
def Direction.apply (d : Direction) (order : Ordering) : Ordering :=
  match d with
  | ascending => order
  | descending => order.swap

/-- How a listing is made. -/
structure ListingOptions where
  direction : Direction := .descending
  maxChars : Nat := 2048
  maxGroups : Nat := 8
  deriving DecidableEq, Repr

/-- A record as a listing shows it. -/
structure ListingEntry where
  title : String
  link : String
  level : UInt8
  deriving DecidableEq, Repr

/-- The entries of one score. -/
structure ScoreGroup where
  score : Double
  entries : List ListingEntry
  deriving DecidableEq, Repr

/-- Groups of entries under a label. -/
structure Listing where
  label : String
  direction : Direction
  groups : List ScoreGroup
  /-- Whether groups or entries were left out because they did not fit. -/
  truncated : Bool
  deriving DecidableEq, Repr

/-- The smallest number of 64 bits. -/
def minInt64 : Int := Int64.minValue.toInt

/-- The largest number of 64 bits. -/
def maxInt64 : Int := Int64.maxValue.toInt

/-- A whole number with its sign. -/
def signedWhole (n : Int) : String :=
  (if n < 0 then "-" else "+") ++ String.ofList (digitsOf n.natAbs)

/-- A score with its sign, without decimals when it is a whole number. Whole numbers beyond 64 bits
are shown as the nearest within. -/
def formatScore (x : Double) : String :=
  if x.isWhole then signedWhole (max minInt64 (min maxInt64 x.truncated)) else x.signedHundredths

namespace ScoreGroup

/-- The score of a group as it is shown in front of the entries. -/
def heading (score : Double) : String :=
  "**" ++ formatScore score ++ "**: "

/-- The text of a group. -/
def render (g : ScoreGroup) : String :=
  heading g.score ++ ", ".intercalate (g.entries.map (·.title))

end ScoreGroup

namespace Listing

/-- The text of a listing: one line for each group. -/
def render (l : Listing) : String :=
  "\n".intercalate (l.groups.map ScoreGroup.render)

/-- Whether nothing is shown. -/
def isEmpty (l : Listing) : Bool :=
  l.groups.isEmpty

/-- Records that are never listed: default gear, and what is both temporary and rare in every
variant. -/
def exclusions : Filter :=
  .all [.negate (.everyTagGroup ["default"]), .negate (.everyTagGroup ["temp", "rare"])]

/-- Whether a record is rare in every variant. -/
def isRareOnly (r : Record) : Bool :=
  r.everyTagGroup (·.contains "rare")

/-- Whether a score counts: it is finite and not zero. -/
def isListed (s : Scored Record) : Bool :=
  s.score.isFinite && !s.score.same .zero

/-- By score and then by level. -/
def scoreOrder (a b : Scored Record) : Ordering :=
  (a.score.order b.score).then (compare a.item.level.toNat b.item.level.toNat)

/-- Scored records in the order of a listing; the sorting is stable. -/
def sorted (d : Direction) (records : List (Scored Record)) : List (Scored Record) :=
  records.mergeSort fun a b => (d.apply (scoreOrder a b)).isLE

/-- Places of records under keys. Of two places under one key the one in front holds. -/
abbrev Places (κ : Type) (records : List (Scored Record)) : Type :=
  List (κ × Fin records.length)

/-- Notes the place of a record under its key. A place that is there already stays, unless the record
at the new one has a higher level. -/
def notePlace [BEq κ] (key : Record → κ) (records : List (Scored Record))
    (noted : Places κ records) (i : Fin records.length) : Places κ records :=
  let k := key (records.get i).item
  match noted.lookup k with
  | none => (k, i) :: noted
  | some j =>
    if (records.get j).item.level < (records.get i).item.level then (k, i) :: noted else noted

/-- For each key the place of the record to keep. -/
def bestPlaces [BEq κ] (key : Record → κ) (records : List (Scored Record)) : Places κ records :=
  (List.finRange records.length).foldl (notePlace key records) []

/-- The places of the records to keep: those that are noted under the key of their record. -/
def keptPlaces [BEq κ] (key : Record → κ) (records : List (Scored Record)) :
    List (Fin records.length) :=
  let best := bestPlaces key records
  (List.finRange records.length).filter fun i => best.lookup (key (records.get i).item) = some i

/-- Keeps the record of the highest level for each key, the first one of several, in the order
given. -/
def keepHighestLevel [BEq κ] (key : Record → κ) (records : List (Scored Record)) :
    List (Scored Record) :=
  (keptPlaces key records).map records.get

/-- Puts a record in front of groups, into the first one when that has its score. -/
def addToGroups (s : Scored Record) : List (Double × List Record) → List (Double × List Record)
  | [] => [(s.score, [s.item])]
  | (score, items) :: rest =>
    if s.score.same score then (s.score, s.item :: items) :: rest
    else (s.score, [s.item]) :: (score, items) :: rest

/-- Runs of records with one score. -/
def grouped (records : List (Scored Record)) : List (Double × List Record) :=
  records.foldr addToGroups []

/-- The records that a listing chooses from, in groups. -/
def candidates (d : Direction) (scored : List (Scored Record)) : List (Double × List Record) :=
  grouped <| keepHighestLevel (·.name) <| keepHighestLevel (·.link) <|
    sorted d (scored.filter isListed)

/-- A record as a listing shows it. -/
def entryOf (r : Record) : ListingEntry := ⟨r.title, r.link, r.level⟩

/-- The entries of a group that has `shown` groups before it. -/
def entriesAfter (shown : Nat) (items : List Record) : List ListingEntry :=
  (items.filter fun r => !(2 ≤ shown && isRareOnly r)).map entryOf

/-- How many of the leading entries fit, where `used` characters are taken and `first` says that no
entry has been shown. Entries are separated by a comma and a space. -/
def countFitting (budget used : Nat) (first : Bool) : List ListingEntry → Nat
  | [] => 0
  | e :: rest =>
    let used := used + e.title.length + if first then 0 else 2
    if budget < used then 0 else countFitting budget used false rest + 1

/-- The group with the leading entries that fit a budget, or nothing when the first does not. -/
def fitEntries (g : ScoreGroup) (budget : Nat) : List ScoreGroup :=
  match countFitting budget (ScoreGroup.heading g.score).length true g.entries with
  | 0 => []
  | keep => [⟨g.score, g.entries.take keep⟩]

/-- The groups that are shown after `shown` others whose text takes `used` characters, and whether
something is left out. -/
def takeGroups (options : ListingOptions) (shown used : Nat) :
    List (Double × List Record) → List ScoreGroup × Bool
  | [] => ([], false)
  | (score, items) :: rest =>
    if options.maxGroups ≤ shown then ([], true)
    else
      let entries := entriesAfter shown items
      if entries.isEmpty then takeGroups options shown used rest
      else
        let group : ScoreGroup := ⟨score, entries⟩
        let used' := used + group.render.length + if shown = 0 then 0 else 1
        if options.maxChars < used' then
          (if shown = 0 then fitEntries group options.maxChars else [], true)
        else
          let (groups, truncated) := takeGroups options (shown + 1) used' rest
          (group :: groups, truncated)

/-- The listing of scored records under a label. -/
def build (label : String) (scored : List (Scored Record)) (options : ListingOptions) : Listing :=
  let (groups, truncated) := takeGroups options 0 0 (candidates options.direction scored)
  ⟨label, options.direction, groups, truncated⟩

end Listing

end ItemCatalog
