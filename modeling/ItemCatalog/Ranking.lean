import ItemCatalog.Name.Alias
import ItemCatalog.Record.Basic
import ItemCatalog.StableSort

/-!
# Ranking candidates

Of each family of variants the best one is kept: the one that is easiest to come by, of those the one
of the highest level, of those the one with the highest combined score. What is kept is then put in
the order in which it is shown, exact names first. All sorting is stable.
-/

namespace ItemCatalog

/-- How hard an item with a tag is to come by; the lower the number, the harder. -/
def tagPriority (tag : String) : Int :=
  if tag = "temp" then -4
  else if tag = "rare" then -3
  else if tag = "so" then -2
  else if tag = "dc" then -1
  else 0

/-- How hard an item with all tags of a group is to come by, added up in 32 bits. -/
def TagGroup.priority (group : TagGroup) : Int32 :=
  let values := group.tags.map fun tag => (tagPriority tag).toInt32
  values.foldl (· + ·) 0

/-- How hard an item is to come by, in the best of its tag groups. -/
def Record.priority (r : Record) : Int :=
  ((r.tagSet.map (·.priority.toInt)).max?).getD 0

/-- A candidate with what it is ranked by. -/
structure RankedItem where
  record : Record
  relevance : Double
  priority : Int
  bonusSum : Int
  /-- The sum of the bonuses and of the level times the relevance, rounded once. -/
  combinedScore : Double
  exactMatch : Bool
  deriving DecidableEq, Repr

namespace RankedItem

/-- What a candidate for a query is ranked by. -/
def ofCandidate (q : Name.Query) (c : Scored Record) : RankedItem where
  record := c.item
  relevance := c.score
  priority := c.item.priority
  bonusSum := c.item.bonusSum
  combinedScore :=
    Double.fusedMultiplyAdd (Double.ofNat c.item.level.toNat) c.score (Double.ofInt c.item.bonusSum)
  exactMatch := q.matchesExactly c.item.name

/-- Whether the search text says anything about the candidate. -/
def hasRelevance (x : RankedItem) : Bool :=
  Double.zero.below x.relevance

/-- Availability, then level, then combined score, each the highest first. -/
def availabilityOrder (x y : RankedItem) : Ordering :=
  (compare y.priority x.priority).then <|
    (compare y.record.level.toNat x.record.level.toNat).then <|
      y.combinedScore.order x.combinedScore

/-- Exact names first, then availability, then those with relevance, then combined score and sum of
bonuses, each the highest first. -/
def displayOrder (x y : RankedItem) : Ordering :=
  (compare y.exactMatch.toNat x.exactMatch.toNat).then <|
    (compare y.priority x.priority).then <|
      (compare y.hasRelevance.toNat x.hasRelevance.toNat).then <|
        (y.combinedScore.order x.combinedScore).then <| compare y.bonusSum x.bonusSum

/-- Candidates by availability. -/
def sortByAvailability (items : List RankedItem) : List RankedItem :=
  stableSort availabilityOrder items

/-- Candidates as they are shown. -/
def sortForDisplay (items : List RankedItem) : List RankedItem :=
  stableSort displayOrder items

/-- The first candidate of each family that is not among those seen. -/
def firstOfFamilies (seen : List String) : List RankedItem → List RankedItem
  | [] => []
  | x :: rest =>
    if seen.contains x.record.family then firstOfFamilies seen rest
    else x :: firstOfFamilies (x.record.family :: seen) rest

/-- The first candidate of each family. -/
def collapseFamilies (items : List RankedItem) : List RankedItem :=
  firstOfFamilies [] items

end RankedItem

/-- The best candidates of a query, at most `limit`, one for each family. -/
def rank (candidates : List (Scored Record)) (q : Name.Query) (limit : Nat) : List RankedItem :=
  let items := candidates.map (RankedItem.ofCandidate q)
  let best := RankedItem.collapseFamilies (RankedItem.sortByAvailability items)
  (RankedItem.sortForDisplay best).take limit

end ItemCatalog
