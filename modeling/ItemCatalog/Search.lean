import ItemCatalog.Expression.Sort
import ItemCatalog.Listing
import ItemCatalog.Ranking
import ItemCatalog.Retrieval

/-!
# Searching a catalog

`ItemSearch.lookup` finds the best item for a name, and only if no name has its words it asks the name
index. `ItemSearch.sortListing` lists all items that the hints allow by a sort expression.
-/

namespace ItemCatalog

/-- The best item for a name, with other candidates that are similar. -/
structure Lookup where
  item : Record
  similar : List Record
  /-- Whether the item was found by the name index. -/
  fuzzy : Bool
  deriving DecidableEq, Repr

/-- A catalog that can be searched. -/
structure ItemSearch where
  retriever : Retriever
  aliases : Name.AliasTable
  /-- How many items a lookup shows. -/
  limit : Nat

namespace ItemSearch

/-- A catalog with its index, searched with the short names in common use. -/
def ofCatalog (catalog : Catalog) (limit : Nat) (matchers : Matchers := .standard) : ItemSearch :=
  ⟨Retriever.ofCatalog catalog matchers, .builtin, limit⟩

/-- The lookup that a ranked list gives. -/
def ofRanked (fuzzy : Bool) : List RankedItem → Option Lookup
  | [] => none
  | best :: rest => some ⟨best.record, rest.map (·.record), fuzzy⟩

/-- The lookup by one way of retrieval. -/
def lookupBy (s : ItemSearch) (q : Name.Query) (hints : Hints) (fuzzy : Bool) :
    Except SearchFault (Option Lookup) := do
  let candidates ← s.retriever.resolve q hints fuzzy
  return ofRanked fuzzy (rank candidates q s.limit)

/-- The best item for a name, if one is found. -/
def lookup (s : ItemSearch) (name : String) (hints : Hints) :
    Except SearchFault (Option Lookup) := do
  let q := s.aliases.normalize name
  match ← s.lookupBy q hints false with
  | some found => return some found
  | none => s.lookupBy q hints true

/-- The records that pass a filter, each with its score. -/
def scoreAll (s : ItemSearch) (filter : Filter) (e : SortExpression) : List (Scored Record) :=
  (s.retriever.catalog.find filter).map fun c => ⟨c.item, e.evaluate c.item⟩

/-- The records that a listing is made of: those that the hints allow and that are not excluded. -/
def listingFilter (hints : Hints) : Filter :=
  .all [hints.toFilter, Listing.exclusions]

/-- The listing of all items that the hints allow. -/
def sortListing (s : ItemSearch) (e : SortExpression) (hints : Hints) (options : ListingOptions) :
    Listing :=
  Listing.build e.label (s.scoreAll (listingFilter hints) e) options

end ItemSearch

end ItemCatalog
