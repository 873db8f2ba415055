import ItemCatalog.Catalog
import ItemCatalog.Pattern.Name
import ItemCatalog.Request.Item

/-!
# Retrieving candidates

Candidates for a query are found in two ways. Exact retrieval looks for the words of the query in the
names, or for the phrase with other spaces; the score is that of the words. Fuzzy retrieval asks the
name index, with more edits for longer words and with other words for some weapons; the score is the
weight of the name. Both keep to the hints, and to the roman numeral of the query if it has one.
-/

namespace ItemCatalog

/-- The faults of a search. -/
inductive SearchFault
  /-- The spaced pattern of the phrase is too large. -/
  | patternTooLarge
  /-- The query pins a prefix that the index cannot look for. -/
  | indexLimit
  deriving DecidableEq, Repr

/-- Weapon words with the words that are searched along with them. -/
def weaponSynonyms : List (String × String) :=
  [("blade", "blade sword dagger knife"), ("dagger", "dagger knife blade"),
    ("knife", "dagger knife blade"), ("sword", "blade sword"), ("staff", "staff stave")]

/-- The clause for a word: the longer the word, the more edits are allowed; words from four letters on
are required, and from six on their first letter is pinned. -/
def fuzzyClause (word : String) : String :=
  match word.toList with
  | [] => ""
  | first :: rest =>
    if word.length ≤ 2 then word
    else if word.length = 3 then word ++ "~1"
    else if word.length ≤ 5 then "+" ++ word ++ "~1"
    else "+" ++ String.singleton first ++ "^" ++ String.ofList rest ++ "~2"

/-- The clauses for a word: those of its synonyms, or its own. -/
def expandWord (word : String) : String :=
  (weaponSynonyms.lookup word).getD (fuzzyClause word)

/-- The index query for a search phrase. -/
def expandQuery (q : Name.Query) : String :=
  " ".intercalate ((q.words.filter (!·.isEmpty)).map expandWord)

/-- The condition that a name holds the roman numeral of the query, if it has one. Its pattern is never
too large, since numerals below forty have seven letters at most. -/
def numeralFilters (q : Name.Query) : List Filter :=
  match Pattern.numeral? q with
  | some numeral => [.pattern .name (Pattern.standalone numeral)]
  | none => []

/-- A catalog with the index of its names, and what they are searched with. -/
structure Retriever where
  catalog : Catalog
  index : NameIndex
  matchers : Matchers

namespace Retriever

/-- A catalog with its index. -/
def ofCatalog (catalog : Catalog) (matchers : Matchers := .standard) : Retriever :=
  ⟨catalog, NameIndex.ofNames catalog.names, matchers⟩

/-- The condition on names for exact retrieval. Phrases of fewer than three characters have no spaced
pattern. -/
def nameFilter (matchers : Matchers) (q : Name.Query) : Except SearchFault Filter :=
  if q.phrase.length < 3 then .ok (.words q.tokens)
  else match Pattern.spaced? q.phrase matchers with
    | some p => .ok (.any [.words q.tokens, .pattern .name p])
    | none => .error .patternTooLarge

/-- The candidates with the words or the spelling of a query. -/
def resolveExact (r : Retriever) (q : Name.Query) (hints : Hints) :
    Except SearchFault (List (Scored Record)) := do
  let name ← nameFilter r.matchers q
  return r.catalog.find (.all ([hints.toFilter, name] ++ numeralFilters q))

/-- The weight of a name among the hits of the index. -/
def weightOf (hits : List (Scored String)) (name : String) : Double :=
  ((hits.find? (·.item = name)).map (·.score)).getD .zero

/-- The candidates whose names the index finds. -/
def resolveFuzzy (r : Retriever) (q : Name.Query) (hints : Hints) :
    Except SearchFault (List (Scored Record)) :=
  match r.index.query? (expandQuery q) r.matchers with
  | none => .error .indexLimit
  | some [] => .ok []
  | some hits =>
    let found := r.catalog.find
      (.all ([hints.toFilter, .oneOf .name (hits.map fun hit => .text hit.item)] ++ numeralFilters q))
    .ok (found.map fun candidate => ⟨candidate.item, weightOf hits candidate.item.name⟩)

/-- The candidates for a query; none for an empty one. -/
def resolve (r : Retriever) (q : Name.Query) (hints : Hints) (fuzzy : Bool) :
    Except SearchFault (List (Scored Record)) :=
  if q.isEmpty then .ok []
  else if fuzzy then r.resolveFuzzy q hints
  else r.resolveExact q hints

end Retriever

end ItemCatalog
