import ItemCatalog.Index.Weight
import ItemCatalog.Matchers
import ItemCatalog.Record.Basic

/-!
# The name index

The index holds each distinct name once, with its terms. `NameIndex.query` finds the names that meet
the clauses of a query and lists them by weight.
-/

namespace ItemCatalog

open Index (Clause Statistics)

/-- A name with its terms. -/
structure IndexedName where
  name : String
  terms : List String
  deriving DecidableEq, Repr

/-- The distinct names of a catalog with their terms, in alphabetical order. -/
structure NameIndex where
  entries : List IndexedName
  deriving DecidableEq, Repr

/-- Texts in alphabetical order, each once. -/
def distinctSorted (texts : List String) : List String :=
  (texts.mergeSort fun a b => decide (a ≤ b)).eraseReps

namespace NameIndex

/-- The index of some names. -/
def ofNames (names : List String) : NameIndex :=
  ⟨(distinctSorted names).map fun name => ⟨name, Index.terms name⟩⟩

/-- How many names there are. -/
def size (index : NameIndex) : Nat :=
  index.entries.length

/-- What weights depend on. -/
def statistics (index : NameIndex) : Statistics where
  names := index.size
  terms := (index.entries.map (·.terms.length)).foldr (· + ·) 0

/-- How many names have a term. -/
def holders (index : NameIndex) (term : String) : Nat :=
  index.entries.countP (·.terms.contains term)

/-- Whether a clause pins a prefix that the index cannot look for. Exact clauses have no use for their
prefix. -/
def pinsTooMuch (matchers : Matchers) (c : Clause) : Bool :=
  c.edits ≠ 0 && !c.pinnedPrefix.isEmpty && !matchers.takesPrefix c.pinnedPrefix

/-- The weight of a name for the clauses that it meets, added up in single precision. Each clause comes
with the number of names that have its term. -/
def weigh (stats : Statistics) (clauses : List (Clause × Nat)) (terms : List String) : Double :=
  let met := clauses.filter fun (c, _) => c.accepts terms
  Double.ofSingle (met.foldl (fun sum (c, holders) => sum + c.weight stats holders terms) 0.0)

/-- Whether one hit is listed before another, or as well: by weight, then by name. -/
def listedBefore (a b : Scored String) : Bool :=
  match b.score.order a.score with
  | .lt => true
  | .eq => decide (a.item ≤ b.item)
  | .gt => false

/-- The names that meet a list of clauses, the best first. -/
def hits (index : NameIndex) (clauses : List Clause) : List (Scored String) :=
  let stats := index.statistics
  let counted := clauses.map fun c => (c, index.holders c.term)
  let met := index.entries.filter fun entry => Clause.acceptsAll clauses entry.terms
  (met.map fun entry => ⟨entry.name, weigh stats counted entry.terms⟩).mergeSort listedBefore

/-- The names that a query finds, the best first. A query without clauses finds none; one that pins
too much fails unless there are no names. -/
def query? (index : NameIndex) (query : String) (matchers : Matchers := .standard) :
    Option (List (Scored String)) :=
  let clauses := Clause.parse query
  if clauses.isEmpty || index.entries.isEmpty then some []
  else if clauses.any (pinsTooMuch matchers) then none
  else some (index.hits clauses)

end NameIndex

end ItemCatalog
