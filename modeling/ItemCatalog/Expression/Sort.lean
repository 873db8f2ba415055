import ItemCatalog.Expression.Conversion
import ItemCatalog.Expression.Label

/-!
# Sort expressions

`SortExpression.compile` reads the text of an expression once and makes two things of it: the score
of a record, and the label of the listing.
-/

namespace ItemCatalog

open Expression

/-- An expression that records can be sorted by. -/
structure SortExpression where
  /-- The fully bracketed text. -/
  canonical : String
  /-- The text without the outermost brackets. -/
  label : String
  score : Score
  deriving DecidableEq, Repr

namespace SortExpression

/-- Why a text is no sort expression. -/
inductive Fault
  | expression (e : ExpressionError)
  /-- The postfix notation is malformed at a place. -/
  | malformedPostfix (position : Nat)
  deriving DecidableEq, Repr

/-- A value of postfix notation, with the place where it is malformed as a fault. -/
def folded (value : Except Nat α) : Except Fault α :=
  value.mapError .malformedPostfix

/-- The sort expression that a text describes. -/
def compile (source : String) : Except Fault SortExpression := do
  let steps ← (postfixOfSource source).mapError .expression
  if steps.isEmpty then throw (.expression .emptyExpression)
  let canonical ← folded (canonicalText steps)
  let score ← folded (Score.ofPostfix steps)
  return { canonical, label := stripBrackets canonical, score }

/-- The score of a record. -/
def evaluate (e : SortExpression) (r : Record) : Double :=
  e.score.ofRecord r

end SortExpression

end ItemCatalog
