import ItemCatalog.Filter.Basic

/-!
# Evaluating filters

A record that passes a filter gets a score for the words of its name that were asked for. Only
`Filter.words` adds to it: conjunctions add up, of alternatives the best counts, and a negation has no
score. The arithmetic of scores is a parameter, `Weighing`; the program computes in double precision.
-/

namespace ItemCatalog

/-- How scores are computed. -/
structure Weighing (α : Type) where
  zero : α
  add : α → α → α
  larger : α → α → α
  /-- The weight of a word that makes up `count` of the `total` words of a name. -/
  occurrence (count total : Nat) : α

namespace Weighing

/-- Scores in double precision. A word weighs its count, times one half and another half by its share
of the name. -/
def double : Weighing Double where
  zero := .zero
  add := Double.add
  larger := Double.larger
  occurrence count total :=
    let half := Double.ofRatio false 1 2
    Double.ofNat count *
      Double.fusedMultiplyAdd half (Double.ofNat count / Double.ofNat total) half

end Weighing

namespace Filter

variable {α : Type} (w : Weighing α)

/-- The words of phrases, in order. -/
def phraseWords (phrases : List String) : List (List Char) :=
  phrases.flatMap fun phrase => Text.spacedWords phrase.toList

/-- Adds up the weights of words, each of which has to be a word of the name. -/
def weighWords (nameWords : List (List Char)) (score : α) : List (List Char) → Option α
  | [] => some score
  | word :: rest =>
    let count := nameWords.count word
    if count = 0 then none
    else weighWords nameWords (w.add score (w.occurrence count nameWords.length)) rest

/-- The score of a name for phrases whose words all occur in it. There has to be a word. -/
def wordScore (phrases : List String) (name : String) : Option α :=
  match phraseWords phrases with
  | [] => none
  | sought => weighWords w (Text.spacedWords name.toList) w.zero sought

/-- The score zero, if a condition holds. -/
def passIf (condition : Bool) : Option α :=
  if condition then some w.zero else none

/-- The larger of two scores that may be missing. -/
def best : Option α → Option α → Option α
  | some x, some y => some (w.larger x y)
  | some x, none => some x
  | none, y => y

mutual

/-- The score of a record that passes the filter. -/
def evaluate (r : Record) : Filter → Option α
  | always => some w.zero
  | equal field value => passIf w ((r.fieldValue field).compares .eq value)
  | compare field op value => passIf w ((r.fieldValue field).compares op value)
  | oneOf field values => passIf w (values.any ((r.fieldValue field).compares .eq ·))
  | words phrases => wordScore w phrases r.name
  | pattern field p => passIf w (p.isMatch (r.fieldValue field).display)
  | everyTagGroup tags => passIf w (r.everyTagGroup fun group => tags.all group.contains)
  | and filters => evaluateAll r w.zero filters
  | or filters => evaluateAny r none filters
  | not filter => passIf w (evaluate r filter).isNone

/-- The sum of the scores of filters that all pass, added to what came before. -/
def evaluateAll (r : Record) (score : α) : List Filter → Option α
  | [] => some score
  | filter :: rest =>
    match evaluate r filter with
    | some x => evaluateAll r (w.add score x) rest
    | none => none

/-- The best score among filters and what came before. -/
def evaluateAny (r : Record) (score : Option α) : List Filter → Option α
  | [] => score
  | filter :: rest => evaluateAny r (best w score (evaluate r filter)) rest

end

end Filter

end ItemCatalog
