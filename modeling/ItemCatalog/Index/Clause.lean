import ItemCatalog.Index.Edit
import ItemCatalog.Index.Term
import ItemCatalog.Number.Decimal

/-!
# Clauses of index queries

A query is a list of clauses with blanks between them:

* `term` is optional and adds to the score of the names that have it;
* `+term` is required;
* `term~N` also accepts terms that differ by up to `N` edits, of which two count at most;
* `t^erm` pins what stands before the `^`: a name has to have a term that starts with it.

A clause whose term the analysis splits becomes several.
-/

namespace ItemCatalog.Index

/-- One condition of a query. -/
structure Clause where
  term : String
  required : Bool
  /-- How many edits are allowed. -/
  distance : Nat
  /-- How many leading characters are pinned. -/
  pinned : Nat
  deriving DecidableEq, Repr

namespace Clause

/-- The pinned characters. -/
def pinnedPrefix (c : Clause) : String :=
  String.ofList (c.term.toList.take c.pinned)

/-- The edits that count. -/
def edits (c : Clause) : Nat :=
  min c.distance 2

/-- A number of edits: digits, perhaps behind a plus sign, for a number of 64 bits. Other texts mean
none. -/
def readDistance (cs : List Char) : Nat :=
  let digits := match cs with
    | '+' :: rest => rest
    | cs => cs
  let n := digitsValue digits
  if digits.isEmpty || !digits.all Char.isDigit || UInt64.size ≤ n then 0 else n

/-- Splits off a plus sign in front. -/
def splitRequired : List Char → Bool × List Char
  | '+' :: rest => (true, rest)
  | rest => (false, rest)

/-- Splits a text at the last occurrence of a character, if there is one. -/
def splitLast (c : Char) (cs : List Char) : List Char × Option (List Char) :=
  if cs.contains c then
    let tail := cs.reverse.takeWhile (· ≠ c)
    ((cs.reverse.drop (tail.length + 1)).reverse, some tail.reverse)
  else (cs, none)

/-- Splits a text at the first occurrence of a character, if there is one. -/
def splitFirst (c : Char) (cs : List Char) : List Char × Option (List Char) :=
  if cs.contains c then (cs.takeWhile (· ≠ c), some ((cs.dropWhile (· ≠ c)).drop 1)) else (cs, none)

/-- The clauses for the terms of one written clause. Only the first keeps the pinned characters, as
many as it has. -/
def ofTerms (required : Bool) (distance pinned : Nat) : List String → List Clause
  | [] => []
  | term :: more =>
    ⟨term, required, distance, min pinned term.length⟩ ::
      more.map fun term => ⟨term, required, distance, 0⟩

/-- The clauses that one run of characters means. -/
def ofWord (cs : List Char) : List Clause :=
  let (required, rest) := splitRequired cs
  let (body, edits) := splitLast '~' rest
  let (head, tail) := splitFirst '^' body
  ofTerms required (edits.elim 0 readDistance) (if tail.isSome then head.length else 0)
    (terms (String.ofList (head ++ tail.getD [])))

/-- The clauses of a query. -/
def parse (query : String) : List Clause :=
  (Text.words query.toList).flatMap ofWord

/-- A clause as it is written in a query. -/
def write (c : Clause) : List Char :=
  let letters := c.term.toList
  (if c.required then ['+'] else []) ++
    (if c.pinned = 0 then letters else letters.take c.pinned ++ '^' :: letters.drop c.pinned) ++
    (if c.distance = 0 then [] else '~' :: digitsOf c.distance)

/-- Whether a name has the term itself. -/
def hitsExactly (c : Clause) (terms : List String) : Bool :=
  terms.contains c.term

/-- Whether a name has a term that differs by few enough edits. -/
def hitsNearly (c : Clause) (terms : List String) : Bool :=
  c.edits ≠ 0 && terms.any fun term => similar c.edits c.term.toList term.toList

/-- Whether a name has a term that starts with the pinned characters, where they are looked at: an
exact clause has no use for them. -/
def keepsPrefix (c : Clause) (terms : List String) : Bool :=
  c.edits = 0 || terms.any fun term => c.pinnedPrefix.toList.isPrefixOf term.toList

/-- Whether a name with these terms meets the clause. -/
def accepts (c : Clause) (terms : List String) : Bool :=
  (c.hitsExactly terms || c.hitsNearly terms) && (c.pinnedPrefix.isEmpty || c.keepsPrefix terms)

/-- Whether a name meets a query: all required clauses, or any clause where none is required. -/
def acceptsAll (clauses : List Clause) (terms : List String) : Bool :=
  if clauses.any (·.required) then (clauses.filter (·.required)).all (·.accepts terms)
  else clauses.any (·.accepts terms)

end Clause

end ItemCatalog.Index
