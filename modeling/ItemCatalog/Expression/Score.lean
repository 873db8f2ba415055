import ItemCatalog.Expression.Tree
import ItemCatalog.Record.Basic

/-!
# Scoring records

The names in a sort expression stand for stats of a record. `Attribute.ofName` says where a stat is
read from, and `Score` is an expression over such stats. A record that lacks a stat has zero of it.
-/

namespace ItemCatalog.Expression

/-- The stats that are read from the bonuses of a record. -/
def bonusNames : List String :=
  ["block", "dodge", "parry", "crit", "magic def", "pierce def", "melee def", "wis", "end", "cha",
    "luk", "int", "dex", "str", "bonus"]

/-- Whether a name means a bonus. -/
def isBonus (name : String) : Bool :=
  bonusNames.contains name

/-- Whether a name means a resistance: all names do but `damage` and those of bonuses. -/
def isResist (name : String) : Bool :=
  name != "damage" && !isBonus name

/-- Where the value of a name is read from. -/
inductive Attribute
  /-- The mean of the damage range. -/
  | damage
  | bonus (key : String)
  | resist (key : String)
  deriving DecidableEq, Repr

namespace Attribute

/-- What a name stands for. -/
def ofName (name : String) : Attribute :=
  if name = "damage" then damage
  else if isBonus name then bonus name
  else resist name

/-- The whole number that a record has of a stat; the mean damage is not one. -/
def stat? (r : Record) : Attribute → Option Int32
  | damage => none
  | bonus key => r.bonus? key
  | resist key => r.resist? key

/-- What a record has of a stat. -/
def read (r : Record) : Attribute → Double
  | damage => r.averageDamage
  | stat => (stat.stat? r).elim .zero (Double.ofInt ·.toInt)

end Attribute

/-- A score to be computed from the stats of a record. -/
abbrev Score := Tree Attribute

/-- Arithmetic of double precision. -/
def doubleArithmetic : Arithmetic Double := ⟨Double.neg, Double.add, Double.sub⟩

/-- The score of a record. -/
def Score.ofRecord (score : Score) (r : Record) : Double :=
  score.evaluate (Attribute.read r) doubleArithmetic

/-- The score that postfix notation describes, or the place where it is malformed. -/
def Score.ofPostfix (steps : List (Step String)) : Except Nat Score :=
  foldPostfix (fun name => .leaf (Attribute.ofName name)) Tree.building steps

end ItemCatalog.Expression
