import ItemCatalog.Number.Display
import ItemCatalog.Pattern.Basic
import ItemCatalog.Record.Basic

/-!
# Filters

A `Filter` is a condition on records, built from comparisons of their fields, from the words of their
names, and from other filters. `Filter.all`, `Filter.any` and `negate` build filters and leave out
what makes no difference.
-/

namespace ItemCatalog

/-- How two values are compared. -/
inductive Comparison
  | eq
  | ne
  | lt
  | le
  | gt
  | ge
  deriving DecidableEq, Repr

/-- Whether a comparison holds between values in a given order. Values without one are unequal and
nothing else. -/
def Comparison.holds : Comparison → Option Ordering → Bool
  | eq, order => order == some .eq
  | ne, order => order != some .eq
  | lt, order => order == some .lt
  | le, order => order == some .lt || order == some .eq
  | gt, order => order == some .gt
  | ge, order => order == some .gt || order == some .eq

/-- The fields of a record that filters look at. -/
inductive FieldName
  | name
  | category
  | type
  | level
  deriving DecidableEq, Repr

/-- What a field is compared with. -/
inductive Value
  | text (s : String)
  | number (x : Double)
  deriving DecidableEq, Repr

namespace Value

/-- The order of two values of one kind. -/
def order? : Value → Value → Option (Option Ordering)
  | text s, text t => some (some (compare s t))
  | number x, number y => some (x.compare? y)
  | _, _ => none

/-- Whether a comparison holds. Between a text and a number none does. -/
def compares (op : Comparison) (x y : Value) : Bool :=
  (order? x y).elim false op.holds

/-- The text of a value. -/
def display : Value → String
  | text s => s
  | number x => x.plain

end Value

/-- The value of a field. -/
def Record.fieldValue (r : Record) : FieldName → Value
  | .name => .text r.name
  | .category => .text r.category.name
  | .type => .text r.itemType
  | .level => .number (Double.ofNat r.level.toNat)

/-- A condition on records. -/
inductive Filter
  | always
  | equal (field : FieldName) (value : Value)
  | compare (field : FieldName) (op : Comparison) (value : Value)
  | oneOf (field : FieldName) (values : List Value)
  /-- Every word of every phrase is a word of the name. -/
  | words (phrases : List String)
  | pattern (field : FieldName) (p : Pattern)
  /-- Every tag group has all of the tags. -/
  | everyTagGroup (tags : List String)
  | and (filters : List Filter)
  | or (filters : List Filter)
  | not (filter : Filter)
  deriving Repr

namespace Filter

/-- Whether a filter lets everything pass by its form. -/
def isAlways : Filter → Bool
  | always => true
  | _ => false

/-- All of the filters hold. -/
def all (filters : List Filter) : Filter :=
  match filters.filter (!·.isAlways) with
  | [] => always
  | [filter] => filter
  | several => and several

/-- One of the filters holds. -/
def any : List Filter → Filter
  | [filter] => filter
  | filters => or filters

/-- The filter does not hold. -/
def negate (filter : Filter) : Filter :=
  not filter

end Filter

end ItemCatalog
