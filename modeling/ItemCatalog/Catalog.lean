import ItemCatalog.Filter.Evaluation
import ItemCatalog.Index.Basic
import ItemCatalog.Record.Json

/-!
# The catalog

A `Catalog` is a list of valid records. `Catalog.find` lists the records that pass a filter, in their
order, each with its score.
-/

namespace ItemCatalog

/-- Records that passed validation, in order. -/
structure Catalog where
  records : List Record
  deriving DecidableEq, Repr

/-- Why a text is not a catalog. -/
inductive CatalogFault
  | json (fault : Json.Fault)
  | invalidRecord (title : String) (fault : RecordFault)
  deriving DecidableEq, Repr

namespace Catalog

/-- A catalog of records, or the fault of the first invalid one. -/
def ofRecords (records : List Record) : Except CatalogFault Catalog :=
  match records.findSome? faultOf with
  | some fault => .error fault
  | none => .ok ⟨records⟩
where
  /-- The fault of a record. -/
  faultOf (r : Record) : Option CatalogFault :=
    match r.validate with
    | .ok () => none
    | .error (title, fault) => some (.invalidRecord title fault)

/-- The catalog that a JSON text describes. -/
def ofJson (source : String) : Except CatalogFault Catalog :=
  match Record.catalogOfJson source with
  | .ok records => ofRecords records
  | .error fault => .error (.json fault)

/-- The records that pass a filter, with their scores. -/
def find (c : Catalog) (filter : Filter) : List (Scored Record) :=
  c.records.filterMap fun r => (filter.evaluate .double r).map fun score => ⟨r, score⟩

/-- The distinct names in alphabetical order. -/
def names (c : Catalog) : List String :=
  distinctSorted (c.records.map (·.name))

/-- How many records there are. -/
def size (c : Catalog) : Nat :=
  c.records.length

end Catalog

end ItemCatalog
