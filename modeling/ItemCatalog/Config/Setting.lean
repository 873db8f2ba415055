/-!
# Settings

A `Setting` is a value of a configuration file or of an environment variable. Layers of settings are
merged: where both have a table for a key the tables are merged, otherwise the later layer counts.
-/

namespace ItemCatalog

/-- A configured value. -/
inductive Setting
  | text (s : String)
  | whole (n : Int)
  /-- A number with a fraction, which no setting of the program takes. -/
  | real
  | truth (b : Bool)
  | list (items : List Setting)
  | table (entries : List (String × Setting))
  deriving Repr, Inhabited

namespace Setting

/-- The entries of a table, none for other values. -/
def entries : Setting → List (String × Setting)
  | table entries => entries
  | _ => []

/-- The value of a key in a table. -/
def get? (s : Setting) (key : String) : Option Setting :=
  s.entries.lookup key

/-- Sets a key in the entries of a table. -/
def put (key : String) (value : Setting) : List (String × Setting) → List (String × Setting)
  | [] => [(key, value)]
  | (k, v) :: rest => if k = key then (key, value) :: rest else (k, v) :: put key value rest

mutual

/-- A value laid over an older one. -/
def mergeOver (old : Setting) : Setting → Setting
  | table entries => table (mergeEntries old.entries entries)
  | value => value

/-- The entries of a table laid over those of an older one. -/
def mergeEntries (old : List (String × Setting)) :
    List (String × Setting) → List (String × Setting)
  | [] => old
  | entry :: rest => mergeEntries (mergeEntry old entry) rest

/-- One entry laid over the entries of an older table. -/
def mergeEntry (old : List (String × Setting)) : String × Setting → List (String × Setting)
  | (key, value) =>
    put key (match old.lookup key with
      | some previous => mergeOver previous value
      | none => mergeOver (table []) value) old

end

/-- A value under a path of keys. -/
def atPath (path : List String) (value : Setting) : Setting :=
  path.foldr (fun key inner => table [(key, inner)]) value

end Setting

end ItemCatalog
