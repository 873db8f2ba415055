import ItemCatalog.Config.TomlValue

/-!
# TOML documents

A document gives values to keys, under headers that name the table they belong to. A key may be set
once and a table be opened once. `Node` is a document while it is read, where tables remember how they
came about; `Toml.read?` gives the settings of a whole document.
-/

namespace ItemCatalog.Config.Toml

/-- How a table came about. -/
inductive Origin
  /-- On the way to a table that a header names. -/
  | passed
  /-- By a header of its own. -/
  | header
  /-- By a key with points in it. -/
  | key
  deriving DecidableEq, Repr

/-- A part of a document while it is read. -/
inductive Node
  | value (s : Setting)
  | table (origin : Origin) (entries : List (String × Node))
  /-- Tables under one header that repeats, the last one first. -/
  | tables (elements : List (List (String × Node)))

/-- The entries of a table while it is read. -/
abbrev Entries := List (String × Node)

namespace Node

/-- Replaces an entry, or adds it at the end. -/
def put (key : String) (node : Node) : Entries → Entries
  | [] => [(key, node)]
  | (k, v) :: rest => if k = key then (key, node) :: rest else (k, v) :: put key node rest

/-- Sets a key, given by its path, that has not been set. `accepts` says whether the table at the start
takes keys from here: tables with headers take them under their headers only. -/
def setKey? (accepts : Bool) (value : Setting) : List String → Entries → Option Entries
  | [], _ => none
  | [key], entries =>
    if accepts && (entries.lookup key).isNone then some (put key (.value value) entries) else none
  | key :: path, entries =>
    match entries.lookup key with
    | none => do return put key (table .key (← setKey? true value path [])) entries
    | some (table .key inner) => do return put key (table .key (← setKey? true value path inner)) entries
    | some (table .passed inner) => do
      return put key (table .passed (← setKey? false value path inner)) entries
    | some (tables (last :: others)) => do
      return put key (tables ((← setKey? false value path last) :: others)) entries
    | _ => none

/-- Opens the table that a header names. `repeats` says that the header may come again, each time for
a new table. -/
def openTable? (repeats : Bool) : List String → Entries → Option Entries
  | [], _ => none
  | [key], entries =>
    match repeats, entries.lookup key with
    | true, none => some (put key (tables [[]]) entries)
    | true, some (tables elements) => some (put key (tables ([] :: elements)) entries)
    | false, none => some (put key (table .header []) entries)
    | false, some (table .passed inner) => some (put key (table .header inner) entries)
    | _, _ => none
  | key :: path, entries =>
    match entries.lookup key with
    | none => do return put key (table .passed (← openTable? repeats path [])) entries
    | some (table origin inner) => do
      return put key (table origin (← openTable? repeats path inner)) entries
    | some (tables (last :: others)) => do
      return put key (tables ((← openTable? repeats path last) :: others)) entries
    | _ => none

/-- Changes the table that was opened under a path. -/
def update? (change : Entries → Option Entries) : List String → Entries → Option Entries
  | [], entries => change entries
  | key :: path, entries =>
    match entries.lookup key with
    | some (table origin inner) => do return put key (table origin (← update? change path inner)) entries
    | some (tables (last :: others)) => do
      return put key (tables ((← update? change path last) :: others)) entries
    | _ => none

mutual

/-- The settings of a part of a document. -/
def setting : Node → Setting
  | value s => s
  | table _ entries => .table (settings entries)
  | tables elements => .list (elementSettings elements).reverse

/-- The settings of entries. -/
def settings : List (String × Node) → List (String × Setting)
  | [] => []
  | entry :: rest => entrySetting entry :: settings rest

/-- The setting of an entry. -/
def entrySetting : String × Node → String × Setting
  | (key, node) => (key, setting node)

/-- The settings of repeated tables. -/
def elementSettings : List (List (String × Node)) → List Setting
  | [] => []
  | entries :: rest => .table (settings entries) :: elementSettings rest

end

end Node

mutual

/-- Reads a value. Each step goes deeper or further, so `fuel` is the number of characters. -/
def valueWith? : Nat → Reader Setting
  | 0, _ => none
  | fuel + 1, cs =>
    match cs with
    | '[' :: rest => do
      let (items, rest) ← itemsWith? fuel (← skipLines rest)
      return (.list items, rest)
    | c :: rest =>
      if c.toNat = 0x7B then
        match skipSpace rest with
        | d :: more =>
          if d.toNat = 0x7D then some (.table [], more)
          else do
            let (entries, rest) ← entriesWith? fuel [] (d :: more)
            return (.table (Node.settings entries), rest)
        | [] => none
      else if c = '"' || c = '\'' then
        (text? cs).map fun (text, rest) => (.text (String.ofList text), rest)
      else
        match after? "true" cs, after? "false" cs with
        | some rest, _ => some (.truth true, rest)
        | _, some rest => some (.truth false, rest)
        | none, none => (moment? cs).orElse fun _ => number? cs
    | [] => none

/-- Reads the values of a list up to its end. -/
def itemsWith? : Nat → Reader (List Setting)
  | 0, _ => none
  | _, ']' :: rest => some ([], rest)
  | fuel + 1, cs => do
    let (item, rest) ← valueWith? fuel cs
    match ← skipLines rest with
    | ',' :: rest => do
      let (items, rest) ← itemsWith? fuel (← skipLines rest)
      return (item :: items, rest)
    | ']' :: rest => return ([item], rest)
    | _ => none

/-- Reads the entries of a table in one line up to its end. -/
def entriesWith? : Nat → Entries → Reader Entries
  | 0, _, _ => none
  | fuel + 1, done, cs => do
    let (path, rest) ← path? cs
    let (value, rest) ← valueWith? fuel (skipSpace (← after? "=" rest))
    let done ← Node.setKey? true value path done
    match skipSpace rest with
    | ',' :: rest => entriesWith? fuel done rest
    | c :: rest => if c.toNat = 0x7D then return (done, rest) else none
    | [] => none

end

/-- A document up to a line: what has been read, and the table that keys belong to. -/
structure Document where
  root : Entries
  current : List String

namespace Document

/-- Reads a header or a key with its value. -/
def line? (doc : Document) (cs : List Char) : Option (Document × List Char) :=
  match cs with
  | '[' :: '[' :: rest => do
    let (path, rest) ← path? rest
    return (⟨← Node.openTable? true path doc.root, path⟩, ← after? "]]" rest)
  | '[' :: rest => do
    let (path, rest) ← path? rest
    return (⟨← Node.openTable? false path doc.root, path⟩, ← after? "]" rest)
  | cs => do
    let (path, rest) ← path? cs
    let rest := skipSpace (← after? "=" rest)
    let (value, rest) ← valueWith? (rest.length + 1) rest
    return (⟨← Node.update? (Node.setKey? true value path) doc.current doc.root, doc.current⟩, rest)

/-- Reads lines up to the end. Each step uses up a character, so `fuel` is the number of
characters. -/
def linesWith? : Nat → Document → List Char → Option Document
  | 0, _, _ => none
  | fuel + 1, doc, cs => do
    match ← skipLines cs with
    | [] => return doc
    | cs =>
      let (doc, rest) ← doc.line? cs
      match ← skipComment (skipSpace rest) with
      | [] => return doc
      | rest => linesWith? fuel doc (← afterLineEnd? rest)

end Document

/-- The settings of a document. -/
def read? (source : String) : Option Setting := do
  let cs := source.toList
  let cs := if cs.head?.map Char.toNat = some 0xFEFF then cs.drop 1 else cs
  let doc ← Document.linesWith? (cs.length + 1) ⟨[], []⟩ cs
  return .table (Node.settings doc.root)

end ItemCatalog.Config.Toml
