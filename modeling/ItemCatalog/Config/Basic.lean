import ItemCatalog.Config.Environment
import ItemCatalog.Config.TomlDocument
import ItemCatalog.Listing

/-!
# Configuration

The configuration of the program comes in layers: built-in defaults, a TOML file, and environment
variables. `Config.load` merges them and reads the settings that the program knows; others do not
count.
-/

namespace ItemCatalog

/-- The settings of the program. -/
structure Config where
  /-- The catalog file, if one is set. -/
  catalog : Option String := none
  /-- How many items a lookup shows. -/
  lookupLimit : Nat := 4
  listingMaxChars : Nat := 2048
  listingMaxGroups : Nat := 8
  /-- Which log messages are written. -/
  logFilter : String := "warn"
  deriving DecidableEq, Repr

namespace Config

/-- The directory of the program in a home directory. -/
def dataDirectory (home : String) : String :=
  home ++ "/.itemdex"

/-- The configuration file that is read when none is named. -/
def defaultPath (home : String) : String :=
  dataDirectory home ++ "/config.toml"

/-- The catalog file that is read when none is set. -/
def defaultCatalogPath (home : String) : String :=
  dataDirectory home ++ "/catalog.json"

/-- A setting at fault, as the path of keys to it. The path is empty when the file is no TOML. -/
abbrev Fault := List String

/-- A setting at fault, with points between its keys. -/
def faultKey (path : Fault) : String :=
  ".".intercalate path

/-- A whole number of 64 bits without a sign. -/
def readSize : Setting → Except Fault Nat
  | .whole n => if 0 ≤ n ∧ n < UInt64.size then .ok n.toNat else .error []
  | _ => .error []

/-- A text. -/
def readText : Setting → Except Fault String
  | .text s => .ok s
  | _ => .error []

/-- Reads a setting of a table, or takes the default. -/
def readKey (s : Setting) (key : String) (default : α) (read : Setting → Except Fault α) :
    Except Fault α :=
  match s.get? key with
  | some value => (read value).mapError (key :: ·)
  | none => .ok default

/-- Reads the settings of a table that may also be written as the list of their values. -/
def asTable (keys : List String) : Setting → Except Fault Setting
  | .table entries => .ok (.table entries)
  | .list items => .ok (.table (keys.zip items))
  | _ => .error []

/-- Names the places of a list in a fault instead of the keys that they stand for. -/
def placeOf (keys : List String) (s : Setting) (path : Fault) : Fault :=
  match s, path with
  | .list _, key :: rest => toString (keys.idxOf key) :: rest
  | _, path => path

/-- Reads a section with known keys, in alphabetical order. -/
def readSection (keys : List String) (read : Setting → Except Fault α) (s : Setting) :
    Except Fault α := do
  ((asTable keys s) >>= read).mapError (placeOf keys s)

/-- The limits of listings. -/
def readListing (s : Setting) : Except Fault (Nat × Nat) := do
  let maxChars ← readKey s "max_chars" ({} : Config).listingMaxChars readSize
  let maxGroups ← readKey s "max_groups" ({} : Config).listingMaxGroups readSize
  return (maxChars, maxGroups)

/-- The configuration that settings describe, or the first setting at fault in alphabetical order. -/
def ofSetting (s : Setting) : Except Fault Config := do
  let defaults : Config := {}
  let catalog ← readKey s "catalog" none fun v => some <$> readText v
  let (maxChars, maxGroups) ← readKey s "listing" (defaults.listingMaxChars, defaults.listingMaxGroups)
    (readSection ["max_chars", "max_groups"] readListing)
  let logFilter ← readKey s "log" defaults.logFilter
    (readSection ["filter"] fun s => readKey s "filter" defaults.logFilter readText)
  let lookupLimit ← readKey s "lookup" defaults.lookupLimit
    (readSection ["limit"] fun s => readKey s "limit" defaults.lookupLimit readSize)
  return ⟨catalog, lookupLimit, maxChars, maxGroups, logFilter⟩

/-- The configuration of a file, if there is one, and of environment variables. -/
def load (file : Option String) (environment : List (String × String)) : Except Fault Config :=
  match file.map Toml.read? with
  | some none => .error []
  | some (some settings) => ofSetting (settings.mergeOver (Environment.settings environment))
  | none => ofSetting (Environment.settings environment)

/-- The catalog file to read, if there is one to be found. -/
def catalogPath (c : Config) (home : Option String) : Option String :=
  c.catalog <|> home.map defaultCatalogPath

/-- How listings are made in a direction. -/
def listingOptions (c : Config) (direction : Direction) : ListingOptions :=
  ⟨direction, c.listingMaxChars, c.listingMaxGroups⟩

end Config

end ItemCatalog
