import ItemCatalog.Card
import ItemCatalog.Config.Basic
import ItemCatalog.Search

/-!
# The command line

`item` shows the card of an item, `sort` lists items by a sort expression. `Invocation.parse?` reads
the arguments, and `run` carries them out over any way to read files: what it writes and the exit code
come back as an `Outcome`.
-/

namespace ItemCatalog.CommandLine

/-! ## Arguments -/

/-- What is asked for. -/
inductive Task
  | version
  | item (command : String) (query : List String)
  | sort (expression : String) (ascending : Bool) (command : String) (level : Option String)
  deriving Repr

/-- Options that hold for all tasks. -/
structure GlobalOptions where
  config : Option String := none
  catalog : Option String := none
  json : Bool := false
  deriving Repr

/-- A command line that has been read. -/
structure Invocation where
  options : GlobalOptions
  task : Task
  deriving Repr

/-- Options with what has been read of a task. -/
structure Reading where
  options : GlobalOptions := {}
  command : String := "item"
  ascending : Bool := false
  level : Option String := none
  positional : List String := []

/-- The value of an option written in one piece, such as `--as=ring`. -/
def inlineValue? (option arg : String) : Option String :=
  let start := (option ++ "=").toList
  if start.isPrefixOf arg.toList then some (String.ofList (arg.toList.drop start.length)) else none

/-- Whether an argument may be the value of an option that takes no hyphens. -/
def isPlainValue (arg : String) : Bool :=
  arg = "-" || arg.toList.head? ≠ some '-'

/-- Options that take a value. -/
inductive ValueOption
  | config
  | catalog
  | command
  | level
  deriving DecidableEq, Repr

namespace ValueOption

/-- How an option is written. -/
def name : ValueOption → String
  | config => "--config"
  | catalog => "--catalog"
  | command => "--as"
  | level => "--level"

/-- Whether the value may look like an option. -/
def takesHyphens : ValueOption → Bool
  | level => true
  | _ => false

/-- Stores the value of an option. -/
def store (r : Reading) (value : String) : ValueOption → Reading
  | config => { r with options := { r.options with config := some value } }
  | catalog => { r with options := { r.options with catalog := some value } }
  | command => { r with command := value }
  | level => { r with level := some value }

end ValueOption

/-- Where options are looked for. -/
inductive Scope
  | program
  | item
  | sort
  deriving DecidableEq, Repr

/-- The options with a value that are known in a scope. -/
def Scope.valueOptions : Scope → List ValueOption
  | .program => [.config, .catalog]
  | .item => [.config, .catalog, .command]
  | .sort => [.config, .catalog, .command, .level]

/-- What the first argument is. -/
inductive Argument
  /-- Part of an option, which has been stored; the rest follows. -/
  | option (r : Reading) (rest : List String)
  /-- The end of options. -/
  | separator
  /-- Anything else. -/
  | other

/-- Reads a switch. -/
def switch? (scope : Scope) (r : Reading) (arg : String) : Option Reading :=
  if arg = "--json" then some { r with options := { r.options with json := true } }
  else if arg = "--plain" then some r
  else if arg = "--asc" && scope = .sort then some { r with ascending := true }
  else none

/-- Reads the first argument. Nothing is read when an option lacks its value. -/
def readArgument? (scope : Scope) (r : Reading) (arg : String) (rest : List String) :
    Option Argument :=
  if arg = "--" then some .separator
  else match switch? scope r arg with
    | some r => some (.option r rest)
    | none =>
      match scope.valueOptions.find? (·.name = arg), rest with
      | some o, value :: rest =>
        if o.takesHyphens || isPlainValue value then some (.option (o.store r value) rest) else none
      | some _, [] => none
      | none, _ =>
        match scope.valueOptions.findSome? fun o => (inlineValue? o.name arg).map (o.store r) with
        | some r => some (.option r rest)
        | none => some .other

/-- Reads the arguments of `item`. From the first word of the name on all belongs to it. -/
def readItem? (r : Reading) : Nat → List String → Option Invocation
  | 0, _ => none
  | _, [] => none
  | fuel + 1, arg :: rest => do
    match ← readArgument? .item r arg rest with
    | .option r rest => readItem? r fuel rest
    | .separator =>
      if rest.isEmpty then none else return ⟨r.options, .item r.command rest⟩
    | .other => return ⟨r.options, .item r.command (arg :: rest)⟩

/-- Reads the arguments of `sort`. -/
def readSort? (r : Reading) : Nat → List String → Option Invocation
  | 0, _ => none
  | fuel + 1, args => do
    let finish (r : Reading) (positional : List String) : Option Invocation :=
      match positional with
      | [expression] => some ⟨r.options, .sort expression r.ascending r.command r.level⟩
      | _ => none
    match args with
    | [] => finish r r.positional
    | arg :: rest =>
      match ← readArgument? .sort r arg rest with
      | .option r rest => readSort? r fuel rest
      | .separator => finish r (r.positional ++ rest)
      | .other =>
        if r.positional.isEmpty then readSort? { r with positional := [arg] } fuel rest else none

/-- Reads arguments up to the name of a task. -/
def readProgram? (r : Reading) : Nat → List String → Option Invocation
  | 0, _ => none
  | _, [] => none
  | fuel + 1, arg :: rest => do
    if arg = "--version" || arg = "-V" then return ⟨r.options, .version⟩
    match ← readArgument? .program r arg rest with
    | .option r rest => readProgram? r fuel rest
    | .separator => none
    | .other =>
      if arg = "item" then readItem? r (rest.length + 1) rest
      else if arg = "sort" then readSort? r (rest.length + 1) rest
      else none

/-- Reads a command line. -/
def Invocation.parse? (args : List String) : Option Invocation :=
  readProgram? {} (args.length + 1) args

/-! ## Carrying out -/

/-- Why a file cannot be read. -/
inductive FileFault
  | notFound
  | isDirectory
  | other (description : String)
  deriving DecidableEq, Repr

/-- The wording of a fault. -/
def FileFault.message : FileFault → String
  | notFound => "No such file or directory (os error 2)"
  | isDirectory => "Is a directory (os error 21)"
  | other description => description

/-- What a run writes, and its exit code. -/
structure Outcome where
  code : UInt32
  stdout : String
  stderr : String
  deriving DecidableEq, Repr

namespace Outcome

/-- A run that succeeds. -/
def success (stdout : String) : Outcome := ⟨0, stdout, ""⟩

/-- A run that fails because of what the user asked for. -/
def userError (message : String) : Outcome := ⟨2, "", message ++ "\n"⟩

/-- A run that fails for another reason. -/
def failure (message : String) : Outcome := ⟨1, "", "error: " ++ message ++ "\n"⟩

end Outcome

/-- The version line. -/
def versionLine : String := "itemdex 0.3.0\n"

/-- What the program runs in. -/
structure Surroundings where
  home : Option String
  /-- The environment variables, in order. -/
  environment : List (String × String)

/-- The wording of a fault in a catalog. -/
def catalogMessage : CatalogFault → String
  | .json .malformed => "the catalog is not valid JSON"
  | .json .mismatched => "the catalog is not a list of item records"
  | .json .truncated => "the catalog ends too early"
  | .invalidRecord title fault => "invalid record '" ++ title ++ "': " ++ fault.message

/-- The outcome of a sort expression that cannot be read. -/
def sortFault : SortExpression.Fault → Outcome
  | .expression e => .userError e.message
  | .malformedPostfix position =>
    .failure ("malformed postfix expression at token " ++ toString position)

/-- The outcome of a search that fails. -/
def searchFault : SearchFault → Outcome
  | .patternTooLarge =>
    .userError ("cannot build name pattern: Compiled regex exceeds size limit of " ++
      toString Pattern.sizeLimit ++ " bytes.")
  | .indexLimit => .failure "search index error: the pinned prefix is too long"

/-- Lines with an end each. -/
def lines (texts : List String) : String :=
  String.join (texts.map (· ++ "\n"))

/-- A card as plain text. -/
def cardText (c : ItemCard) : String :=
  lines <| [c.title, c.url] ++ c.description ++
    c.fields.flatMap (fun f => ["", f.name, f.value]) ++
    c.image.toList.flatMap (fun image => ["", image]) ++
    c.footer.toList.flatMap (fun footer => ["", footer])

/-- The card of what a lookup found. -/
def cardOf (l : Lookup) : ItemCard :=
  ItemCard.ofRecord l.item l.similar

/-- The outcome of a lookup as JSON. -/
def lookupJson (name : String) (found : Option Lookup) : String :=
  let members :=
    [ Json.Writer.member "query" (Json.Writer.text name),
      Json.Writer.member "fuzzy" (Json.Writer.boolean (found.any (·.fuzzy))) ] ++
    Json.Writer.optional "item" (fun l => (cardOf l).write) found
  String.ofList (Json.Writer.object members)

/-- A listing as plain text. -/
def listingText (l : Listing) : String :=
  let header := "Sorted by " ++ l.label ++ " (" ++ l.direction.name ++ ")"
  let omitted := if l.truncated then ["(more results omitted)"] else []
  if !l.isEmpty then lines ([header, l.render] ++ omitted)
  else if l.truncated then lines (header :: omitted)
  else lines [header, "No items matched"]

/-- A listing as JSON. -/
def listingJson (l : Listing) : String :=
  let entry (e : ListingEntry) : List Char :=
    Json.Writer.object
      [ Json.Writer.member "title" (Json.Writer.text e.title),
        Json.Writer.member "link" (Json.Writer.text e.link),
        Json.Writer.member "level" (Json.Writer.whole e.level.toNat) ]
  let group (g : ScoreGroup) : List Char :=
    Json.Writer.object
      [ Json.Writer.member "score" (Json.Writer.real g.score),
        Json.Writer.member "entries" (Json.Writer.list entry g.entries) ]
  String.ofList <| Json.Writer.object
    [ Json.Writer.member "label" (Json.Writer.text l.label),
      Json.Writer.member "direction" (Json.Writer.text l.direction.name),
      Json.Writer.member "groups" (Json.Writer.list group l.groups),
      Json.Writer.member "truncated" (Json.Writer.boolean l.truncated) ]

section Running

variable {m : Type → Type} [Monad m] (read : String → m (Except FileFault String))

/-- The outcome of a step, or the failure that ended the run before it. -/
abbrev Steps (m : Type → Type) := ExceptT Outcome m

/-- Reads the configuration. A file that is named has to exist. -/
def loadConfig (surroundings : Surroundings) (named : Option String) : Steps m Config := do
  let file ← match named with
    | some path =>
      match ← read path with
      | .ok text => pure (some text)
      | .error _ => throw (Outcome.failure ("config file " ++ path ++ " not found"))
    | none =>
      match surroundings.home with
      | some home => do
        match ← read (Config.defaultPath home) with
        | .ok text => pure (some text)
        | .error _ => pure none
      | none => pure none
  match Config.load file surroundings.environment with
  | .ok config => return config
  | .error path => throw (Outcome.failure ("configuration error: " ++ Config.faultKey path))

/-- Reads the catalog and indexes its names. -/
def loadSearch (surroundings : Surroundings) (config : Config) : Steps m ItemSearch := do
  match config.catalogPath surroundings.home with
  | none => throw (Outcome.failure "no catalog configured and no home directory to look in")
  | some path =>
    let failed := "failed to load catalog " ++ path ++ ": "
    match ← read path with
    | .error fault =>
      throw (Outcome.failure
        (failed ++ "failed to read catalog " ++ path ++ ": " ++ fault.message ++ ": " ++ fault.message))
    | .ok text =>
      match Catalog.ofJson text with
      | .error fault => throw (Outcome.failure (failed ++ catalogMessage fault))
      | .ok catalog => return ItemSearch.ofCatalog catalog config.lookupLimit

/-- Shows the card of an item. A request that cannot be read is answered with the usage of its
command. -/
def runItem (surroundings : Surroundings) (config : Config) (json : Bool) (command input : String) :
    Steps m Outcome := do
  match ItemRequest.parse command input with
  | .error e =>
    let usage := if json then "" else ItemRequest.usage command ++ "\n"
    return { Outcome.userError e.message with stdout := usage }
  | .ok request =>
    let search ← loadSearch read surroundings config
    match search.lookup request.name request.hints with
    | .error fault => return searchFault fault
    | .ok found =>
      if json then return .success (lookupJson request.name found ++ "\n")
      else match found with
        | some l => return .success (cardText (cardOf l))
        | none => return .success "No item was found\n"

/-- Lists items by a sort expression. -/
def runSort (surroundings : Surroundings) (config : Config) (json : Bool) (expression : String)
    (ascending : Bool) (command : String) (level : Option String) : Steps m Outcome := do
  match SortExpression.compile expression with
  | .error fault => return sortFault fault
  | .ok e =>
    match Hints.ofCommand command, level.mapM LevelBound.ofBound with
    | .error fault, _ | .ok _, .error fault => return .userError fault.message
    | .ok hints, .ok bound =>
      let direction := if ascending then Direction.ascending else .descending
      let search ← loadSearch read surroundings config
      let listing := search.sortListing e { hints with level := bound }
        (config.listingOptions direction)
      return .success (if json then listingJson listing ++ "\n" else listingText listing)

/-- Carries out an invocation. -/
def runInvocation (surroundings : Surroundings) (i : Invocation) : Steps m Outcome := do
  match i.task with
  | .version => return .success versionLine
  | .item command query => do
    let config ← configure i
    runItem read surroundings config i.options.json command (" ".intercalate query)
  | .sort expression ascending command level => do
    let config ← configure i
    runSort read surroundings config i.options.json expression ascending command level
where
  /-- The configuration with the catalog that the arguments name. -/
  configure (i : Invocation) : Steps m Config := do
    let named := i.options.config <|> surroundings.environment.lookup "ITEMDEX_CONFIG"
    let config ← loadConfig read surroundings named
    return { config with catalog := i.options.catalog <|> config.catalog }

/-- Carries out a command line. -/
def run (surroundings : Surroundings) (args : List String) : m Outcome := do
  match Invocation.parse? args with
  | none => return ⟨2, "", "error: the arguments are not understood\n"⟩
  | some i =>
    match ← (runInvocation read surroundings i).run with
    | .ok outcome | .error outcome => return outcome

end Running

end ItemCatalog.CommandLine
