import ItemCatalog.Json.Lexer

/-!
# Reading values of a known shape

A `Reader` takes the tokens of one value off the front of a document. Problems are reported in the
order in which they stand in the document: of a fault in the writing and one in the shape the first
one counts.

* `Reader.text`, `whole` and `real` read single values;
* `Reader.optional` and `list` read what may be missing or repeated;
* `Reader.record` reads an object with known fields, or the list of its values in their order.
-/

namespace ItemCatalog.Json

/-- Takes a value off the front of a list of tokens. -/
abbrev Reader (α : Type) := List Token → Except Fault (α × List Token)

/-- What is wrong with the next token where a value of another kind is read: it is the wrong value, or
none. -/
def unexpected : List Token → Fault
  | [] => .truncated
  | token :: _ =>
    match token with
    | .brokenText reading _ | .broken reading _ => reading
    | .number (.error fault) | .text (.error fault) => fault
    | .closeObject | .closeArray | .colon | .comma => .malformed
    | _ => .mismatched

/-! ## Skipping a value -/

/-- What a skipped value is inside of. -/
inductive Frame
  | array
  | object
  deriving DecidableEq, Repr

/-- What may come next while a value is skipped. -/
inductive Skipping
  | value
  /-- The first entry of the innermost frame, or its end. -/
  | first
  /-- A comma, or the end of the innermost frame. -/
  | next
  | key
  | colon
  deriving DecidableEq, Repr

/-- Skips the first token of a value. -/
def skipValueToken (frames : List Frame) : Token → Except Fault (Skipping × List Frame)
  | .openArray => .ok (.first, .array :: frames)
  | .openObject => .ok (.first, .object :: frames)
  | .brokenText _ skipping | .broken _ skipping => .error skipping
  | .closeArray | .closeObject | .colon | .comma => .error .malformed
  | _ => .ok (.next, frames)

/-- Skips a key. -/
def skipKeyToken (frames : List Frame) : Token → Except Fault (Skipping × List Frame)
  | .text _ => .ok (.colon, frames)
  | .brokenText _ skipping => .error skipping
  | _ => .error .malformed

/-- Skips one token. `frames` are the arrays and objects that are open, the innermost first. -/
def skipToken : Skipping → List Frame → Token → Except Fault (Skipping × List Frame)
  | .first, .array :: frames, .closeArray => .ok (.next, frames)
  | .first, .object :: frames, .closeObject => .ok (.next, frames)
  | .first, .object :: frames, token => skipKeyToken (.object :: frames) token
  | .first, frames, token => skipValueToken frames token
  | .next, .array :: frames, .closeArray => .ok (.next, frames)
  | .next, .object :: frames, .closeObject => .ok (.next, frames)
  | .next, .array :: frames, .comma => .ok (.value, .array :: frames)
  | .next, .object :: frames, .comma => .ok (.key, .object :: frames)
  | .next, _, _ => .error .malformed
  | .key, frames, token => skipKeyToken frames token
  | .colon, frames, .colon => .ok (.value, frames)
  | .colon, _, _ => .error .malformed
  | .value, frames, token => skipValueToken frames token

/-- Skips tokens until nothing is open any more. -/
def skipFrom (state : Skipping) (frames : List Frame) : List Token → Except Fault (List Token)
  | [] => if state = .next ∧ frames = [] then .ok [] else .error .truncated
  | token :: rest =>
    if state = .next ∧ frames = [] then .ok (token :: rest)
    else do
      let (state, frames) ← skipToken state frames token
      skipFrom state frames rest

/-- Takes one value of any kind off the front. -/
def skipValue : List Token → Except Fault (List Token) :=
  skipFrom .value []

/-! ## Single values -/

namespace Reader

/-- A text. -/
def text : Reader String
  | .text (.ok cs) :: rest => .ok (String.ofList cs, rest)
  | tokens => .error (unexpected tokens)

/-- A whole number for which `convert?` has a value. -/
def whole (convert? : Int → Option α) : Reader α
  | .number (.ok (.whole n)) :: rest =>
    match convert? n with
    | some a => .ok (a, rest)
    | none => .error .mismatched
  | tokens => .error (unexpected tokens)

/-- A number of double precision. -/
def real : Reader Double
  | .number (.ok (.whole n)) :: rest => .ok (Double.ofInt n, rest)
  | .number (.ok (.real x)) :: rest => .ok (x, rest)
  | tokens => .error (unexpected tokens)

/-- A value, or `null` for none. -/
def optional (item : Reader α) : Reader (Option α)
  | .null :: rest => .ok (none, rest)
  | tokens => do
    let (a, rest) ← item tokens
    return (some a, rest)

/-- `null` and nothing else. -/
def null : Reader Unit
  | .null :: rest => .ok ((), rest)
  | tokens => .error (unexpected tokens)

/-- Takes a colon. -/
def colon : List Token → Except Fault (List Token)
  | [] => .error .truncated
  | .colon :: rest => .ok rest
  | _ => .error .malformed

/-- One of several names. A name may also be written as an object, with the name as its only key and
`null` as its value. -/
def named (names : List (String × α)) : Reader α
  | .text (.ok cs) :: rest =>
    match names.lookup (String.ofList cs) with
    | some a => .ok (a, rest)
    | none => .error .mismatched
  | .openObject :: rest => do
    let (name, rest) ← text rest
    match names.lookup name with
    | none => throw .mismatched
    | some a =>
      let rest ← colon rest
      let (_, rest) ← null rest
      match rest with
      | .closeObject :: rest => return (a, rest)
      | [] => throw .truncated
      | _ => throw .malformed
  | [] => .error .truncated
  | .text (.error fault) :: _ => .error fault
  | .brokenText fault _ :: _ => .error fault
  | _ => .error .malformed

/-! ## Lists -/

/-- Whether another entry of a list follows, with the tokens from it on. `first` says that none has
been read. -/
def nextEntry (first : Bool) : List Token → Except Fault (Bool × List Token)
  | [] => .error .truncated
  | .closeArray :: rest => .ok (false, .closeArray :: rest)
  | token :: rest =>
    if first then .ok (true, token :: rest)
    else match token, rest with
      | .comma, [] => .error .truncated
      | .comma, .closeArray :: _ => .error .malformed
      | .comma, rest => .ok (true, rest)
      | _, _ => .error .malformed

/-- The entries of a list up to its end. Each uses up a token, so `fuel` is the number of tokens. -/
def entries (item : Reader α) : Nat → Bool → Reader (List α)
  | 0, _, _ => .error .truncated
  | fuel + 1, first, tokens => do
    match ← nextEntry first tokens with
    | (false, rest) => return ([], rest.drop 1)
    | (true, rest) =>
      let (a, rest) ← item rest
      let (as, rest) ← entries item fuel false rest
      return (a :: as, rest)

/-- A list of values. -/
def list (item : Reader α) : Reader (List α)
  | .openArray :: rest => entries item (rest.length + 1) true rest
  | tokens => .error (unexpected tokens)

/-! ## Objects -/

end Reader

/-- A field of an object that is read into a draft `σ`. -/
structure Field (σ : Type) where
  key : String
  /-- Whether the draft has a value for the field. -/
  isSet : σ → Bool
  /-- Reads a value into the draft. -/
  store : σ → Reader σ

namespace Reader

/-- The field whose value is read by `item` and put into the draft by `set`. -/
def field (key : String) (isSet : σ → Bool) (set : σ → α → σ) (item : Reader α) : Field σ where
  key := key
  isSet := isSet
  store draft tokens := do
    let (a, rest) ← item tokens
    return (set draft a, rest)

/-- The key of the next member of an object, or none at its end, with the tokens behind it. -/
def nextKey (first : Bool) : List Token → Except Fault (Option String × List Token)
  | [] => .error .truncated
  | .closeObject :: rest => .ok (none, rest)
  | .comma :: rest =>
    if first then .error .malformed
    else match rest with
      | [] => .error .truncated
      | rest => key rest
  | tokens => if first then key tokens else .error .malformed
where
  /-- A text that is a key. -/
  key : List Token → Except Fault (Option String × List Token)
    | .text (.ok cs) :: rest => .ok (some (String.ofList cs), rest)
    | .text (.error fault) :: _ | .brokenText fault _ :: _ => .error fault
    | _ => .error .malformed

/-- The members of an object up to its end. Unknown ones are skipped, and none may occur twice. -/
def members (fields : List (Field σ)) : Nat → Bool → σ → Reader σ
  | 0, _, _, _ => .error .truncated
  | fuel + 1, first, draft, tokens => do
    match ← nextKey first tokens with
    | (none, rest) => return (draft, rest)
    | (some key, rest) =>
      match fields.find? (·.key = key) with
      | none =>
        let rest ← skipValue (← colon rest)
        members fields fuel false draft rest
      | some field =>
        if field.isSet draft then throw .mismatched
        else
          let (draft, rest) ← field.store draft (← colon rest)
          members fields fuel false draft rest

/-- The values of the fields in their order, as long as the list has entries. -/
def inOrder (first : Bool) (draft : σ) : List (Field σ) → Reader σ
  | [], tokens => .ok (draft, tokens)
  | field :: fields, tokens => do
    match ← nextEntry first tokens with
    | (false, rest) => return (draft, rest)
    | (true, rest) =>
      let (draft, rest) ← field.store draft rest
      inOrder false draft fields rest

/-- The end of a list whose entries have all been read. -/
def listEnd : List Token → Except Fault (List Token)
  | .closeArray :: rest => .ok rest
  | [] => .error .truncated
  | _ => .error .malformed

/-- An object with known fields, or the list of their values. `finish?` has a value when no field is
missing. -/
def record (fields : List (Field σ)) (start : σ) (finish? : σ → Option α) : Reader α
  | .openObject :: rest => do
    let (draft, rest) ← members fields (rest.length + 1) true start rest
    match finish? draft with
    | some a => return (a, rest)
    | none => throw .mismatched
  | .openArray :: rest => do
    let (draft, rest) ← inOrder true start fields rest
    match finish? draft with
    | some a => return (a, ← listEnd rest)
    | none => throw .mismatched
  | tokens => .error (unexpected tokens)

/-- The value of a whole document, behind which nothing may follow. -/
def document (item : Reader α) (source : String) : Except Fault α := do
  match ← item (tokens source.toList) with
  | (a, []) => return a
  | _ => throw .malformed

end Reader

end ItemCatalog.Json
