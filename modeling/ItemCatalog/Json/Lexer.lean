import ItemCatalog.Json.Numeral
import ItemCatalog.Json.Quoted

/-!
# Splitting a document into tokens

`tokens` reads a document to its end or to the first place that cannot be a token.
-/

namespace ItemCatalog.Json

/-- The characters that may stand between tokens. -/
def isSpace (c : Char) : Bool :=
  c = ' ' || c = '\n' || c = '\t' || c = '\r'

/-- What follows a word of letters, if the text starts with it. -/
def afterWord (word : List Char) (cs : List Char) : Except Fault (List Char) :=
  match word, cs with
  | [], rest => .ok rest
  | _ :: _, [] => .error .truncated
  | w :: word, c :: rest => if w = c then afterWord word rest else .error .malformed

/-- The punctuation mark that a character is. -/
def mark? (c : Char) : Option Token :=
  if c.toNat = 0x7B then some .openObject
  else if c.toNat = 0x7D then some .closeObject
  else if c = '[' then some .openArray
  else if c = ']' then some .closeArray
  else if c = ':' then some .colon
  else if c = ',' then some .comma
  else none

/-- The token of a word, where the text starts with its first letter. -/
def wordToken (word : String) (value : Token) (cs : List Char) : Token × List Char :=
  match afterWord word.toList cs with
  | .ok rest => (value, rest)
  | .error fault => (.broken fault fault, [])

/-- The token of a number. A number that breaks off is malformed where values are skipped. -/
def numberToken (cs : List Char) : Token × List Char :=
  match splitNumeral cs with
  | .ok (numeral, rest) => (.number numeral.value, rest)
  | .error fault => (.broken fault .malformed, [])

/-- The first token of a text that starts with the given character, and what follows it. -/
def firstToken (c : Char) (rest : List Char) : Token × List Char :=
  match mark? c with
  | some mark => (mark, rest)
  | none =>
    if c = '"' then
      let (body, tail) := splitQuoted rest
      (textToken body tail, tail.drop 1)
    else if c = 'n' then wordToken "null" .null (c :: rest)
    else if c = 't' then wordToken "true" (.boolean true) (c :: rest)
    else if c = 'f' then wordToken "false" (.boolean false) (c :: rest)
    else if c.isDigit || c = '-' then numberToken (c :: rest)
    else (.broken .malformed .malformed, [])

/-- Reads tokens up to the first broken one. Each step uses up a character, so `fuel` is the number of
characters. -/
def tokensWith : Nat → List Char → List Token
  | 0, _ => []
  | _, [] => []
  | fuel + 1, c :: rest =>
    if isSpace c then tokensWith fuel rest
    else
      let (token, rest) := firstToken c rest
      if token.isBroken then [token] else token :: tokensWith fuel rest

/-- The tokens of a document. -/
def tokens (document : List Char) : List Token :=
  tokensWith document.length document

end ItemCatalog.Json
