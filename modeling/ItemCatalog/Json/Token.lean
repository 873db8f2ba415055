import ItemCatalog.Number.Double

/-!
# Tokens of JSON

A document is read as a list of tokens. What cannot be a token is `broken`, and the list ends there.
A number or a text can be a token and still have no value, such as a number out of range: it may
stand where values are skipped and fails where its value is asked for.
-/

namespace ItemCatalog.Json

/-- The ways in which a document can fail to be read. -/
inductive Fault
  /-- It is not JSON. -/
  | malformed
  /-- It is JSON as far as it was read, but not of the expected shape. -/
  | mismatched
  /-- It ends too early. -/
  | truncated
  deriving DecidableEq, Repr

/-- The value of a number: whole numbers written without a fraction or an exponent are kept exact. -/
inductive Number
  | whole (n : Int)
  | real (x : Double)
  deriving DecidableEq, Repr

/-- The smallest units of a document. -/
inductive Token
  | openObject
  | closeObject
  | openArray
  | closeArray
  | colon
  | comma
  | null
  | boolean (b : Bool)
  | number (value : Except Fault Number)
  | text (value : Except Fault (List Char))
  /-- A text that breaks off, with the faults met where it is read and where it is skipped. -/
  | brokenText (reading skipping : Fault)
  /-- Anything else that is no token, with the faults met where a value is read and skipped. -/
  | broken (reading skipping : Fault)
  deriving Repr

/-- Whether reading stops at a token. -/
def Token.isBroken : Token → Bool
  | .brokenText _ _ | .broken _ _ => true
  | _ => false

end ItemCatalog.Json
