import ItemCatalog.Json.Quoted
import ItemCatalog.Number.Display

/-!
# Writing JSON

Documents are written without spaces. Members that are absent are left out by the caller, so the
order and the presence of members is visible where an object is written.
-/

namespace ItemCatalog.Json.Writer

/-- A text. -/
def text (s : String) : List Char :=
  quoted s.toList

/-- A whole number. -/
def whole (n : Int) : List Char :=
  if n < 0 then '-' :: digitsOf n.natAbs else digitsOf n.natAbs

/-- A number of double precision. -/
def real (x : Double) : List Char :=
  x.withPointChars

/-- A truth value. -/
def boolean (b : Bool) : List Char :=
  if b then "true".toList else "false".toList

/-- A list of written values. -/
def array (items : List (List Char)) : List Char :=
  '[' :: [','].intercalate items ++ [']']

/-- A list of values. -/
def list (item : α → List Char) (as : List α) : List Char :=
  array (as.map item)

/-- An opening brace. -/
def openBrace : Char := Char.ofNat 0x7B

/-- A closing brace. -/
def closeBrace : Char := Char.ofNat 0x7D

/-- One member of an object. -/
def member (key : String) (value : List Char) : List Char :=
  text key ++ ':' :: value

/-- An object with its members in order. -/
def object (members : List (List Char)) : List Char :=
  openBrace :: [','].intercalate members ++ [closeBrace]

/-- A member that is left out when there is no value. -/
def optional (key : String) (item : α → List Char) : Option α → List (List Char)
  | some a => [member key (item a)]
  | none => []

end ItemCatalog.Json.Writer
