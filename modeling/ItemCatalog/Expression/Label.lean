import ItemCatalog.Caption
import ItemCatalog.Expression.Score

/-!
# Labels of sort expressions

The canonical text of an expression puts brackets around every operation and shows stats by their
captions. The label over a listing leaves out the outermost pair.
-/

namespace ItemCatalog.Expression

/-- How a stat is shown. -/
def operandLabel (name : String) : String :=
  if name = "damage" then Caption.capitalize "avg damage"
  else if isResist name then Caption.capitalize (name ++ " res")
  else Caption.capitalize name

/-- Two texts with an operator between them, in brackets. -/
def bracketed (left sign right : String) : String :=
  "(" ++ left ++ " " ++ sign ++ " " ++ right ++ ")"

/-- How operations are written. -/
def writing : Arithmetic String where
  negate x := "(-" ++ x ++ ")"
  add x y := bracketed x "+" y
  subtract x y := bracketed x "-" y

/-- The fully bracketed text of an expression in postfix notation, or the place where it is
malformed. -/
def canonicalText (steps : List (Step String)) : Except Nat String :=
  foldPostfix operandLabel writing steps

/-- A text without an open bracket at its start and a close bracket at its end, where it has both. -/
def stripBrackets (text : String) : String :=
  match text.toList with
  | '(' :: rest => if rest.getLast? = some ')' then String.ofList rest.dropLast else text
  | _ => text

end ItemCatalog.Expression
