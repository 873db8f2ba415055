import ItemCatalog.Text.Word

/-!
# Tokens of sort expressions

A sort expression such as `int + dex - (fire - ice)` is written with brackets, the signs `+` and `-`,
and the names of stats. `Token.scan` reads its text from left to right and stops at the first
character, sign or name that it cannot accept.
-/

namespace ItemCatalog.Expression

/-- What is wrong with a sort expression. -/
inductive ExpressionError
  | invalidCharacter (c : Char)
  | tooManyOperators
  | duplicateOperand (name : String)
  | openAfterClose
  | openAfterOperand
  | closeAfterOperator
  | emptyBrackets
  | operandAfterClose
  | trailingOperator
  | unbalancedBrackets
  | emptyExpression
  deriving DecidableEq, Repr

/-- How many signs an expression may hold, those in front of an operand included. -/
def maxOperators : Nat := 5

namespace ExpressionError

/-- What an expression with a structural fault is called. -/
def invalid (reason : String) : String :=
  "Your sort expression is invalid. " ++ reason

/-- The explanation shown to the user. -/
def message : ExpressionError → String
  | invalidCharacter c => "'" ++ String.singleton c ++ "' is an invalid sort expression character."
  | tooManyOperators =>
    "Your sort expression cannot have more than " ++ toString maxOperators ++ " operators in it."
  | duplicateOperand _ => "Your sort expression cannot use the same operand more than once."
  | openAfterClose => invalid "You cannot have an open bracket right after a close bracket."
  | openAfterOperand => invalid "You cannot have an open bracket right after an operand."
  | closeAfterOperator => invalid "You cannot have a close bracket right after an operator."
  | emptyBrackets => invalid "Bracket pairs cannot be empty."
  | operandAfterClose => invalid "You cannot have an operand right after a close bracket."
  | trailingOperator => invalid "You cannot end an expression with an operator."
  | unbalancedBrackets => invalid "Make sure your brackets are balanced correctly."
  | emptyExpression => "Your sort expression is empty."

end ExpressionError

/-- A bracket, a sign or the name of a stat. -/
inductive Token
  | opening
  | closing
  | plus
  | minus
  | operand (name : String)
  deriving DecidableEq, Repr

namespace Token

/-- A character that a name can start with. -/
def startsName (c : Char) : Bool :=
  c.isLower || c = '?'

/-- A character that a name goes on with. Names may hold spaces. -/
def continuesName (c : Char) : Bool :=
  startsName c || c = ' '

/-- A name with single spaces between its words. -/
def nameOf (cs : List Char) : String :=
  String.ofList ([' '].intercalate (Text.spacedWords cs))

/-- Reads the tokens of a text in small letters. `operators` counts the signs and `seen` holds the
names read before it. -/
def scanFrom (operators : Nat) (seen : List String) : List Char → Except ExpressionError (List Token)
  | [] => .ok []
  | c :: rest =>
    if c = ' ' then scanFrom operators seen rest
    else if c = '+' || c = '-' then
      if maxOperators ≤ operators then .error .tooManyOperators
      else do
        let tokens ← scanFrom (operators + 1) seen rest
        return (if c = '+' then plus else minus) :: tokens
    else if c = '(' then do return opening :: (← scanFrom operators seen rest)
    else if c = ')' then do return closing :: (← scanFrom operators seen rest)
    else if startsName c then
      let name := nameOf (c :: rest.takeWhile continuesName)
      if seen.contains name then .error (.duplicateOperand name)
      else do return operand name :: (← scanFrom operators (name :: seen) (rest.dropWhile continuesName))
    else .error (.invalidCharacter c)
termination_by cs => cs.length
decreasing_by
  all_goals simp_wf
  all_goals have := (List.dropWhile_suffix (l := rest) continuesName).length_le; omega

/-- The tokens of a sort expression. Letters of ASCII may be large or small; blanks around the text
do not count. -/
def scan (source : String) : Except ExpressionError (List Token) :=
  scanFrom 0 [] ((Text.trim source.toList).map Char.toLower)

end Token

end ItemCatalog.Expression
