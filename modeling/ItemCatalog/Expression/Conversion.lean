import ItemCatalog.Expression.Token
import ItemCatalog.Expression.Tree

/-!
# From tokens to postfix notation

Brackets and operators whose operands are not complete yet wait on a stack. A sign in front of an
operand binds tighter than one between operands, and operators between operands group to the left.
`Conversion` is the state between two tokens; `toPostfix?` runs it over all of them.
-/

namespace ItemCatalog.Expression

/-- How tightly an operator holds its operands. -/
def Operator.precedence : Operator → Nat
  | .add | .subtract => 1
  | .negate => 2

/-- What waits on the stack. -/
inductive Pending
  | opening
  | operator (op : Operator)
  deriving DecidableEq, Repr

/-- What was read last. A plus sign in front of an operand does not count. -/
inductive Last
  | nothing
  | opening
  | closing
  | operator
  | operand
  deriving DecidableEq, Repr

/-- The state of a conversion: the steps written, what waits, the newest first, and what was read
last. -/
structure Conversion where
  output : List (Step String)
  pending : List Pending
  last : Last
  deriving DecidableEq, Repr

namespace Conversion

/-- The state before the first token. -/
def start : Conversion := ⟨[], [], .nothing⟩

/-- Takes operators off the stack that bind at least as tightly as `op`. -/
def popTighter (op : Operator) (output : List (Step String)) :
    List Pending → List (Step String) × List Pending
  | .operator top :: rest =>
    if op.precedence ≤ top.precedence then popTighter op (output ++ [.operator top]) rest
    else (output, .operator top :: rest)
  | pending => (output, pending)

/-- Takes everything off the stack through the nearest open bracket. -/
def closeGroup (output : List (Step String)) :
    List Pending → Except ExpressionError (List (Step String) × List Pending)
  | [] => .error .unbalancedBrackets
  | .opening :: rest => .ok (output, rest)
  | .operator op :: rest => closeGroup (output ++ [.operator op]) rest

/-- Takes everything off the stack, where no bracket may be left. -/
def drain (output : List (Step String)) :
    List Pending → Except ExpressionError (List (Step String))
  | [] => .ok output
  | .opening :: _ => .error .unbalancedBrackets
  | .operator op :: rest => drain (output ++ [.operator op]) rest

/-- Whether a sign read now stands in front of an operand. -/
def beforeOperand (s : Conversion) : Bool :=
  s.last = .nothing || s.last = .opening || s.last = .operator

/-- Lets an operator between two operands wait. -/
def pushBinary (s : Conversion) (op : Operator) : Conversion :=
  let (output, pending) := popTighter op s.output s.pending
  ⟨output, .operator op :: pending, .operator⟩

/-- Reads one token. -/
def step (s : Conversion) : Token → Except ExpressionError Conversion
  | .opening =>
    match s.last with
    | .closing => .error .openAfterClose
    | .operand => .error .openAfterOperand
    | _ => .ok ⟨s.output, .opening :: s.pending, .opening⟩
  | .closing =>
    match s.last with
    | .operator => .error .closeAfterOperator
    | .opening => .error .emptyBrackets
    | _ => do
      let (output, pending) ← closeGroup s.output s.pending
      return ⟨output, pending, .closing⟩
  | .plus => .ok (if s.beforeOperand then s else s.pushBinary .add)
  | .minus =>
    .ok (if s.beforeOperand then ⟨s.output, .operator .negate :: s.pending, .operator⟩
      else s.pushBinary .subtract)
  | .operand name =>
    match s.last with
    | .closing => .error .operandAfterClose
    | _ => .ok ⟨s.output ++ [.operand name], s.pending, .operand⟩

/-- The steps written when the tokens are at their end. -/
def finish (s : Conversion) : Except ExpressionError (List (Step String)) :=
  if s.last = .operator then .error .trailingOperator else drain s.output s.pending

end Conversion

/-- The postfix notation of a token list. Tokens that are all `+` have none and give no steps. -/
def postfixOfTokens (tokens : List Token) : Except ExpressionError (List (Step String)) := do
  (← tokens.foldlM Conversion.step Conversion.start).finish

/-- The postfix notation of the text of an expression. -/
def postfixOfSource (source : String) : Except ExpressionError (List (Step String)) := do
  postfixOfTokens (← Token.scan source)

end ItemCatalog.Expression
