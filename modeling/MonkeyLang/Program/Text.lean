/-
This file writes syntax trees as text. Every unary and binary operation and
every indexing stands in parentheses of its own, so the text shows how the
operands group. Statements follow one another without a separator, and strings
are written without their quotes.

The file also names the token that a node is known by: the operator of an
operation, the opening bracket of a call, the keyword of a statement.
-/

import MonkeyLang.Decimal
import MonkeyLang.Program

namespace MonkeyLang

/-- How a truth value is written. -/
def textOfBool : Bool → String
  | true => "true"
  | false => "false"

/-! ### Canonical text -/

mutual

/-- The canonical text of an expression. -/
def Expression.text : Expression → String
  | .identifier name => name
  | .integer value => Decimal.ofInt value.toInt
  | .string text => text
  | .boolean value => textOfBool value
  | .unary operator operand => "(" ++ operator.symbol ++ operand.text ++ ")"
  | .binary left operator right =>
    "(" ++ left.text ++ " " ++ operator.symbol ++ " " ++ right.text ++ ")"
  | .conditional condition consequence none =>
    "if(" ++ condition.text ++ ") \x7b" ++ textOfBlock consequence ++ "\x7d"
  | .conditional condition consequence (some alternative) =>
    "if(" ++ condition.text ++ ") \x7b" ++ textOfBlock consequence ++ "\x7d \x7b"
      ++ textOfBlock alternative ++ "\x7d"
  | .function parameters body =>
    "fn(" ++ String.intercalate "," parameters ++ ")\x7b" ++ textOfBlock body ++ "\x7d"
  | .call callee arguments =>
    callee.text ++ "(" ++ String.intercalate ", " (textsOfExpressions arguments) ++ ")"
  | .array elements => "[" ++ String.intercalate ", " (textsOfExpressions elements) ++ "]"
  | .index collection position => "(" ++ collection.text ++ "[" ++ position.text ++ "])"
  | .hash pairs => "\x7b" ++ String.intercalate ", " (textsOfPairs pairs) ++ "\x7d"
termination_by structural expression => expression

/-- The canonical texts of a list of expressions. -/
def textsOfExpressions : List Expression → List String
  | [] => []
  | expression :: rest => expression.text :: textsOfExpressions rest
termination_by structural expressions => expressions

/-- The canonical texts of the pairs of a hash. -/
def textsOfPairs : List (Expression × Expression) → List String
  | [] => []
  | (key, value) :: rest => (key.text ++ ": " ++ value.text) :: textsOfPairs rest
termination_by structural pairs => pairs

/-- The canonical text of a statement. -/
def Statement.text : Statement → String
  | .binding name value => "let " ++ name ++ " = " ++ value.text ++ ";"
  | .returning value => "return " ++ value.text ++ ";"
  | .expression value => value.text
termination_by structural statement => statement

/-- The canonical text of the statements of a block, without the braces. -/
def textOfBlock : List Statement → String
  | [] => ""
  | statement :: rest => statement.text ++ textOfBlock rest
termination_by structural statements => statements

end

/-- The canonical text of a program. -/
def Program.text (program : Program) : String :=
  textOfBlock program.statements

/-! ### The token a node is known by -/

/-- The text of the token an expression is known by. -/
def Expression.label : Expression → String
  | .identifier name => name
  | .integer value => Decimal.ofInt value.toInt
  | .string text => text
  | .boolean value => textOfBool value
  | .unary operator _ => operator.symbol
  | .binary _ operator _ => operator.symbol
  | .conditional .. => "if"
  | .function .. => "fn"
  | .call .. => "("
  | .array _ => "["
  | .index .. => "["
  | .hash _ => "\x7b"

/-- The text of the token a statement is known by. -/
def Statement.label : Statement → String
  | .binding .. => "let"
  | .returning _ => "return"
  | .expression value => value.label

/-- The text of the token a block is known by. -/
def Block.label (_ : Block) : String :=
  "\x7b"

/-- The text of the token a program is known by: that of its first statement. -/
def Program.label (program : Program) : String :=
  match program.statements.head? with
  | some statement => statement.label
  | none => ""

end MonkeyLang
