/-
This file reads the grammar of the language by precedence climbing. An
expression is an operand followed by all the continuations that bind tighter
than a floor; the right operand of a binary operator is read with the operator
itself as the floor, so that operators of one level group to the left.

Every parser below starts in front of the first token of its construct and
stops behind the last one. The parsers of the larger constructs are written
over a parser `expression` for the expressions inside them; `Parser.expression`
at the end ties the knot. Its first argument bounds how deeply expressions may
nest, and the loops inside an expression are bounded by it too. Since every
round of a loop and every level of nesting reads a token, the number of tokens
is bound enough, and `Parsed.ofTokens` supplies it.

A statement that cannot be read is left out of its block or program, its
diagnostic is kept, and reading goes on behind the token at which it was given
up.
-/

import MonkeyLang.Lexeme
import MonkeyLang.Parser.Cursor
import MonkeyLang.Precedence

namespace MonkeyLang.Parser

/-! ### Lists -/

/-- Reads the items that follow the first one of a list, each behind a comma. The items found
so far are given latest first. -/
def moreItems {α : Type} (item : Parser α) : Nat → List α → Parser (List α)
  | 0, found => return found.reverse
  | bound + 1, found => do
    if (← peek).kind = .comma then
      advance
      moreItems item bound ((← item) :: found)
    else
      return found.reverse

/-- Reads items separated by commas up to a closing token, which is read as well. The opening
token is already behind. -/
def commaSeparated {α : Type} (bound : Nat) (close : Kind) (item : Parser α) :
    Parser (List α) := do
  if (← peek).kind = close then
    advance
    return []
  else
    let items ← moreItems item bound [← item]
    let _ ← expect close
    return items

/-- Reads a parameter of a function, which is a name. A token of any other kind is left behind
as well. -/
def parameter : Parser String := do
  let token ← take
  if token.kind = .identifier then
    return token.text
  else
    throw (.unexpected .identifier token.kind token.line)

section Constructs

variable (bound : Nat) (expression : Precedence → Parser Expression)

/-! ### Statements -/

/-- Reads one statement and the semicolon behind it, which may be missing. -/
def statement : Parser Statement := do
  match (← peek).kind with
  | .letWord =>
    advance
    let name ← expect .identifier
    let _ ← expect .assign
    let value ← expression .lowest
    skip .semicolon
    return .binding name.text value
  | .returnWord =>
    advance
    let value ← expression .lowest
    skip .semicolon
    return .returning value
  | _ =>
    let value ← expression .lowest
    skip .semicolon
    return .expression value

/-- Reads statements up to a token of a kind that stops them; that token stays unread. The
statements found so far are given latest first. -/
def statements (stops : Kind → Bool) : Nat → List Statement → Reading (List Statement)
  | 0, found => return found.reverse
  | rounds + 1, found => do
    if stops (← peek).kind then
      return found.reverse
    else
      match ← attempt (statement expression) with
      | some read => statements stops rounds (read :: found)
      | none => statements stops rounds found

/-- A block ends with its closing brace. The end of input ends it too. -/
def endsBlock (kind : Kind) : Bool :=
  kind == .closeBrace || kind == .endOfInput

/-- Reads a block together with its braces. -/
def block : Parser (List Statement) := do
  let _ ← expect .openBrace
  let body ← statements expression endsBlock bound []
  advance
  return body

/-! ### Operands -/

/-- Reads an expression in parentheses. The opening one is already behind. -/
def grouped : Parser Expression := do
  let inner ← expression .lowest
  let _ ← expect .closeParen
  return inner

/-- Reads a conditional. The keyword is already behind. -/
def conditional : Parser Expression := do
  let _ ← expect .openParen
  let condition ← grouped expression
  let consequence ← block bound expression
  if (← peek).kind = .elseWord then
    advance
    return .conditional condition consequence (some (← block bound expression))
  else
    return .conditional condition consequence none

/-- Reads a function. The keyword is already behind. -/
def function : Parser Expression := do
  let _ ← expect .openParen
  let parameters ← commaSeparated bound .closeParen parameter
  let body ← block bound expression
  return .function parameters body

/-- Reads the pairs of a hash up to its closing brace, which stays unread. All pairs but the
last have a comma behind them, and the last may have one. The pairs found so far are given
latest first. -/
def pairs : Nat → List (Expression × Expression) → Parser (List (Expression × Expression))
  | 0, found => return found.reverse
  | rounds + 1, found => do
    if (← peek).kind = .closeBrace then
      return found.reverse
    else
      let key ← expression .lowest
      let _ ← expect .colon
      let value ← expression .lowest
      if (← peek).kind ≠ .closeBrace then
        let _ ← expect .comma
      pairs rounds ((key, value) :: found)

/-- Reads a hash. The opening brace is already behind. -/
def hash : Parser Expression := do
  let entries ← pairs expression bound []
  let _ ← expect .closeBrace
  return .hash entries

/-- Reads an operand. If no operand starts with the next token, that token is left behind. -/
def operand : Parser Expression := do
  let token ← take
  match token.kind with
  | .identifier => return .identifier token.text
  | .integer =>
    match Decimal.int64? token.text with
    | some value => return .integer value
    | none => throw (.invalidInteger token.text token.line)
  | .string => return .string token.text
  | .trueWord => return .boolean true
  | .falseWord => return .boolean false
  | .bang => return .unary .not (← expression .unary)
  | .minus => return .unary .negate (← expression .unary)
  | .openParen => grouped expression
  | .ifWord => conditional bound expression
  | .functionWord => function bound expression
  | .openBracket => return .array (← commaSeparated bound .closeBracket (expression .lowest))
  | .openBrace => hash bound expression
  | kind => throw (.noOperand kind token.line)

/-! ### Continuations -/

/-- Reads one continuation of a finished expression. Its first token is already behind. -/
def continuation (left : Expression) : Continuation → Parser Expression
  | .operation operator => return .binary left operator (← expression operator.precedence)
  | .call => return .call left (← commaSeparated bound .closeParen (expression .lowest))
  | .index => do
    let position ← expression .lowest
    let _ ← expect .closeBracket
    return .index left position

/-- Reads the continuations of a finished expression as long as they bind tighter than the
floor. -/
def continuations (floor : Precedence) : Nat → Expression → Parser Expression
  | 0, left => return left
  | rounds + 1, left => do
    match Continuation.ofKind? (← peek).kind with
    | some next =>
      if floor < next.precedence then
        advance
        continuations floor rounds (← continuation bound expression left next)
      else
        return left
    | none => return left

end Constructs

/-! ### Expressions -/

/-- Reads an expression all of whose continuations bind tighter than the floor. The bound must
exceed the number of tokens ahead; then no level of nesting finds it used up. -/
def expression : Nat → Precedence → Parser Expression
  | 0, _ => do
    let token ← peek
    throw (.noOperand token.kind token.line)
  | bound + 1, floor => do
    let left ← operand bound (expression bound)
    continuations bound (expression bound) floor bound left

end MonkeyLang.Parser

namespace MonkeyLang

/-- What reading a program yields: the statements that could be read, and what was wrong with
the others. A program is fit to be run when nothing was wrong. -/
structure Parsed where
  program : Program
  diagnostics : List Diagnostic
deriving Inhabited

namespace Parsed

/-- Reads a program from a stream of tokens, up to the first end of input in front of a
statement. Tokens behind it are not looked at. -/
def ofTokens (tokens : List Token) : Parsed :=
  let bound := tokens.length + 1
  let reading := Parser.statements (Parser.expression bound) (· == .endOfInput) bound []
  let (statements, cursor) := reading.run (Cursor.ofTokens tokens)
  ⟨⟨statements⟩, cursor.diagnostics.toList⟩

/-- Reads a program from source text. -/
def ofSource (source : String) : Parsed :=
  ofTokens (Token.ofSource source)

end Parsed

end MonkeyLang
