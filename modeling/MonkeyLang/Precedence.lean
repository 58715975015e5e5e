/-
This file says how tightly the operators of the language bind. Between two
operands, `==` and `!=` bind loosest, then `<` and `>`, then `+` and `-`, then
`*` and `/`; the operators before an operand bind tighter than all of these,
and calls and indexing bind tightest.

A finished expression goes on exactly when the next token is one of its
continuations: a binary operator, the parenthesis of a call or the bracket of
an indexing.
-/

import MonkeyLang.Program
import MonkeyLang.Token

namespace MonkeyLang

/-! ### Levels -/

/-- How tightly an operator binds, loosest first. -/
inductive Precedence
  /-- The floor of an expression that stands alone: everything binds tighter. -/
  | lowest
  | equals
  | lessGreater
  | sum
  | product
  | unary
  | call
  | index
deriving DecidableEq, Repr, Inhabited

namespace Precedence

/-- The place of a level in the order, from zero. -/
def rank : Precedence → Nat
  | lowest => 0
  | equals => 1
  | lessGreater => 2
  | sum => 3
  | product => 4
  | unary => 5
  | call => 6
  | index => 7

instance : LT Precedence := ⟨fun left right => left.rank < right.rank⟩

instance : LE Precedence := ⟨fun left right => left.rank ≤ right.rank⟩

instance (left right : Precedence) : Decidable (left < right) :=
  inferInstanceAs (Decidable (left.rank < right.rank))

instance (left right : Precedence) : Decidable (left ≤ right) :=
  inferInstanceAs (Decidable (left.rank ≤ right.rank))

end Precedence

/-! ### Continuations -/

/-- How tightly a binary operator binds. -/
def BinaryOperator.precedence : BinaryOperator → Precedence
  | equal => .equals
  | notEqual => .equals
  | less => .lessGreater
  | greater => .lessGreater
  | add => .sum
  | subtract => .sum
  | multiply => .product
  | divide => .product

/-- What can follow a finished expression and make it part of a larger one. -/
inductive Continuation
  | operation (operator : BinaryOperator)
  | call
  | index
deriving DecidableEq, Repr, Inhabited

namespace Continuation

/-- The continuation that a kind of token starts, if it starts one. -/
def ofKind? : Kind → Option Continuation
  | .plus => some (operation .add)
  | .minus => some (operation .subtract)
  | .asterisk => some (operation .multiply)
  | .slash => some (operation .divide)
  | .less => some (operation .less)
  | .greater => some (operation .greater)
  | .equal => some (operation .equal)
  | .notEqual => some (operation .notEqual)
  | .openParen => some call
  | .openBracket => some index
  | _ => none

/-- How tightly a continuation binds. -/
def precedence : Continuation → Precedence
  | operation operator => operator.precedence
  | call => .call
  | index => .index

end Continuation

/-- How tightly a token binds when it follows a finished expression. -/
def Kind.precedence? (kind : Kind) : Option Precedence :=
  (Continuation.ofKind? kind).map Continuation.precedence

/-- The kinds that bind strictly looser than the given one after a finished expression. -/
def Kind.looser (kind : Kind) : List Kind :=
  match kind.precedence? with
  | none => []
  | some tight =>
    Kind.all.filter fun other =>
      match other.precedence? with
      | none => false
      | some loose => loose < tight

end MonkeyLang
