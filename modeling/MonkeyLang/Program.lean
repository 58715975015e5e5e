/-
This file holds the syntax trees of the language. A program is a list of
statements, and so is a block, the braced body of a function or of a branch.
Parentheses that only group leave no trace in a tree, and neither do semicolons
or the comma after the last pair of a hash.
-/

namespace MonkeyLang

/-! ### Operators -/

/-- The operators that stand before one operand. -/
inductive UnaryOperator
  /-- Written `!`: logical negation. -/
  | not
  /-- Written `-`: arithmetic negation. -/
  | negate
deriving DecidableEq, Repr, Inhabited

/-- The operators that stand between two operands. -/
inductive BinaryOperator
  | add
  | subtract
  | multiply
  | divide
  | less
  | greater
  | equal
  | notEqual
deriving DecidableEq, Repr, Inhabited

/-- How a unary operator is written. -/
def UnaryOperator.symbol : UnaryOperator → String
  | not => "!"
  | negate => "-"

/-- How a binary operator is written. -/
def BinaryOperator.symbol : BinaryOperator → String
  | add => "+"
  | subtract => "-"
  | multiply => "*"
  | divide => "/"
  | less => "<"
  | greater => ">"
  | equal => "=="
  | notEqual => "!="

/-! ### Expressions and statements -/

mutual

/-- An expression. Integers are signed words of 64 bits. -/
inductive Expression
  | identifier (name : String)
  | integer (value : Int64)
  | string (text : String)
  | boolean (value : Bool)
  | unary (operator : UnaryOperator) (operand : Expression)
  | binary (left : Expression) (operator : BinaryOperator) (right : Expression)
  /-- Written `if (condition) { … }`, with `else { … }` for the alternative. -/
  | conditional (condition : Expression) (consequence : List Statement)
      (alternative : Option (List Statement))
  /-- Written `fn(parameters) { … }`. A name may stand twice among the parameters. -/
  | function (parameters : List String) (body : List Statement)
  | call (callee : Expression) (arguments : List Expression)
  | array (elements : List Expression)
  /-- Written `collection[position]`. -/
  | index (collection : Expression) (position : Expression)
  /-- Written `{key: value, …}`, the pairs in source order. -/
  | hash (pairs : List (Expression × Expression))

/-- A statement. -/
inductive Statement
  /-- Written `let name = value;`. -/
  | binding (name : String) (value : Expression)
  /-- Written `return value;`. -/
  | returning (value : Expression)
  /-- An expression in place of a statement. -/
  | expression (value : Expression)

end

instance : Inhabited Expression := ⟨.boolean false⟩

instance : Inhabited Statement := ⟨.expression default⟩

/-- The statements between two braces. -/
abbrev Block := List Statement

/-- A whole program. -/
structure Program where
  statements : List Statement
deriving Inhabited

end MonkeyLang
