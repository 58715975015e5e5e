/-
This file holds what can go wrong while a program runs. A failure is a cause;
its wording is `Failure.message`, and it is what the user reads in the error
value that a failed program results in.
-/

import MonkeyLang.Builtin
import MonkeyLang.Decimal
import MonkeyLang.Program
import MonkeyLang.ValueType

namespace MonkeyLang

/-- Why a program failed. -/
inductive Failure
  /-- A binary operator stands between values of different types. -/
  | typeMismatch (left : ValueType) (operator : BinaryOperator) (right : ValueType)
  /-- A binary operator is not defined for values of the type. -/
  | unknownBinary (left : ValueType) (operator : BinaryOperator) (right : ValueType)
  /-- A unary operator is not defined for values of the type. -/
  | unknownUnary (operator : UnaryOperator) (operand : ValueType)
  /-- A name is bound nowhere in scope and is not the name of a builtin. -/
  | unboundName (name : String)
  /-- A value that has no hash key is used as one. -/
  | unusableKey (type : ValueType)
  /-- What is indexed is neither an array with an integer index nor a hash. -/
  | notIndexable (type : ValueType)
  /-- What is called is neither a function nor a builtin. -/
  | notCallable (type : ValueType)
  /-- A function is called with a number of arguments other than that of its parameters. -/
  | argumentCount (expected found : Nat)
  /-- A builtin is called with a number of arguments that it does not take. -/
  | builtinArgumentCount (expected found : Nat)
  /-- A builtin is not defined for arguments of the type. -/
  | unsupportedArgument (builtin : Builtin) (type : ValueType)
  /-- A builtin that takes an array is called with another value. -/
  | arrayRequired (builtin : Builtin) (type : ValueType)
  | divisionByZero (dividend : Int64)
  /-- Too many calls of functions are active at once. -/
  | callDepthExceeded (limit : Nat)
deriving DecidableEq, Repr, Inhabited

/-- The wording of a failure. -/
def Failure.message : Failure → String
  | typeMismatch left operator right =>
    "type mismatch: " ++ left.name ++ " " ++ operator.symbol ++ " " ++ right.name
  | unknownBinary left operator right =>
    "unknown operator: " ++ left.name ++ " " ++ operator.symbol ++ " " ++ right.name
  | unknownUnary operator operand => "unknown operator: " ++ operator.symbol ++ operand.name
  | unboundName name => "identifier not found: " ++ name
  | unusableKey type => "unusable as hash key: " ++ type.name
  | notIndexable type => "index operator not supported: " ++ type.name
  | notCallable type => "not a function: " ++ type.name
  | argumentCount expected found =>
    "wrong number of arguments: want=" ++ Decimal.ofNat expected ++ ", got=" ++ Decimal.ofNat found
  | builtinArgumentCount expected found =>
    "wrong number of arguments. got=" ++ Decimal.ofNat found ++ ", want="
      ++ Decimal.ofNat expected
  | unsupportedArgument builtin type =>
    "argument to `" ++ builtin.name ++ "` not supported, got " ++ type.name
  | arrayRequired builtin type =>
    "argument to `" ++ builtin.name ++ "` must be ARRAY, got " ++ type.name
  | divisionByZero dividend =>
    "division by zero: " ++ Decimal.ofInt dividend.toInt ++ " / 0"
  | callDepthExceeded limit =>
    "maximum call depth exceeded (limit " ++ Decimal.ofNat limit ++ ")"

end MonkeyLang
