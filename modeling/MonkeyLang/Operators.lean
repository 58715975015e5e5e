/-
This file says what the operators of the language do with values. Arithmetic on
integers is modulo `2^64` and never overflows; division truncates toward zero
and fails only for the divisor zero. Two values of different types have no
operator in common, not even `==`.
-/

import MonkeyLang.Failure
import MonkeyLang.Value

namespace MonkeyLang

/-! ### Unary operators -/

/-- What a unary operator makes of its operand. -/
def UnaryOperator.apply : UnaryOperator → Value → Except Failure Value
  | not, operand => .ok (.boolean !operand.isTruthy)
  | negate, .integer value => .ok (.integer (-value))
  | negate, operand => .error (.unknownUnary negate operand.type)

/-! ### Binary operators -/

/-- What a binary operator makes of two integers. -/
def BinaryOperator.applyIntegers : BinaryOperator → Int64 → Int64 → Except Failure Value
  | add, left, right => .ok (.integer (left + right))
  | subtract, left, right => .ok (.integer (left - right))
  | multiply, left, right => .ok (.integer (left * right))
  | divide, left, right =>
    if right = 0 then .error (.divisionByZero left) else .ok (.integer (left / right))
  | less, left, right => .ok (.boolean (left < right))
  | greater, left, right => .ok (.boolean (right < left))
  | equal, left, right => .ok (.boolean (left == right))
  | notEqual, left, right => .ok (.boolean (left != right))

/-- What a binary operator makes of two values. -/
def BinaryOperator.apply (operator : BinaryOperator) (left right : Value) :
    Except Failure Value :=
  match left, right, operator with
  | .integer left, .integer right, operator => operator.applyIntegers left right
  | .string left, .string right, add => .ok (.string (left ++ right))
  | .string left, .string right, equal => .ok (.boolean (left == right))
  | .string left, .string right, notEqual => .ok (.boolean (left != right))
  | .boolean left, .boolean right, equal => .ok (.boolean (left == right))
  | .boolean left, .boolean right, notEqual => .ok (.boolean (left != right))
  | left, right, operator =>
    if left.type = right.type then
      .error (.unknownBinary left.type operator right.type)
    else
      .error (.typeMismatch left.type operator right.type)

/-! ### Indexing -/

/-- The element of an array at an index, `null` outside the array. -/
def elementAt (elements : List Value) (index : Int) : Value :=
  match index with
  | .ofNat position => elements.getD position .null
  | .negSucc _ => .null

/-- What indexing one value by another yields. A key that a hash does not hold yields `null`. -/
def Value.indexedBy : Value → Value → Except Failure Value
  | .array elements, .integer index => .ok (elementAt elements index.toInt)
  | .hash entries, key =>
    match key.hashKey? with
    | none => .error (.unusableKey key.type)
    | some hashKey =>
      match Entry.find? hashKey entries with
      | none => .ok .null
      | some entry => .ok entry.value
  | collection, _ => .error (.notIndexable collection.type)

end MonkeyLang
