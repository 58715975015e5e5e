/-
This file holds the values that programs compute with, and what can be said of
a value by itself: its type, whether it counts as true, and its hash key.

Functions have an identity: two functions are the same only if they came from
one evaluation of one function expression. A hash lists its entries in the
order in which their keys were first inserted. An error is the value in which a
failed program results; no program can get hold of one.
-/

import MonkeyLang.Builtin
import MonkeyLang.Digest
import MonkeyLang.HashTable
import MonkeyLang.Program

namespace MonkeyLang

/-- A function made by a program: its identity, its parameters and body, and the frame in which
it was made, which encloses the frames of its calls. -/
structure Closure where
  identity : Nat
  parameters : List String
  body : Block
  frame : Nat

/-- A value. -/
inductive Value
  | integer (value : Int64)
  | string (text : String)
  | boolean (value : Bool)
  | null
  | array (elements : List Value)
  | hash (entries : List (Entry Value))
  | function (closure : Closure)
  | builtin (builtin : Builtin)
  | error (message : String)

namespace Value

instance : Inhabited Value := ⟨null⟩

/-- The type of a value. -/
def type : Value → ValueType
  | integer _ => .integer
  | string _ => .string
  | boolean _ => .boolean
  | null => .null
  | array _ => .array
  | hash _ => .hash
  | function _ => .function
  | builtin _ => .builtin
  | error _ => .error

/-- Whether a value counts as true in a condition: all values do but `null` and `false`. -/
def isTruthy : Value → Bool
  | null => false
  | boolean value => value
  | _ => true

/-- Whether a value is an error. -/
def isError : Value → Bool
  | error _ => true
  | _ => false

/-- The number in the hash key of a value. Integers have their two's complement bits, truth
values one and zero, and strings a digest; other values have none. -/
def hashCode? : Value → Option UInt64
  | integer value => some value.toUInt64
  | boolean value => some (if value then 1 else 0)
  | string text => some (Digest.ofText text)
  | _ => none

/-- The hash key of a value. Only integers, truth values and strings have one. -/
def hashKey? (value : Value) : Option HashKey :=
  value.hashCode?.map fun code => ⟨value.type, code⟩

end Value

end MonkeyLang
