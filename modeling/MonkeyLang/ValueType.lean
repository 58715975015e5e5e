/-
This file holds the types of values, and the names they go by in messages.
Programs cannot ask for the type of a value, but operators and builtins are
defined type by type.
-/

namespace MonkeyLang

/-- The types of values. -/
inductive ValueType
  | integer
  | string
  | boolean
  | null
  | array
  | hash
  | function
  | builtin
  | error
deriving DecidableEq, Repr, Inhabited

/-- The name a type goes by in messages. -/
def ValueType.name : ValueType → String
  | integer => "INTEGER"
  | string => "STRING"
  | boolean => "BOOLEAN"
  | null => "NULL"
  | array => "ARRAY"
  | hash => "HASH"
  | function => "FUNCTION"
  | builtin => "BUILTIN"
  | error => "ERROR"

end MonkeyLang
