/-
This file writes values as text, the way a program prints them. Strings are
written without quotes, inside arrays and hashes too, so the text of a string
may look like that of another value.
-/

import MonkeyLang.Program.Text
import MonkeyLang.Value

namespace MonkeyLang

/-- The text of a function: its parameters, and its body on a line of its own. -/
def Closure.text (closure : Closure) : String :=
  "fn(" ++ String.intercalate ", " closure.parameters ++ ") \x7b\n" ++ textOfBlock closure.body
    ++ "\n\x7d"

mutual

/-- The text of a value. -/
def Value.text : Value → String
  | .integer value => Decimal.ofInt value.toInt
  | .string text => text
  | .boolean value => textOfBool value
  | .null => "null"
  | .array elements => "[" ++ String.intercalate ", " (textsOfValues elements) ++ "]"
  | .hash entries => "\x7b" ++ String.intercalate ", " (textsOfEntries entries) ++ "\x7d"
  | .function closure => closure.text
  | .builtin _ => "builtin function"
  | .error message => "ERROR: " ++ message
termination_by structural value => value

/-- The texts of a list of values. -/
def textsOfValues : List Value → List String
  | [] => []
  | value :: rest => value.text :: textsOfValues rest
termination_by structural values => values

/-- The texts of the entries of a hash. -/
def textsOfEntries : List (Entry Value) → List String
  | [] => []
  | ⟨_, key, value⟩ :: rest => (key.text ++ ": " ++ value.text) :: textsOfEntries rest
termination_by structural entries => entries

end

end MonkeyLang
