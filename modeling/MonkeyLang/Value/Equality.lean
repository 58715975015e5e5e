/-
This file says when two values are equal. Values of different types never are.
Arrays are equal element by element; hashes are equal if they have as many
entries and every entry of one has an equal entry in the other, in whatever
order; functions are equal only to themselves.
-/

import MonkeyLang.Value

namespace MonkeyLang

mutual

/-- Whether two values are equal. -/
def Value.same : Value → Value → Bool
  | .integer left, .integer right => left == right
  | .string left, .string right => left == right
  | .boolean left, .boolean right => left == right
  | .null, .null => true
  | .array left, .array right => sameElements left right
  | .hash left, .hash right => left.length == right.length && sameEntries left right
  | .function left, .function right => left.identity == right.identity
  | .builtin left, .builtin right => left == right
  | .error left, .error right => left == right
  | _, _ => false
termination_by structural value => value

/-- Whether two lists of values are equal, element by element. -/
def sameElements : List Value → List Value → Bool
  | [], [] => true
  | left :: leftRest, right :: rightRest => left.same right && sameElements leftRest rightRest
  | _, _ => false
termination_by structural values => values

/-- Whether every entry on the left has its equal on the right, under the same hash key. -/
def sameEntries : List (Entry Value) → List (Entry Value) → Bool
  | [], _ => true
  | ⟨hashKey, key, value⟩ :: rest, others =>
    (match Entry.find? hashKey others with
      | some other => key.same other.key && value.same other.value
      | none => false)
    && sameEntries rest others
termination_by structural entries => entries

end

instance : BEq Value := ⟨Value.same⟩

end MonkeyLang
