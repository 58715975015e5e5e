/-
This file says what the builtins do. No builtin changes its arguments: those
that yield an array yield a new one. Only `puts` writes anything.
-/

import MonkeyLang.Failure
import MonkeyLang.Value.Text

namespace MonkeyLang

/-- What a builtin answers: a value, and the text it writes. -/
structure Reply where
  value : Value
  written : String
deriving Inhabited

/-- An answer that writes nothing. -/
def Reply.silent (value : Value) : Reply :=
  ⟨value, ""⟩

namespace Builtin

/-- A count as an integer: one that is too large counts as the largest integer. -/
def integerOfCount (count : Nat) : Int64 :=
  if count ≤ Int64.maxValue.toNatClampNeg then Int64.ofNat count else Int64.maxValue

/-- The length of a string, in bytes, or of an array. -/
def lengthOf : Value → Except Failure Value
  | .string text => .ok (.integer (integerOfCount text.utf8ByteSize))
  | .array elements => .ok (.integer (integerOfCount elements.length))
  | argument => .error (.unsupportedArgument len argument.type)

/-- The elements of an array that is given to a builtin. -/
def elementsOf (builtin : Builtin) : Value → Except Failure (List Value)
  | .array elements => .ok elements
  | argument => .error (.arrayRequired builtin argument.type)

/-- All elements of an array but the first, or `null` if there is none. -/
def restOf : List Value → Value
  | [] => .null
  | _ :: tail => .array tail

/-- Each value on a line of its own. -/
def linesOf (arguments : List Value) : String :=
  String.join (arguments.map fun argument => argument.text ++ "\n")

/-- Calls a builtin. A number of arguments that it does not take fails before any argument is
looked at. -/
def call : Builtin → List Value → Except Failure Reply
  | len, [argument] => Reply.silent <$> lengthOf argument
  | first, [argument] =>
    (fun elements => .silent (elements.head?.getD .null)) <$> elementsOf first argument
  | last, [argument] =>
    (fun elements => .silent (elements.getLast?.getD .null)) <$> elementsOf last argument
  | rest, [argument] => (fun elements => .silent (restOf elements)) <$> elementsOf rest argument
  | push, [argument, value] =>
    (fun elements => .silent (.array (elements ++ [value]))) <$> elementsOf push argument
  | puts, arguments => .ok ⟨.null, linesOf arguments⟩
  | builtin, arguments =>
    .error (.builtinArgumentCount (builtin.arity?.getD 0) arguments.length)

end Builtin

end MonkeyLang
