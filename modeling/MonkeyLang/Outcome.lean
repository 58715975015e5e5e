/-
This file says what running a whole program looks like from outside: the exit
code, what stands on standard output, and what stands on standard error.
-/

import MonkeyLang.Session
import MonkeyLang.Value.Text

namespace MonkeyLang

/-- What a finished run leaves behind. -/
structure Outcome where
  code : Nat
  /-- The text on standard output. -/
  output : String
  /-- The text on standard error. -/
  errors : String
deriving DecidableEq, Repr, Inhabited

namespace Outcome

/-- The outcome of running source text as a program of its own. What is wrong with the text, and
the error of a program that fails, go to standard error. The value of a program that succeeds is
shown if the caller wants it. -/
def ofSource (limit : Nat) (showsValue : Bool) (source : String) : Outcome :=
  let (result, machine) := (runSource limit Machine.rootFrame source).run Machine.initial
  match result with
  | .error diagnostics => ⟨1, machine.output, Diagnostic.report diagnostics ++ "\n"⟩
  | .ok value =>
    if value.isError then
      ⟨1, machine.output, value.text ++ "\n"⟩
    else if showsValue then
      ⟨0, machine.output ++ value.text ++ "\n", ""⟩
    else
      ⟨0, machine.output, ""⟩

end Outcome

end MonkeyLang
