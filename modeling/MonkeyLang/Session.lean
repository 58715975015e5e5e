/-
This file runs source text. Text that does not read cleanly is not run at all,
so it changes nothing; otherwise its bindings stay in the frame it was run in,
and running several texts in one frame behaves like one long session.
-/

import MonkeyLang.Evaluation
import MonkeyLang.Parser.Grammar

namespace MonkeyLang

/-- How many calls may be active at once unless the user says otherwise. -/
def defaultLimit : Nat :=
  2048

/-- Runs source text in a frame, or yields what is wrong with it. -/
def runSource (limit frame : Nat) (source : String) : Step (Except (List Diagnostic) Value) := do
  let parsed := Parsed.ofSource source
  if parsed.diagnostics.isEmpty then
    let value ← parsed.program.execute limit frame
    return .ok value
  else
    return .error parsed.diagnostics

end MonkeyLang
