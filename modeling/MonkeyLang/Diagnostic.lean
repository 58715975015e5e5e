/-
This file holds what can be wrong with a program before it is run. A diagnostic
is a cause and the line of the token it points at; its wording is
`Diagnostic.message`, and a list of diagnostics is shown to the user as one
report.
-/

import MonkeyLang.Decimal
import MonkeyLang.Text.Quoted
import MonkeyLang.Token

namespace MonkeyLang

/-- Why a statement could not be read. -/
inductive Diagnostic
  /-- The grammar requires one kind of token and finds another. -/
  | unexpected (expected found : Kind) (line : Nat)
  /-- An operand is required, and no operand starts with this kind of token. -/
  | noOperand (found : Kind) (line : Nat)
  /-- The text of an integer token is no integer of the language. -/
  | invalidInteger (text : String) (line : Nat)
deriving DecidableEq, Repr, Inhabited

namespace Diagnostic

/-- The line of the token a diagnostic points at. -/
def line : Diagnostic → Nat
  | unexpected _ _ line => line
  | noOperand _ line => line
  | invalidInteger _ line => line

/-- The wording of a diagnostic, without its line. -/
def message : Diagnostic → String
  | unexpected expected found _ =>
    "expected next token to be " ++ expected.name ++ ", got " ++ found.name ++ " instead"
  | noOperand found _ => "no prefix parse function for " ++ found.name ++ " found"
  | invalidInteger text _ => "could not parse " ++ Text.quoted text ++ " as integer"

/-- The report on a list of diagnostics: a heading, then a line for each. -/
def report (diagnostics : List Diagnostic) : String :=
  String.join ("parser errors:" :: diagnostics.map fun diagnostic =>
    "\n\tline " ++ Decimal.ofNat diagnostic.line ++ ": " ++ diagnostic.message)

end Diagnostic

end MonkeyLang
