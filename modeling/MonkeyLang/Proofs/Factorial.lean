/-
This file proves how far a function gets that calls itself once for each number
below its own. The factorial of `n` takes `n + 1` calls, one inside the other:
the call with zero is a call like the others. So it is there exactly if `n` is
below the limit, and it is the mathematical factorial as far as a word of 64
bits can tell.

The function finds itself by name, in the frame it was made in. Calls leave this
frame as it is, whether they yield a number or reach the limit, so what one of
them results in makes no difference to the next.
-/

import Mathlib.Data.Int.ModEq
import Mathlib.Data.Nat.Factorial.Basic
import MonkeyLang.Proofs.CanonicalText
import MonkeyLang.Proofs.HigherOrder

namespace MonkeyLang

open Machine

namespace Factorial

/-! ### The function -/

/-- The expression `n == 0`. -/
def test : Expression :=
  .binary (.identifier "n") .equal (.integer 0)

/-- The expression `factorial(n - 1)`. -/
def innerCall : Expression :=
  .call (.identifier "factorial") [.binary (.identifier "n") .subtract (.integer 1)]

/-- The block `if (n == 0) { 1 } else { n * factorial(n - 1) }`. -/
def body : Block :=
  [.expression (.conditional test [.expression (.integer 1)]
    (some [.expression (.binary (.identifier "n") .multiply innerCall)]))]

/-- The function `fn(n) { ... }`, made in the frame `home`. -/
def function (identity home : Nat) : Closure :=
  ⟨identity, ["n"], body, home⟩

/-- The name leads to the function in the frame that it was made in. -/
structure InReach (machine : Machine) (identity home : Nat) : Prop where
  present : home < machine.scopes.size
  bound : machine.scopes.get? home "factorial" = some (.function (function identity home))

namespace InReach

variable {machine later : Machine} {identity home : Nat}

theorem grown (inReach : InReach machine identity home) (grows : machine.Grows later) :
    InReach later identity home where
  present := Nat.lt_of_lt_of_le inReach.present grows.size_le
  bound := (grows.get?_eq inReach.present _).trans inReach.bound

theorem withBinding {name : String} {value : Value} (inReach : InReach machine identity home)
    (other : name ≠ "factorial") : InReach (machine.withBinding home name value) identity home where
  present := Nat.lt_of_lt_of_eq inReach.present (Scopes.size_set ..).symm
  bound :=
    ((Scopes.get?_set_self inReach.present name _ value).trans (if_neg other)).trans inReach.bound

end InReach

/-! ### Calls of the function -/

section Calls

variable {limit frame identity home number : Nat} {machine : Machine}

/-- Among the numbers that fit into a word, only zero is zero. -/
theorem ends_test (small : number < 2 ^ 63)
    (named : machine.scopes.get? frame "n" = some (.integer (.ofNat number))) :
    Ends limit (.expression frame test (.ok (.boolean (number == 0)))) machine machine := by
  have same : (Int64.ofNat number == 0) = (number == 0) := by
    rw [Bool.eq_iff_iff, beq_iff_eq, beq_iff_eq, ← Int64.toInt_inj, Int64.toInt_ofNat_of_lt small]
    exact Int.natCast_eq_zero
  rw [← same]
  exact ends_binary (.bound named) .integer rfl

/-- The call inside is one with the number before. -/
theorem takes_innerCall {calls : Nat} {value : Value}
    (named : machine.scopes.get? frame "n" = some (.integer (.ofNat (number + 1))))
    (itself : machine.scopes.get? frame "factorial" = some (.function (function identity home)))
    (applied : ∀ later, machine.Grows later → later.Takes limit calls
      (.call (.function (function identity home)) [.integer (.ofNat number)]) value) :
    machine.Takes limit calls (.expression frame innerCall) value := by
  have before : BinaryOperator.subtract.apply (.integer (.ofNat (number + 1))) (.integer 1) =
      .ok (.integer (.ofNat number)) := by
    show Except.ok (Value.integer (.ofNat (number + 1) - 1)) = _
    rw [Int64.ofNat_add, show Int64.ofNat 1 = 1 from rfl, Int64.add_sub_cancel]
  rw [← Nat.zero_max calls]
  exact .call (.bound itself)
    (takes_of_still (.expressions (ends_binary (.bound named) .integer before) .noExpressions))
    applied

theorem apply_multiply_factorial (number : Nat) :
    BinaryOperator.multiply.apply (.integer (.ofNat (number + 1)))
      (.integer (.ofNat number.factorial)) = .ok (.integer (.ofNat (number + 1).factorial)) := by
  rw [Nat.factorial_succ, Int64.ofNat_mul]
  rfl

/-- Called with a number, the function yields its factorial, and takes one call more than the
number says. -/
theorem takes_factorial (inReach : InReach machine identity home) (small : number < 2 ^ 63) :
    machine.Takes limit (number + 1)
      (.call (.function (function identity home)) [.integer (.ofNat number)])
      (.integer (.ofNat number.factorial)) := by
  -- The call inside starts from a later state, in which the function is still in reach.
  induction number generalizing machine with
  | zero =>
    let argument : Value := .integer (.ofNat 0)
    let inside := (machine.withFrame ((function identity home).frameOfCall [argument])).entered
    have named : inside.scopes.get? machine.scopes.size "n" = some argument :=
      Closure.get?_of_find? rfl
    exact .inCall rfl (.statement .null (.consequence (ends_test small named) rfl
      (takes_of_still (.statements (.evaluated .integer) .noStatements))))
  | succ number inductionHypothesis =>
    let argument : Value := .integer (.ofNat (number + 1))
    let inside := (machine.withFrame ((function identity home).frameOfCall [argument])).entered
    have grows : machine.Grows inside := grows_inCall machine _
    have named : inside.scopes.get? machine.scopes.size "n" = some argument :=
      Closure.get?_of_find? rfl
    have itself : inside.scopes.get? machine.scopes.size "factorial" =
        some (.function (function identity home)) :=
      (Closure.get?_of_find?_eq_none inReach.present rfl).trans inReach.bound
    have called : inside.Takes limit (number + 1) (.expression machine.scopes.size innerCall)
        (.integer (.ofNat number.factorial)) :=
      takes_innerCall named itself fun later further =>
        inductionHypothesis (inReach.grown (grows.trans further)) (Nat.lt_of_succ_lt small)
    exact .inCall rfl (.statement .null (.alternative (ends_test small named) rfl
      (.statement .null (called.operation (.bound named) (apply_multiply_factorial number)))))

end Calls

/-! ### Running the definition, and then calls -/

/-- The definition as it is written in a source. -/
def source : String :=
  "let factorial = fn(n) \x7b if (n == 0) \x7b 1 \x7d else \x7b n * factorial(n - 1) \x7d \x7d;"

/-- The call of the function on what a name leads to. -/
def callSource (name : String) : String :=
  "factorial(" ++ name ++ ")"

-- Reading goes through the source character by character.
set_option maxRecDepth 100000 in
theorem ofSource_source :
    Parsed.ofSource source = ⟨⟨[.binding "factorial" (.function ["n"] body)]⟩, []⟩ := by
  refine (HigherOrder.ofSource_ofList _).trans ?_
  with_unfolding_all rfl

theorem ofSource_callSource {name : String} (isName : IsName name) :
    Parsed.ofSource (callSource name) =
      ⟨⟨[.expression (.call (.identifier "factorial") [.identifier name])]⟩, []⟩ := by
  have legible : (Expression.call (.identifier "factorial") [.identifier name]).Legible := by
    have known : IsName "factorial" := by decide
    simp [Expression.Legible, LegibleExpressions, known, isName]
  have text : (Expression.call (.identifier "factorial") [.identifier name]).text =
      callSource name := by
    simp [Expression.text, textsOfExpressions, callSource]
  exact text ▸ Expression.ofSource_text legible

section Runs

variable {frame identity : Nat} {machine : Machine}

/-- The definition makes the function and puts it in reach. -/
theorem runSource_source (limit : Nat) (present : frame < machine.scopes.size) :
    ∃ defined, StateT.run (runSource limit frame source) machine = (.ok .null, defined) ∧
      InReach defined machine.functions frame := by
  have ends : Ends limit
      (.statements frame [.binding "factorial" (.function ["n"] body)] .null (.ok .null))
      { machine with depth := 0 }
      (HigherOrder.withDefinition { machine with depth := 0 } frame "factorial" ["n"] body) :=
    HigherOrder.ends_definition .noStatements
  refine ⟨_, HigherOrder.runSource_of_ends ofSource_source ends, ?_, ?_⟩
  · exact Nat.lt_of_lt_of_eq present (Scopes.size_set ..).symm
  · exact HigherOrder.get?_withDefinition_self present

/-- A call yields the factorial of a number if the limit is above the number, and fails for the
limit otherwise. The function stays in reach. -/
theorem runSource_callSource (limit : Nat) (inReach : InReach machine identity frame)
    {name : String} (isName : IsName name) {number : Nat} (small : number < 2 ^ 63)
    (named : machine.scopes.get? frame name = some (.integer (.ofNat number))) :
    ∃ last, StateT.run (runSource limit frame (callSource name)) machine =
        (.ok (endProgram (Signal.affording limit limit (number + 1)
          (.integer (.ofNat number.factorial)))), last) ∧
      InReach last identity frame := by
  have outside : InReach { machine with depth := 0 } identity frame :=
    ⟨inReach.present, inReach.bound⟩
  have takes : Machine.Takes limit { machine with depth := 0 } (max 0 (number + 1))
      (.expression frame (.call (.identifier "factorial") [.identifier name]))
      (.integer (.ofNat number.factorial)) :=
    .call (.bound inReach.bound) (takes_of_still (.expressions (.bound named) .noExpressions))
      fun _ grows => takes_factorial (outside.grown grows) small
  rw [Nat.zero_max] at takes
  obtain ⟨last, ends, grows, -⟩ := takes.statement .null
  exact ⟨last, HigherOrder.runSource_of_ends (ofSource_callSource isName) ends,
    outside.grown grows⟩

end Runs

/-! ### Calls one after another -/

/-- Binds a number to a name and calls the function on it. -/
def callOn (limit frame : Nat) (name : String) (number : Int64) :
    Step (Except (List Diagnostic) Value) := do
  bindName frame name (.integer number)
  runSource limit frame (callSource name)

/-- Calls the function on numbers one after another, each under the name beside it. -/
def callInTurn (limit frame : Nat) (numbers : List (String × Int64)) :
    Step (List (Except (List Diagnostic) Value)) :=
  numbers.mapM fun (name, number) => callOn limit frame name number

/-- A number that is not negative, under a name that does not hide the function. -/
structure IsArgument (name : String) (number : Int64) : Prop where
  isName : IsName name
  other : name ≠ "factorial"
  noSign : 0 ≤ number

/-- What a call on a number is to result in: in the factorial below the limit, as far as a word can
tell, and otherwise in the error of the limit. -/
structure Answers (limit : Nat) (number : Int64) (result : Except (List Diagnostic) Value) :
    Prop where
  below : number.toInt < limit → ∃ value : Int64, result = .ok (.integer value) ∧
    value.toInt ≡ number.toInt.toNat.factorial [ZMOD 2 ^ 64]
  notBelow : limit ≤ number.toInt → result = .ok (.error (Failure.callDepthExceeded limit).message)

section Sessions

variable {frame identity : Nat} {machine : Machine}

theorem toInt_ofNat_modEq (number : Nat) : (Int64.ofNat number).toInt ≡ number [ZMOD 2 ^ 64] := by
  rw [Int64.toInt_ofNat']
  exact Int.bmod_emod

theorem answers_affording (limit : Nat) {number : Nat} (small : number < 2 ^ 63) :
    Answers limit (.ofNat number) (.ok (endProgram (Signal.affording limit limit (number + 1)
      (.integer (.ofNat number.factorial))))) where
  below isBelow := by
    rw [Int64.toInt_ofNat_of_lt small] at isBelow ⊢
    rw [Signal.affording_of_le (Int.ofNat_lt.mp isBelow)]
    exact ⟨_, rfl, toInt_ofNat_modEq _⟩
  notBelow isNot := by
    rw [Int64.toInt_ofNat_of_lt small] at isNot
    rw [Signal.affording_of_lt (Nat.lt_succ_of_le (Int.ofNat_le.mp isNot))]
    rfl

/-- A number that is not negative is that of a natural number. -/
theorem exists_ofNat_eq {number : Int64} (noSign : 0 ≤ number) :
    ∃ natural : Nat, natural < 2 ^ 63 ∧ number = .ofNat natural := by
  obtain ⟨natural, same⟩ := Int.eq_ofNat_of_zero_le (Int64.le_iff_toInt_le.mp noSign)
  refine ⟨natural, ?_, ?_⟩
  · have most := number.toInt_lt
    omega
  · rw [← Int64.ofInt_toInt number, same]
    exact Int64.ofInt_eq_ofNat

/-- With the function in reach, a call answers, and leaves the function in reach. -/
theorem callOn_answers (limit : Nat) (inReach : InReach machine identity frame) {name : String}
    {number : Int64} (isArgument : IsArgument name number) :
    let run := StateT.run (callOn limit frame name number) machine
    Answers limit number run.1 ∧ InReach run.2 identity frame := by
  obtain ⟨natural, small, rfl⟩ := exists_ofNat_eq isArgument.noSign
  obtain ⟨last, ran, inReach'⟩ := runSource_callSource limit
    (inReach.withBinding isArgument.other) isArgument.isName small
    ((Scopes.get?_set_self inReach.present name name _).trans (if_pos rfl))
  have same : StateT.run (callOn limit frame name (.ofNat natural)) machine = _ := ran
  rw [same]
  exact ⟨answers_affording limit small, inReach'⟩

/-- Whatever the calls before it resulted in, each call answers. -/
theorem callInTurn_answers (limit : Nat) (inReach : InReach machine identity frame)
    {numbers : List (String × Int64)}
    (areArguments : ∀ pair ∈ numbers, IsArgument pair.1 pair.2) :
    List.Forall₂ (fun pair result => Answers limit pair.2 result) numbers
      (StateT.run (callInTurn limit frame numbers) machine).1 := by
  induction numbers generalizing machine with
  | nil => exact .nil
  | cons pair numbers inductionHypothesis =>
    obtain ⟨first, rest⟩ := List.forall_mem_cons.mp areArguments
    obtain ⟨answers, inReach'⟩ := callOn_answers limit inReach first
    rw [callInTurn, List.mapM_cons]
    exact .cons answers (inductionHypothesis inReach' rest)

/-- Once the definition has run in a frame, calls of the function on numbers of this frame answer
one after another: a number below the limit yields its factorial, modulo `2 ^ 64`, and any other the
error of the limit. So a call that reaches the limit makes no difference to the calls behind it. -/
theorem factorial_reaches_below_limit (limit : Nat) (present : frame < machine.scopes.size)
    {numbers : List (String × Int64)}
    (areArguments : ∀ pair ∈ numbers, IsArgument pair.1 pair.2) :
    let defined := StateT.run (runSource limit frame source) machine
    defined.1 = .ok .null ∧
      List.Forall₂ (fun pair result => Answers limit pair.2 result) numbers
        (StateT.run (callInTurn limit frame numbers) defined.2).1 := by
  obtain ⟨defined, ran, inReach⟩ := runSource_source limit present
  rw [ran]
  exact ⟨rfl, callInTurn_answers limit inReach areArguments⟩

end Sessions

/-- Under the limit of ten calls, with a call that reaches it between two others. -/
theorem factorial_reaches_below_limit_ten :
    let defined := StateT.run (runSource 10 rootFrame source) .initial
    rootFrame < Machine.initial.scopes.size ∧
      (∀ pair ∈ [("m", 9), ("k", 10), ("m", 9)], IsArgument pair.1 pair.2) ∧
      defined.1 = .ok .null ∧
      List.Forall₂ (fun pair result => Answers 10 pair.2 result) [("m", 9), ("k", 10), ("m", 9)]
        (StateT.run (callInTurn 10 rootFrame [("m", 9), ("k", 10), ("m", 9)]) defined.2).1 := by
  have areArguments :
      ∀ pair ∈ [("m", (9 : Int64)), ("k", 10), ("m", 9)], IsArgument pair.1 pair.2 := by
    simp only [List.forall_mem_cons, List.not_mem_nil, false_implies, implies_true, and_true]
    exact ⟨⟨by decide, by decide, by decide⟩, ⟨by decide, by decide, by decide⟩,
      by decide, by decide, by decide⟩
  exact ⟨by decide, areArguments, factorial_reaches_below_limit 10 (by decide) areArguments⟩

end Factorial

end MonkeyLang
