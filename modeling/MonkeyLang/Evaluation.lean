/-
This file says what expressions, statements and programs compute.

Evaluation follows the syntax tree, from left to right, and a signal ends it on
the spot. Only a call leaves the tree: it goes on in the body of a function
that was found in a scope. Therefore evaluation is written over an argument
`apply` that says what a call does. `runBody` at the end of the file ties the
knot: it recurses on the number of calls that may still become active, which
the limit on active calls bounds. That makes evaluation a total function,
whatever functions call one another.
-/

import MonkeyLang.Builtin.Call
import MonkeyLang.Machine
import MonkeyLang.Operators

namespace MonkeyLang

open Machine

/-- What a call does, given the called value and the arguments. -/
abbrev Application :=
  Value → List Value → Computation Value

/-- Looks a name up through the scopes, and then among the builtins. -/
def resolve (frame : Nat) (name : String) : Computation Value := do
  match (← get).scopes.get? frame name with
  | some value => return value
  | none =>
    match Builtin.ofName? name with
    | some builtin => return .builtin builtin
    | none => throw (.failure (.unboundName name))

/-- The hash key of a value that is used as a key. -/
def requireHashKey (key : Value) : Computation HashKey :=
  match key.hashKey? with
  | some hashKey => return hashKey
  | none => throw (.failure (.unusableKey key.type))

/-! ### Following the syntax tree -/

section Tree

variable (apply : Application)

mutual

/-- Evaluates an expression in a frame. -/
def Expression.evaluate (frame : Nat) : Expression → Computation Value
  | .identifier name => resolve frame name
  | .integer value => return .integer value
  | .string text => return .string text
  | .boolean value => return .boolean value
  | .unary operator operand => do
    let operand ← operand.evaluate frame
    .ofExcept (operator.apply operand)
  | .binary left operator right => do
    let left ← left.evaluate frame
    let right ← right.evaluate frame
    .ofExcept (operator.apply left right)
  | .conditional condition consequence none => do
    let condition ← condition.evaluate frame
    if condition.isTruthy then
      evaluateStatements frame consequence .null
    else
      return .null
  | .conditional condition consequence (some alternative) => do
    let condition ← condition.evaluate frame
    if condition.isTruthy then
      evaluateStatements frame consequence .null
    else
      evaluateStatements frame alternative .null
  | .function parameters body => newFunction parameters body frame
  | .call callee arguments => do
    let callee ← callee.evaluate frame
    let arguments ← evaluateAll frame arguments
    apply callee arguments
  | .array elements => do
    let elements ← evaluateAll frame elements
    return .array elements
  | .index collection position => do
    let collection ← collection.evaluate frame
    let position ← position.evaluate frame
    .ofExcept (collection.indexedBy position)
  | .hash pairs => evaluatePairs frame pairs []
termination_by structural expression => expression

/-- Evaluates expressions in order. -/
def evaluateAll (frame : Nat) : List Expression → Computation (List Value)
  | [] => return []
  | expression :: rest => do
    let value ← expression.evaluate frame
    let values ← evaluateAll frame rest
    return value :: values
termination_by structural expressions => expressions

/-- Evaluates the pairs of a hash in order and inserts them among the entries made so far. A key
must have a hash key before the value beside it is evaluated. -/
def evaluatePairs (frame : Nat) :
    List (Expression × Expression) → List (Entry Value) → Computation Value
  | [], entries => return .hash entries
  | (key, value) :: rest, entries => do
    let key ← key.evaluate frame
    let hashKey ← requireHashKey key
    let value ← value.evaluate frame
    evaluatePairs frame rest (Entry.insert ⟨hashKey, key, value⟩ entries)
termination_by structural pairs => pairs

/-- Evaluates a statement in a frame. A binding binds there and yields `null`. -/
def Statement.evaluate (frame : Nat) : Statement → Computation Value
  | .binding name value => do
    let value ← value.evaluate frame
    bindName frame name value
    return .null
  | .returning value => do
    let value ← value.evaluate frame
    throw (.returning value)
  | .expression value => value.evaluate frame
termination_by structural statement => statement

/-- Evaluates statements in order. The last one gives the value; without statements the value is
the given one. -/
def evaluateStatements (frame : Nat) : List Statement → Value → Computation Value
  | [], last => return last
  | statement :: rest, _ => do
    let value ← statement.evaluate frame
    evaluateStatements frame rest value
termination_by structural statements => statements

end

end Tree

/-! ### Calls -/

/-- What a call yields once the body of the function has been evaluated: a `return` ends here, a
failure goes on. -/
def endCall : Except Signal Value → Computation Value
  | .ok value => return value
  | .error (.returning value) => return value
  | .error (.failure failure) => throw (.failure failure)

/-- Calls a function. The call gets a frame of its own, enclosed by the frame in which the
function was made, with the parameters bound to the arguments. -/
def Closure.call (limit : Nat) (runBody : Nat → Block → Computation Value) (closure : Closure)
    (arguments : List Value) : Computation Value := do
  if closure.parameters.length ≠ arguments.length then
    throw (.failure (.argumentCount closure.parameters.length arguments.length))
  else
    let enclosed : Frame := ⟨[], some closure.frame⟩
    let frame ← newFrame (enclosed.bindAll closure.parameters arguments)
    enterCall limit
    let outcome : Except Signal Value ← (runBody frame closure.body).run
    leaveCall
    endCall outcome

/-- Calls a value. -/
def applyWith (limit : Nat) (runBody : Nat → Block → Computation Value) : Application
  | .function closure, arguments => closure.call limit runBody arguments
  | .builtin builtin, arguments => do
    let reply ← .ofExcept (builtin.call arguments)
    write reply.written
    return reply.value
  | callee, _ => throw (.failure (.notCallable callee.type))

/-- Evaluates the body of a function in the frame of its call, where the given number of calls,
this one included, may still become active. The number is the limit less the depth before the
call, so `enterCall` has refused the call before the number can be zero. -/
def runBody (limit : Nat) : Nat → Nat → Block → Computation Value
  | 0, _, _ => throw (.failure (.callDepthExceeded limit))
  | further + 1, frame, body =>
    evaluateStatements (applyWith limit (runBody limit further)) frame body .null

/-- Calls a value at the depth of the current state. -/
def applyAtDepth (limit : Nat) (callee : Value) (arguments : List Value) :
    Computation Value := do
  applyWith limit (runBody limit (limit - (← get).depth)) callee arguments

/-! ### Programs -/

/-- Evaluates a statement outside any call. -/
def Statement.execute (limit frame : Nat) (statement : Statement) : Computation Value :=
  statement.evaluate (applyAtDepth limit) frame

/-- The value a program results in: a `return` outside any call ends the program with its value,
and a failure ends it with an error. -/
def endProgram : Except Signal Value → Value
  | .ok value => value
  | .error (.returning value) => value
  | .error (.failure failure) => .error failure.message

/-- Evaluates a program in a frame. No call is active when it starts. -/
def Program.execute (limit frame : Nat) (program : Program) : Step Value := do
  modify fun machine => { machine with depth := 0 }
  let outcome ← (evaluateStatements (applyAtDepth limit) frame program.statements .null).run
  return endProgram outcome

end MonkeyLang
