/-
This file holds the state in which programs run, and the few steps that change
it: making a frame, binding a name, making a function, writing text, entering
and leaving a call.

A computation yields a value, or it is cut short by a signal: by a `return` on
its way to the enclosing call or program, or by a failure. The state is kept
either way.
-/

import MonkeyLang.Failure
import MonkeyLang.Scopes

namespace MonkeyLang

/-- The state in which programs run. -/
structure Machine where
  scopes : Scopes
  /-- How many functions have been made so far, which is the identity of the next one. -/
  functions : Nat
  /-- How many calls of functions are active. -/
  depth : Nat
  /-- What has been written so far. -/
  output : String
deriving Inhabited

/-- What cuts a computation short. -/
inductive Signal
  /-- A `return` on its way out, with its value. -/
  | returning (value : Value)
  | failure (failure : Failure)

/-- A step that changes the state and cannot be cut short. -/
abbrev Step :=
  StateM Machine

/-- A computation that changes the state and may be cut short. -/
abbrev Computation :=
  ExceptT Signal Step

/-! ### Results of operators and builtins -/

/-- Continues with a result, or fails. -/
def Computation.ofExcept {α : Type} : Except Failure α → Computation α
  | .ok result => return result
  | .error failure => throw (.failure failure)

namespace Machine

/-- The state before any program: one frame, enclosed by no other, that binds nothing. -/
def initial : Machine :=
  { scopes := Scopes.empty.add ⟨[], none⟩
    functions := 0
    depth := 0
    output := "" }

/-- The number of the outermost frame of the initial state. -/
def rootFrame : Nat :=
  0

/-! ### Frames and functions -/

/-- Adds a frame and yields its number. -/
def newFrame (frame : Frame) : Step Nat :=
  modifyGet fun machine =>
    (machine.scopes.size, { machine with scopes := machine.scopes.add frame })

/-- Binds a name in a frame. -/
def bindName (frame : Nat) (name : String) (value : Value) : Step Unit :=
  modify fun machine => { machine with scopes := machine.scopes.set frame name value }

/-- Makes a function of parameters, a body and the frame it is made in. -/
def newFunction (parameters : List String) (body : Block) (frame : Nat) : Step Value :=
  modifyGet fun machine =>
    (.function ⟨machine.functions, parameters, body, frame⟩,
      { machine with functions := machine.functions + 1 })

/-- Writes text. -/
def write (text : String) : Step Unit :=
  modify fun machine => { machine with output := machine.output ++ text }

/-! ### Calls -/

/-- Enters a call, unless the limit of active calls is reached. -/
def enterCall (limit : Nat) : Computation Unit := do
  if limit ≤ (← get).depth then
    throw (.failure (.callDepthExceeded limit))
  else
    modify fun machine => { machine with depth := machine.depth + 1 }

/-- Leaves a call. -/
def leaveCall : Step Unit :=
  modify fun machine => { machine with depth := machine.depth - 1 }

end Machine

end MonkeyLang
