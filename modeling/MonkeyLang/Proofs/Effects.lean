/-
This file says what the parts of evaluation do to the state. Most of them keep
it. A call that is given the right number of arguments makes its frame first;
then it is either refused, or its body is evaluated one call deeper, and the
depth is what it was. How the call ends has no more influence on the state.
-/

import MonkeyLang.Evaluation
import MonkeyLang.Proofs.Running

namespace MonkeyLang

open Machine

/-! ### Computations that keep the state -/

/-- A computation that keeps the state, whatever its outcome. -/
def Still {α : Type} (computation : Computation α) : Prop :=
  ∀ machine : Machine, (computation.on machine).2 = machine

section Still

variable {α : Type}

theorem still_pure (result : α) : Still (pure result : Computation α) :=
  fun _ => rfl

theorem still_throw (signal : Signal) : Still (throw signal : Computation α) :=
  fun _ => rfl

theorem still_ofExcept (result : Except Failure α) : Still (Computation.ofExcept result) := by
  cases result with
  | ok result => exact still_pure result
  | error failure => exact still_throw _

theorem still_resolve (frame : Nat) (name : String) : Still (resolve frame name) := by
  intro machine
  rw [resolve, on_get_bind]
  cases machine.scopes.get? frame name with
  | some value => exact still_pure value machine
  | none =>
    cases Builtin.ofName? name with
    | some builtin => exact still_pure _ machine
    | none => exact still_throw _ machine

theorem still_requireHashKey (key : Value) : Still (requireHashKey key) := by
  rw [requireHashKey]
  cases key.hashKey? with
  | some hashKey => exact still_pure hashKey
  | none => exact still_throw _

theorem still_endCall : ∀ outcome, Still (endCall outcome)
  | .ok value => still_pure value
  | .error (.returning value) => still_pure value
  | .error (.failure _) => still_throw _

end Still

/-! ### States on the way through a call -/

/-- The frame of a call: the parameters bound to the arguments, enclosed by the frame in which the
function was made. -/
def Closure.frameOfCall (closure : Closure) (arguments : List Value) : Frame :=
  Frame.bindAll ⟨[], some closure.frame⟩ closure.parameters arguments

namespace Machine

/-- The state with one more frame. -/
def withFrame (machine : Machine) (frame : Frame) : Machine :=
  { machine with scopes := machine.scopes.add frame }

/-- The state one call deeper. -/
def entered (machine : Machine) : Machine :=
  { machine with depth := machine.depth + 1 }

/-- The state one call less deep. -/
def left (machine : Machine) : Machine :=
  { machine with depth := machine.depth - 1 }

end Machine

/-! ### Functions -/

theorem newFrame_run (frame : Frame) (machine : Machine) :
    StateT.run (newFrame frame) machine = (machine.scopes.size, machine.withFrame frame) := rfl

theorem enterCall_on (limit : Nat) (machine : Machine) :
    (enterCall limit).on machine =
      if limit ≤ machine.depth then (.error (.failure (.callDepthExceeded limit)), machine)
      else (.ok (), machine.entered) := by
  rw [enterCall, on_get_bind]
  by_cases deepest : limit ≤ machine.depth
  · rw [if_pos deepest, if_pos deepest]
    rfl
  · rw [if_neg deepest, if_neg deepest]
    rfl

section Functions

variable {limit : Nat} {runBody : Nat → Block → Computation Value} {closure : Closure}
  {arguments : List Value} {machine : Machine}

/-- A wrong number of arguments is noticed before anything happens. -/
theorem Closure.call_on_of_ne (wrong : closure.parameters.length ≠ arguments.length) :
    (closure.call limit runBody arguments).on machine =
      (.error (.failure (.argumentCount closure.parameters.length arguments.length)),
        machine) := by
  rw [call, if_pos wrong]
  rfl

/-- A call that is refused leaves its frame behind. Otherwise the body is evaluated in that frame,
one call deeper. -/
theorem Closure.call_on_of_eq (right : closure.parameters.length = arguments.length) :
    (closure.call limit runBody arguments).on machine =
      let framed := machine.withFrame (closure.frameOfCall arguments)
      if limit ≤ machine.depth then (.error (.failure (.callDepthExceeded limit)), framed)
      else
        let (outcome, last) := (runBody machine.scopes.size closure.body).on framed.entered
        (endCall outcome).on last.left := by
  rw [call, if_neg (not_not_intro right), on_lift_bind, newFrame_run]
  show (enterCall limit >>= fun _ => _).on (machine.withFrame (closure.frameOfCall arguments)) = _
  rw [on_bind, enterCall_on, show (machine.withFrame _).depth = machine.depth from rfl]
  by_cases deepest : limit ≤ machine.depth
  · rw [if_pos deepest, if_pos deepest]
  · rw [if_neg deepest, if_neg deepest]
    rfl

end Functions

theorem applyAtDepth_on (limit : Nat) (callee : Value) (arguments : List Value)
    (machine : Machine) :
    (applyAtDepth limit callee arguments).on machine =
      (applyWith limit (runBody limit (limit - machine.depth)) callee arguments).on machine :=
  on_get_bind

end MonkeyLang
