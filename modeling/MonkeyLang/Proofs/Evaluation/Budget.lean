/-
This file is about evaluation whose end depends on nothing but how many more
calls may become active. It takes some number of calls, one inside the other:
where the limit admits as many, it yields its result, and where the limit does
not, it fails for too many active calls.

The rules put evaluation together from its parts. What takes calls one after
another takes the larger number, as each part leaves the depth as it found it;
the call of a function takes one call more than its body. All but the first part
start in a later state than the whole. That makes no difference to what names
lead to, since no call changes a frame that was there before it.
-/

import MonkeyLang.Proofs.Evaluation.Rules
import MonkeyLang.Proofs.Invariants

namespace MonkeyLang

open Machine

/-! ### Names in later states -/

namespace Scopes

variable {scopes scopes' : Scopes} {number : Nat}

theorem lt_size_add (scopes : Scopes) (frame : Frame) : scopes.size < (scopes.add frame).size :=
  Nat.lt_of_lt_of_eq (Nat.lt_succ_self _) (scopes.size_add frame).symm

/-- What a name leads to in a frame depends on this frame and older ones. -/
theorem get?_congr (same : ∀ older ≤ number, scopes'.frame? older = scopes.frame? older)
    (name : String) : scopes'.get? number name = scopes.get? number name := by
  induction number using Nat.strongRecOn with
  | ind number inductionHypothesis =>
    have own := same number (Nat.le_refl number)
    cases found : scopes.frame? number with
    | none => rw [get?, get?, own, found]
    | some frame =>
      rw [get?_of_frame? (own.trans found), get?_of_frame? found]
      congr 2
      funext outer
      split
      · next older =>
        exact inductionHypothesis outer older fun oldest below =>
          same oldest (Nat.le_trans below (Nat.le_of_lt older))
      · rfl

/-- A name that is not in a new frame leads to what it does in the frame around it. -/
theorem get?_add_size {frame : Frame} {home : Nat} (enclosed : frame.outer = some home)
    (present : home < scopes.size) (name : String) :
    (scopes.add frame).get? scopes.size name = (frame.find? name).or (scopes.get? home name) := by
  have around : (scopes.add frame).get? home name = scopes.get? home name :=
    get?_congr (fun older below => frame?_add (Nat.lt_of_le_of_lt below present) frame) name
  rw [get?_of_frame? (frame?_add_size scopes frame), enclosed, Option.bind_some, if_pos present,
    around]

/-- In a frame in which a name has just been bound, it leads to its value, and other names lead to
what they did. -/
theorem get?_set_self (present : number < scopes.size) (name wanted : String) (value : Value) :
    (scopes.set number name value).get? number wanted =
      if name = wanted then some value else scopes.get? number wanted := by
  obtain ⟨frame, found⟩ := exists_frame? present
  have bound : (scopes.set number name value).frame? number = some (frame.bind name value) := by
    rw [frame?_set_self, found, Option.map_some]
  have around : (fun outer => if outer < number
        then (scopes.set number name value).get? outer wanted else none) =
      fun outer => if outer < number then scopes.get? outer wanted else none := by
    funext outer
    split
    · next older =>
      exact get?_congr (fun oldest below =>
        frame?_set_of_ne (Nat.ne_of_lt (Nat.lt_of_le_of_lt below older)) name value) wanted
    · rfl
  rw [get?_of_frame? bound, get?_of_frame? found, around, Frame.find?_bind]
  split <;> rfl

end Scopes

/-- Where frames are kept, names lead to what they did. -/
theorem Machine.Grows.get?_eq {before after : Machine} (grows : before.Grows after) {frame : Nat}
    (present : frame < before.scopes.size) (name : String) :
    after.scopes.get? frame name = before.scopes.get? frame name :=
  Scopes.get?_congr (fun older below => grows.kept older (Nat.lt_of_le_of_lt below present)) name

/-- A call only adds its frame. -/
theorem Machine.grows_inCall (machine : Machine) (frame : Frame) :
    machine.Grows (machine.withFrame frame).entered where
  size_le := Nat.le_of_lt (machine.scopes.lt_size_add frame)
  kept _ old := Scopes.frame?_add old frame

namespace Closure

variable {closure : Closure} {machine : Machine} {arguments : List Value} {name : String}

/-- In the frame of a call, a name that is bound there leads to its value. -/
theorem get?_of_find? {value : Value}
    (found : (closure.frameOfCall arguments).find? name = some value) :
    (machine.withFrame (closure.frameOfCall arguments)).entered.scopes.get? machine.scopes.size
      name = some value := by
  refine (Scopes.get?_of_frame? (Scopes.frame?_add_size _ _) name).trans ?_
  rw [found, Option.some_or]

/-- Every other name leads to what it does where the function was made. -/
theorem get?_of_find?_eq_none (present : closure.frame < machine.scopes.size)
    (missing : (closure.frameOfCall arguments).find? name = none) :
    (machine.withFrame (closure.frameOfCall arguments)).entered.scopes.get? machine.scopes.size
      name = machine.scopes.get? closure.frame name := by
  refine (Scopes.get?_add_size (closure.outer_frameOfCall arguments) present name).trans ?_
  rw [missing, Option.none_or]

end Closure

/-! ### Taking calls -/

/-- How something ends that takes a number of calls, one inside the other, where no more than some
number of calls may still become active. -/
def Signal.affording {α : Type} (limit further calls : Nat) (result : α) : Except Signal α :=
  if calls ≤ further then .ok result else .error (.failure (.callDepthExceeded limit))

namespace Signal

variable {α : Type} {limit further calls calls' : Nat} {result : α}

theorem affording_of_le (enough : calls ≤ further) :
    affording limit further calls result = .ok result :=
  if_pos enough

theorem affording_of_lt (tooFew : further < calls) :
    affording limit further calls result = .error (.failure (.callDepthExceeded limit)) :=
  if_neg (Nat.not_le_of_lt tooFew)

theorem affording_max (enough : calls ≤ further) :
    affording limit further (max calls calls') result =
      affording limit further calls' result := by
  simp only [affording, Nat.max_le, enough, true_and]

theorem afterCall_affording (value : Value) :
    afterCall (affording limit further calls value) =
      affording limit (further + 1) (calls + 1) value := by
  simp only [affording, Nat.add_le_add_iff_right]
  split <;> rfl

end Signal

namespace Machine

/-- From a state on, a task takes a number of calls, one inside the other, and yields a result. No
frame that is there changes, and the depth is left as it was. -/
def Takes {α : Type} (limit : Nat) (machine : Machine) (calls : Nat)
    (task : Except Signal α → Task) (result : α) : Prop :=
  ∃ last, Ends limit (task (Signal.affording limit (limit - machine.depth) calls result)) machine
    last ∧ machine.Grows last ∧ last.depth = machine.depth

variable {limit calls calls' frame : Nat} {machine : Machine}

/-- What keeps the state takes no calls. -/
theorem takes_of_still {α : Type} {task : Except Signal α → Task} {result : α}
    (ends : Ends limit (task (.ok result)) machine machine) : machine.Takes limit 0 task result :=
  ⟨machine, by rwa [Signal.affording_of_le (Nat.zero_le _)], .refl machine, rfl⟩

/-- An operator that applies to what its operands yield takes the state where they do. -/
theorem ends_binary {left right : Expression} {operator : BinaryOperator}
    {value value' result : Value} {middle last : Machine}
    (first : Ends limit (.expression frame left (.ok value)) machine middle)
    (second : Ends limit (.expression frame right (.ok value')) middle last)
    (applies : operator.apply value value' = .ok result) :
    Ends limit (.expression frame (.binary left operator right) (.ok result)) machine last := by
  have ends : Ends limit (.expression frame (.binary left operator right)
      (Signal.ofResult (operator.apply value value'))) machine last := .binary first second
  rwa [applies] at ends

theorem takes_function (parameters : List String) (body : Block) :
    machine.Takes limit 0 (.expression frame (.function parameters body))
      (.function (machine.nextFunction parameters body frame)) := by
  refine ⟨machine.withFunction, ?_, ⟨Nat.le_refl _, fun _ _ => rfl⟩, rfl⟩
  rw [Signal.affording_of_le (Nat.zero_le _)]
  exact .function

/-- What ends as another task does takes the same calls. -/
theorem Takes.within {α β : Type} {task : Except Signal α → Task} {task' : Except Signal β → Task}
    {result : α} {result' : β} (takes : machine.Takes limit calls task result)
    (yields : ∀ {last}, Ends limit (task (.ok result)) machine last →
      Ends limit (task' (.ok result')) machine last)
    (stops : ∀ {last signal}, Ends limit (task (.error signal)) machine last →
      Ends limit (task' (.error signal)) machine last) :
    machine.Takes limit calls task' result' := by
  obtain ⟨last, ends, kept⟩ := takes
  refine ⟨last, ?_, kept⟩
  rcases Nat.lt_or_ge (limit - machine.depth) calls with tooFew | enough
  · rw [Signal.affording_of_lt tooFew] at ends ⊢
    exact stops ends
  · rw [Signal.affording_of_le enough] at ends ⊢
    exact yields ends

/-- An operation whose left operand keeps the state takes the calls of its right operand. -/
theorem Takes.operation {left right : Expression} {operator : BinaryOperator}
    {value value' result : Value}
    (still : Ends limit (.expression frame left (.ok value)) machine machine)
    (takes : machine.Takes limit calls (.expression frame right) value')
    (applies : operator.apply value value' = .ok result) :
    machine.Takes limit calls (.expression frame (.binary left operator right)) result :=
  takes.within (fun ends => ends_binary still ends applies) (.rightStops still)

/-! ### Arguments -/

section Arguments

variable {first : Expression} {rest : List Expression} {value : Value} {values : List Value}

/-- An expression in front that keeps the state makes no difference. -/
theorem Takes.behind (still : Ends limit (.expression frame first (.ok value)) machine machine)
    (takes : machine.Takes limit calls (.all frame rest) values) :
    machine.Takes limit calls (.all frame (first :: rest)) (value :: values) :=
  takes.within (.expressions still) (.restStops still)

theorem Takes.alone (takes : machine.Takes limit calls (.expression frame first) value) :
    machine.Takes limit calls (.all frame [first]) [value] :=
  takes.within (fun ends => .expressions ends .noExpressions) .firstStops

end Arguments

/-! ### Calls -/

section Calls

variable {callee : Value} {arguments : List Value} {value : Value}

/-- A call changes no frame that was there, and leaves the depth as it was. -/
theorem grows_of_call {outcome : Except Signal Value} {last : Machine}
    (ends : Ends limit (.call callee arguments outcome) machine last) :
    machine.Grows last ∧ last.depth = machine.depth := by
  have grows := growing_applyAtDepth limit callee arguments machine
  have continues := continues_applyAtDepth limit machine callee arguments
  have same : (applyAtDepth limit callee arguments).on machine = (outcome, last) := ends.computed
  rw [same] at grows continues
  exact ⟨grows, continues.depth⟩

/-- A call expression takes the calls of its arguments, and then those of the call. -/
theorem Takes.call {callee : Expression} {called : Value} {arguments : List Expression}
    {values : List Value}
    (still : Ends limit (.expression frame callee (.ok called)) machine machine)
    (takes : machine.Takes limit calls (.all frame arguments) values)
    (applied : ∀ middle, machine.Grows middle → middle.Takes limit calls' (.call called values)
      value) :
    machine.Takes limit (max calls calls') (.expression frame (.call callee arguments)) value := by
  obtain ⟨middle, ends, grows, depth⟩ := takes
  rcases Nat.lt_or_ge (limit - machine.depth) calls with tooFew | enough
  · refine ⟨middle, ?_, grows, depth⟩
    rw [Signal.affording_of_lt tooFew] at ends
    rw [Signal.affording_of_lt (Nat.lt_of_lt_of_le tooFew (Nat.le_max_left ..))]
    exact .argumentsStop still ends
  · obtain ⟨last, called, further, same⟩ := applied middle grows
    refine ⟨last, ?_, grows.trans further, same.trans depth⟩
    rw [Signal.affording_of_le enough] at ends
    rw [depth] at called
    rw [Signal.affording_max enough]
    exact .call still ends called

/-- The call of a function takes one call more than its body. What the body does to the frame of
the call makes no difference. -/
theorem takes_call {closure : Closure} {last : Machine}
    (right : closure.parameters.length = arguments.length)
    (body : Ends limit (.statements machine.scopes.size closure.body .null
        (Signal.affording limit (limit - (machine.depth + 1)) calls value))
      (machine.withFrame (closure.frameOfCall arguments)).entered last) :
    machine.Takes limit (calls + 1) (.call (.function closure) arguments) value := by
  have ends : ∃ last', Ends limit (.call (.function closure) arguments
      (Signal.affording limit (limit - machine.depth) (calls + 1) value)) machine last' := by
    rcases Nat.lt_or_ge machine.depth limit with more | deepest
    · have called := Ends.body right more body
      rw [Signal.afterCall_affording, Nat.sub_add_eq, Nat.sub_add_cancel (Nat.sub_pos_of_lt more)]
        at called
      exact ⟨_, called⟩
    · rw [Nat.sub_eq_zero_of_le deepest, Signal.affording_of_lt (Nat.succ_pos calls)]
      exact ⟨_, .refused right deepest⟩
  obtain ⟨last', called⟩ := ends
  exact ⟨last', called, grows_of_call called⟩

theorem Takes.inCall {closure : Closure} (right : closure.parameters.length = arguments.length)
    (takes : (machine.withFrame (closure.frameOfCall arguments)).entered.Takes limit calls
      (.statements machine.scopes.size closure.body .null) value) :
    machine.Takes limit (calls + 1) (.call (.function closure) arguments) value := by
  obtain ⟨last, ends, -⟩ := takes
  exact takes_call right ends

/-- A builtin that writes nothing keeps the state. -/
theorem ends_builtin {builtin : Builtin} (answers : builtin.call arguments = .ok (.silent value)) :
    Ends limit (.call (.builtin builtin) arguments (.ok value)) machine machine := by
  have called : Ends limit (.call (.builtin builtin) arguments (.ok value)) machine
      (machine.withText "") := .answer answers
  rwa [show machine.withText "" = machine by rw [withText, String.append_empty]] at called

end Calls

/-! ### Statements -/

section Statements

variable {condition : Expression} {chosen other : Block} {test value : Value}

theorem Takes.consequence
    (still : Ends limit (.expression frame condition (.ok test)) machine machine)
    (truthy : test.isTruthy = true)
    (takes : machine.Takes limit calls (.statements frame chosen .null) value) :
    machine.Takes limit calls
      (.expression frame (.conditional condition chosen (some other))) value :=
  takes.within (.consequence still truthy) (.consequence still truthy)

theorem Takes.alternative
    (still : Ends limit (.expression frame condition (.ok test)) machine machine)
    (falsy : test.isTruthy = false)
    (takes : machine.Takes limit calls (.statements frame chosen .null) value) :
    machine.Takes limit calls
      (.expression frame (.conditional condition other (some chosen))) value :=
  takes.within (.alternative still falsy) (.alternative still falsy)

/-- A block that is one expression takes the calls of the expression. -/
theorem Takes.statement {expression : Expression} (last : Value)
    (takes : machine.Takes limit calls (.expression frame expression) value) :
    machine.Takes limit calls (.statements frame [.expression expression] last) value :=
  takes.within (fun ends => .statements (.evaluated ends) .noStatements)
    fun ends => .statementStops (.evaluated ends)

end Statements

end Machine

end MonkeyLang
