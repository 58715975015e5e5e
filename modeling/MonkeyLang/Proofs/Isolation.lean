/-
This file proves that evaluation leaves the frames of others alone. Evaluating
something in a frame binds names in that frame only, and only the names that it
binds by `let` outside any function; a call changes no frame that was there
before it.

What a computation may change is a relation between the states before and after
it. The relation puts together along sequences, so the theorem about evaluation
follows the syntax tree; the one about calls goes by induction on the number of
calls that may still become active.
-/

import MonkeyLang.Proofs.Effects

namespace MonkeyLang

open Machine

/-! ### Scopes -/

namespace Scopes

theorem frame?_add_of_ne {scopes : Scopes} {number : Nat} (other : number ≠ scopes.size)
    (frame : Frame) : (scopes.add frame).frame? number = scopes.frame? number := by
  rw [frame?, add, Array.getElem?_push]
  exact if_neg other

theorem frame?_add {scopes : Scopes} {number : Nat} (old : number < scopes.size) (frame : Frame) :
    (scopes.add frame).frame? number = scopes.frame? number :=
  frame?_add_of_ne (Nat.ne_of_lt old) frame

theorem frame?_add_size (scopes : Scopes) (frame : Frame) :
    (scopes.add frame).frame? scopes.size = some frame := by
  rw [frame?, add, Array.getElem?_push]
  exact if_pos rfl

theorem size_add (scopes : Scopes) (frame : Frame) : (scopes.add frame).size = scopes.size + 1 :=
  Array.size_push frame

theorem size_set (scopes : Scopes) (frame : Nat) (name : String) (value : Value) :
    (scopes.set frame name value).size = scopes.size :=
  Array.size_modify

theorem frame?_set_of_ne {scopes : Scopes} {frame number : Nat} (other : number ≠ frame)
    (name : String) (value : Value) :
    (scopes.set frame name value).frame? number = scopes.frame? number := by
  rw [frame?, set, Array.getElem?_modify, if_neg (Ne.symm other)]
  rfl

theorem frame?_set_self (scopes : Scopes) (frame : Nat) (name : String) (value : Value) :
    (scopes.set frame name value).frame? frame =
      (scopes.frame? frame).map fun own => own.bind name value := by
  rw [frame?, set, Array.getElem?_modify, if_pos rfl]
  rfl

/-- A name is looked up in the frame, and then in the frame around it. -/
theorem get?_of_frame? {scopes : Scopes} {number : Nat} {frame : Frame}
    (found : scopes.frame? number = some frame) (name : String) :
    scopes.get? number name = (frame.find? name).or (frame.outer.bind fun outer =>
      if outer < number then scopes.get? outer name else none) := by
  rw [get?, found]
  dsimp only
  cases frame.find? name with
  | some value => rfl
  | none => cases frame.outer <;> rfl

end Scopes

/-! ### What may change -/

namespace Machine

/-- No frame that was there before has changed. There may be new ones. -/
structure Grows (before after : Machine) : Prop where
  size_le : before.scopes.size ≤ after.scopes.size
  kept : ∀ number < before.scopes.size, after.scopes.frame? number = before.scopes.frame? number

/-- Of the frames that were there before, all but the given one are what they were, and that one
differs at most on the given names. There may be new ones. -/
structure Changes (frame : Nat) (names : List String) (before after : Machine) : Prop where
  size_le : before.scopes.size ≤ after.scopes.size
  others : ∀ number < before.scopes.size, number ≠ frame →
    after.scopes.frame? number = before.scopes.frame? number
  own : ∀ old, before.scopes.frame? frame = some old →
    ∃ new, after.scopes.frame? frame = some new ∧ new.outer = old.outer ∧
      ∀ name, name ∉ names → new.find? name = old.find? name

theorem Grows.refl (machine : Machine) : machine.Grows machine :=
  ⟨Nat.le_refl _, fun _ _ => rfl⟩

theorem Grows.trans {first second third : Machine} (left : first.Grows second)
    (right : second.Grows third) : first.Grows third :=
  ⟨Nat.le_trans left.size_le right.size_le, fun number old =>
    (right.kept number (Nat.lt_of_lt_of_le old left.size_le)).trans (left.kept number old)⟩

namespace Changes

variable {frame : Nat} {names others : List String} {first second third : Machine}

theorem of_grows (grows : first.Grows second) : Changes frame names first second := by
  refine ⟨grows.size_le, fun number old _ => grows.kept number old, fun old found => ?_⟩
  have inside : frame < first.scopes.size := (Array.getElem?_eq_some_iff.mp found).1
  exact ⟨old, (grows.kept frame inside).trans found, rfl, fun _ _ => rfl⟩

theorem refl (machine : Machine) : Changes frame names machine machine :=
  of_grows (.refl machine)

theorem trans (left : Changes frame names first second) (right : Changes frame names second third) :
    Changes frame names first third := by
  refine ⟨Nat.le_trans left.size_le right.size_le, fun number old other => ?_, fun old found => ?_⟩
  · rw [right.others number (Nat.lt_of_lt_of_le old left.size_le) other,
      left.others number old other]
  · obtain ⟨middle, foundMiddle, outerMiddle, sameMiddle⟩ := left.own old found
    obtain ⟨new, foundNew, outerNew, sameNew⟩ := right.own middle foundMiddle
    refine ⟨new, foundNew, outerNew.trans outerMiddle, fun name free => ?_⟩
    rw [sameNew name free, sameMiddle name free]

/-- Fewer names are a stronger promise. -/
theorem mono (changes : Changes frame names first second) (more : names ⊆ others) :
    Changes frame others first second := by
  refine ⟨changes.size_le, changes.others, fun old found => ?_⟩
  obtain ⟨new, foundNew, outer, same⟩ := changes.own old found
  exact ⟨new, foundNew, outer, fun name free => same name fun bound => free (more bound)⟩

end Changes

end Machine

/-! ### Computations -/

/-- A computation that changes at most the given names of a frame, whatever its outcome. -/
def Changing {α : Type} (frame : Nat) (names : List String) (computation : Computation α) : Prop :=
  ∀ machine : Machine, Changes frame names machine (computation.on machine).2

/-- A computation that changes no frame, whatever its outcome. -/
def Growing {α : Type} (computation : Computation α) : Prop :=
  ∀ machine : Machine, machine.Grows (computation.on machine).2

section Sequences

variable {α β : Type} {frame : Nat} {names others : List String} {computation : Computation α}
  {next : α → Computation β}

theorem Still.growing (still : Still computation) : Growing computation := by
  intro machine
  rw [still machine]
  exact .refl machine

theorem Growing.changing (growing : Growing computation) : Changing frame names computation :=
  fun machine => .of_grows (growing machine)

theorem Still.changing (still : Still computation) : Changing frame names computation :=
  still.growing.changing

theorem Changing.mono (changing : Changing frame names computation) (more : names ⊆ others) :
    Changing frame others computation :=
  fun machine => (changing machine).mono more

/-- A sequence changes what its parts change. -/
theorem Changing.bind (first : Changing frame names computation)
    (second : ∀ result, Changing frame others (next result)) :
    Changing frame (names ++ others) (computation >>= next) := by
  intro machine
  have changesFirst := (first machine).mono (List.subset_append_left names others)
  rw [on_bind]
  rcases found : computation.on machine with ⟨_ | result, middle⟩
  · rwa [found] at changesFirst
  · rw [found] at changesFirst
    exact changesFirst.trans ((second result middle).mono (List.subset_append_right names others))

/-- What comes last may change nothing more. -/
theorem Changing.bindGrowing (first : Changing frame names computation)
    (second : ∀ result, Growing (next result)) : Changing frame names (computation >>= next) := by
  have nothing : ∀ result, Changing frame [] (next result) := fun result => (second result).changing
  have changing := first.bind nothing
  rwa [List.append_nil] at changing

theorem Changing.bindStill (first : Changing frame names computation)
    (second : ∀ result, Still (next result)) : Changing frame names (computation >>= next) :=
  first.bindGrowing fun result => (second result).growing

/-- What comes first may change nothing. -/
theorem Growing.bindChanging (first : Growing computation)
    (second : ∀ result, Changing frame names (next result)) :
    Changing frame names (computation >>= next) := by
  have nothing : Changing frame [] computation := first.changing
  exact nothing.bind second

theorem Growing.bind (first : Growing computation) (second : ∀ result, Growing (next result)) :
    Growing (computation >>= next) := by
  intro machine
  have grows := first machine
  rw [on_bind]
  rcases found : computation.on machine with ⟨_ | result, middle⟩
  · rwa [found] at grows
  · rw [found] at grows
    exact grows.trans (second result middle)

end Sequences

/-! ### Single steps -/

theorem growing_newFunction (parameters : List String) (body : Block) (frame : Nat) :
    Growing (newFunction parameters body frame : Computation Value) :=
  fun machine => ⟨Nat.le_refl machine.scopes.size, fun _ _ => rfl⟩

theorem growing_write (text : String) : Growing (write text : Computation Unit) :=
  fun machine => ⟨Nat.le_refl machine.scopes.size, fun _ _ => rfl⟩

theorem changing_bindName (frame : Nat) (name : String) (value : Value) :
    Changing frame [name] (bindName frame name value : Computation Unit) := by
  intro machine
  refine ⟨Nat.le_of_eq (machine.scopes.size_set frame name value).symm, fun number _ other => ?_,
    fun old found => ⟨old.bind name value, ?_, rfl, fun wanted free => ?_⟩⟩
  · exact machine.scopes.frame?_set_of_ne other name value
  · exact (machine.scopes.frame?_set_self frame name value).trans (by rw [found, Option.map_some])
  · rw [Frame.find?_bind, if_neg]
    rintro rfl
    exact free List.mem_cons_self

/-! ### The syntax tree -/

mutual

/-- The names that an expression binds by `let` outside any function. -/
def Expression.lets : Expression → List String
  | .identifier _ => []
  | .integer _ => []
  | .string _ => []
  | .boolean _ => []
  | .unary _ operand => operand.lets
  | .binary left _ right => left.lets ++ right.lets
  | .conditional condition consequence none => condition.lets ++ letsOfStatements consequence
  | .conditional condition consequence (some alternative) =>
    condition.lets ++ (letsOfStatements consequence ++ letsOfStatements alternative)
  | .function _ _ => []
  | .call callee arguments => callee.lets ++ letsOfAll arguments
  | .array elements => letsOfAll elements
  | .index collection position => collection.lets ++ position.lets
  | .hash pairs => letsOfPairs pairs
termination_by structural expression => expression

/-- The names that expressions bind by `let` outside any function. -/
def letsOfAll : List Expression → List String
  | [] => []
  | expression :: rest => expression.lets ++ letsOfAll rest
termination_by structural expressions => expressions

/-- The names that the pairs of a hash bind by `let` outside any function. -/
def letsOfPairs : List (Expression × Expression) → List String
  | [] => []
  | (key, value) :: rest => key.lets ++ (value.lets ++ letsOfPairs rest)
termination_by structural pairs => pairs

/-- The names that a statement binds by `let` outside any function. -/
def Statement.lets : Statement → List String
  | .binding name value => value.lets ++ [name]
  | .returning value => value.lets
  | .expression value => value.lets
termination_by structural statement => statement

/-- The names that statements bind by `let` outside any function. -/
def letsOfStatements : List Statement → List String
  | [] => []
  | statement :: rest => statement.lets ++ letsOfStatements rest
termination_by structural statements => statements

end

section Tree

variable {apply : Application} (isolated : ∀ callee arguments, Growing (apply callee arguments))
  (frame : Nat)

include isolated

set_option linter.unusedSectionVars false in
mutual

/-- Evaluation binds in its own frame only, and only the names of its own `let`s, if calls change
no frame. -/
theorem Expression.changing : ∀ expression : Expression,
    Changing frame expression.lets (expression.evaluate apply frame)
  | .identifier name => (still_resolve frame name).changing
  | .integer value => (still_pure _).changing
  | .string text => (still_pure _).changing
  | .boolean value => (still_pure _).changing
  | .unary _ operand => operand.changing.bindStill fun _ => still_ofExcept _
  | .binary left _ right =>
    left.changing.bind fun _ => right.changing.bindStill fun _ => still_ofExcept _
  | .conditional condition consequence none => by
    refine condition.changing.bind fun value => ?_
    cases value.isTruthy with
    | true => exact changing_evaluateStatements consequence .null
    | false => exact (still_pure _).changing
  | .conditional condition consequence (some alternative) => by
    refine condition.changing.bind fun value => ?_
    cases value.isTruthy with
    | true =>
      exact (changing_evaluateStatements consequence .null).mono (List.subset_append_left _ _)
    | false =>
      exact (changing_evaluateStatements alternative .null).mono (List.subset_append_right _ _)
  | .function parameters body => (growing_newFunction parameters body frame).changing
  | .call callee arguments =>
    callee.changing.bind fun callee => (changing_evaluateAll arguments).bindGrowing fun arguments =>
      isolated callee arguments
  | .array elements => (changing_evaluateAll elements).bindStill fun _ => still_pure _
  | .index collection position =>
    collection.changing.bind fun _ => position.changing.bindStill fun _ => still_ofExcept _
  | .hash pairs => changing_evaluatePairs pairs []
termination_by structural expression => expression

theorem changing_evaluateAll : ∀ expressions : List Expression,
    Changing frame (letsOfAll expressions) (evaluateAll apply frame expressions)
  | [] => (still_pure []).changing
  | expression :: rest =>
    expression.changing.bind fun _ => (changing_evaluateAll rest).bindStill fun _ =>
      still_pure _
termination_by structural expressions => expressions

theorem changing_evaluatePairs : ∀ (pairs : List (Expression × Expression))
    (entries : List (Entry Value)),
    Changing frame (letsOfPairs pairs) (evaluatePairs apply frame pairs entries)
  | [], entries => (still_pure _).changing
  | (key, value) :: rest, entries => by
    refine key.changing.bind fun key => ?_
    refine (still_requireHashKey key).growing.bindChanging fun hashKey => ?_
    exact value.changing.bind fun value => changing_evaluatePairs rest _
termination_by structural pairs => pairs

theorem Statement.changing : ∀ statement : Statement,
    Changing frame statement.lets (statement.evaluate apply frame)
  | .binding name value =>
    value.changing.bind fun value => (changing_bindName frame name value).bindStill fun _ =>
      still_pure _
  | .returning value => value.changing.bindStill fun _ => still_throw _
  | .expression value => value.changing
termination_by structural statement => statement

theorem changing_evaluateStatements : ∀ (statements : List Statement) (last : Value),
    Changing frame (letsOfStatements statements) (evaluateStatements apply frame statements last)
  | [], last => (still_pure last).changing
  | statement :: rest, _ =>
    statement.changing.bind fun value => changing_evaluateStatements rest value
termination_by structural statements => statements

end

end Tree

/-! ### Calls -/

/-- What changes only the frame of a call, from the making of that frame on, changes no frame that
was there before. -/
theorem Machine.Changes.grows {machine last : Machine} {frame : Frame} {names : List String}
    (changes : Changes machine.scopes.size names (machine.withFrame frame) last) :
    machine.Grows last := by
  have size : (machine.withFrame frame).scopes.size = machine.scopes.size + 1 :=
    machine.scopes.size_add frame
  refine ⟨by have := changes.size_le; omega, fun number old => ?_⟩
  rw [changes.others number (by omega) (Nat.ne_of_lt old)]
  exact Scopes.frame?_add old frame

section Calls

variable {limit : Nat} {runBody : Nat → Block → Computation Value}
  (own : ∀ frame body, Changing frame (letsOfStatements body) (runBody frame body))

include own

theorem Closure.growing_call (closure : Closure) (arguments : List Value) :
    Growing (closure.call limit runBody arguments) := by
  intro machine
  by_cases right : closure.parameters.length = arguments.length
  · have framed : Changes machine.scopes.size (letsOfStatements closure.body)
        (machine.withFrame (closure.frameOfCall arguments))
        ((closure.call limit runBody arguments).on machine).2 := by
      rw [Closure.call_on_of_eq right]
      by_cases deepest : limit ≤ machine.depth
      · rw [if_pos deepest]
        exact .refl _
      · rw [if_neg deepest]
        have inside := own machine.scopes.size closure.body
          (machine.withFrame (closure.frameOfCall arguments)).entered
        generalize (runBody _ _).on _ = result at inside ⊢
        rw [still_endCall]
        -- The depth is no part of any frame.
        exact ⟨inside.size_le, inside.others, inside.own⟩
    exact framed.grows
  · rw [Closure.call_on_of_ne right]
    exact .refl machine

theorem growing_applyWith : ∀ callee arguments,
    Growing (applyWith limit runBody callee arguments)
  | .function closure, arguments => closure.growing_call own arguments
  | .builtin _, _ =>
    (still_ofExcept _).growing.bind fun reply => (growing_write reply.written).bind fun _ =>
      (still_pure reply.value).growing
  | .integer _, _ | .string _, _ | .boolean _, _ | .null, _ | .array _, _ | .hash _, _
  | .error _, _ => (still_throw _).growing

end Calls

/-- The body of a function changes only the frame of its call. -/
theorem changing_runBody (limit : Nat) : ∀ further frame body,
    Changing frame (letsOfStatements body) (runBody limit further frame body)
  | 0, _, _ => (still_throw _).changing
  | further + 1, frame, body =>
    changing_evaluateStatements (growing_applyWith (changing_runBody limit further)) frame body _

theorem growing_applyAtDepth (limit : Nat) (callee : Value) (arguments : List Value) :
    Growing (applyAtDepth limit callee arguments) := by
  intro machine
  rw [applyAtDepth_on]
  exact growing_applyWith (changing_runBody limit _) callee arguments machine

end MonkeyLang
