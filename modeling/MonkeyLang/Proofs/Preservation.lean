/-
This file proves that evaluation keeps every invariant, at each moment that it
passes. The theorem follows the syntax tree; the one about calls goes by
induction on the number of calls that may still become active. So whatever holds
before a session holds throughout it.
-/

import MonkeyLang.Proofs.History
import MonkeyLang.Proofs.Invariants

namespace MonkeyLang

open Machine

namespace Invariant

variable {invariant : Invariant}

/-! ### Computations that keep an invariant -/

variable (invariant) in
/-- An outcome yields only values of which the invariant holds. What a result must satisfy depends
on the computation. -/
def EndsWell {α : Type} (results : Scopes → α → Prop) (scopes : Scopes) : Except Signal α → Prop
  | .ok result => results scopes result
  | .error (.returning value) => invariant.Good scopes value
  | .error (.failure _) => True

variable (invariant) in
/-- A computation has kept the invariant through the given moments and at its end. -/
structure Kept {α : Type} (results : Scopes → α → Prop) (first : Scopes) (moments : List Moment)
    (run : Except Signal α × Machine) : Prop where
  grown : first.Grown run.2.scopes
  sound : invariant.Sound run.2.scopes
  moments : ∀ moment ∈ moments, invariant.Sound moment.machine.scopes
  outcome : invariant.EndsWell results run.2.scopes run.1

variable (invariant) in
/-- A computation that keeps the invariant in whatever the given scopes have grown to. -/
def Keeping {α : Type} (scopes : Scopes) (results : Scopes → α → Prop)
    (computation : Computation α) (history : History) : Prop :=
  ∀ machine : Machine, scopes.Grown machine.scopes → invariant.Sound machine.scopes →
    invariant.Kept results machine.scopes (history machine) (computation.on machine)

namespace Keeping

variable {α β : Type} {scopes : Scopes} {results : Scopes → α → Prop}
  {furtherResults : Scopes → β → Prop} {computation : Computation α} {next : α → Computation β}
  {history : History} {further : α → History}

theorem bind (first : invariant.Keeping scopes results computation history)
    (second : ∀ later result, scopes.Grown later → results later result →
      invariant.Keeping later furtherResults (next result) (further result)) :
    invariant.Keeping scopes furtherResults (computation >>= next)
      (.andThen computation history further) := by
  intro machine grown sound
  have kept := first machine grown sound
  rw [on_bind, History.andThen]
  generalize computation.on machine = run at kept ⊢
  obtain ⟨signal | result, middle⟩ := run
  · refine ⟨kept.grown, kept.sound, ?_, ?_⟩
    · rw [List.append_nil]
      exact kept.moments
    · -- A signal is an outcome of the whole as it is one of the part.
      have outcome := kept.outcome
      cases signal <;> exact outcome
  · have keptThen := second middle.scopes result (grown.trans kept.grown) kept.outcome middle
      (.refl _) kept.sound
    refine ⟨kept.grown.trans keptThen.grown, keptThen.sound, fun moment member => ?_,
      keptThen.outcome⟩
    exact (List.mem_append.mp member).elim (kept.moments moment) (keptThen.moments moment)

/-- What comes last may keep the state, and then adds nothing to the history. -/
theorem bindStill (first : invariant.Keeping scopes results computation history)
    (second : ∀ later result, scopes.Grown later → results later result →
      invariant.Keeping later furtherResults (next result) .still) :
    invariant.Keeping scopes furtherResults (computation >>= next) history := by
  have all := first.bind second
  have same : History.andThen computation history (fun _ => .still) = history := by
    funext machine
    rw [History.andThen]
    rcases computation.on machine with ⟨_ | _, _⟩ <;> exact List.append_nil _
  rwa [same] at all

theorem ofStill (still : Still computation)
    (well : ∀ machine : Machine, scopes.Grown machine.scopes → invariant.Sound machine.scopes →
      invariant.EndsWell results machine.scopes (computation.on machine).1) :
    invariant.Keeping scopes results computation .still := by
  intro machine grown sound
  have outcome := well machine grown sound
  have kept := still machine
  generalize computation.on machine = run at outcome kept ⊢
  subst kept
  exact ⟨.refl _, sound, fun _ none => absurd none List.not_mem_nil, outcome⟩

theorem pure {result : α} (well : ∀ later, scopes.Grown later → results later result) :
    invariant.Keeping scopes results (pure result : Computation α) .still :=
  ofStill (still_pure result) fun machine grown _ => well machine.scopes grown

theorem fail (failure : Failure) :
    invariant.Keeping scopes results (throw (.failure failure) : Computation α) .still :=
  ofStill (still_throw _) fun _ _ _ => trivial

theorem ofExcept {result : Except Failure α}
    (well : ∀ later value, scopes.Grown later → result = .ok value → results later value) :
    invariant.Keeping scopes results (.ofExcept result) .still := by
  cases result with
  | ok value => exact pure fun later grown => well later value grown rfl
  | error failure => exact fail failure

/-- What operators make of values. -/
theorem ofIngredients {given : List Value} {result : Except Failure Value}
    (made : ∀ {value : Value}, result = .ok value → value.MadeOf given)
    (all : invariant.GoodAll scopes given) :
    invariant.Keeping scopes invariant.Good (.ofExcept result) .still :=
  ofExcept fun _ _ grown yields => good_madeOf (made yields) (all.grown grown)

theorem resolve {frame : Nat} (covered : invariant.covers frame) (name : String) :
    invariant.Keeping scopes invariant.Good (resolve frame name) .still := by
  refine ofStill (still_resolve frame name) fun machine _ sound => ?_
  rw [MonkeyLang.resolve, on_get_bind]
  cases found : machine.scopes.get? frame name with
  | some value => exact sound.get? covered found
  | none =>
    cases Builtin.ofName? name with
    | some builtin => exact good_plain rfl
    | none => exact trivial

theorem requireHashKey (key : Value) :
    invariant.Keeping scopes (fun _ hashKey => key.hashKey? = some hashKey) (requireHashKey key)
      .still := by
  rw [MonkeyLang.requireHashKey]
  cases key.hashKey? with
  | some hashKey => exact pure fun _ _ => rfl
  | none => exact fail _

/-- A step that changes no scopes keeps what is said of them. -/
theorem ofStep {step : Step α} (active : List Nat)
    (same : ∀ machine : Machine, (StateT.run step machine).2.scopes = machine.scopes)
    (well : ∀ machine : Machine, scopes.Grown machine.scopes →
      results machine.scopes (StateT.run step machine).1) :
    invariant.Keeping scopes results (liftM step) (.ofStep step active) := by
  intro machine grown sound
  have outcome := well machine grown
  rw [on_lift, History.ofStep]
  rw [← same machine] at sound outcome
  refine ⟨?_, sound, fun moment member => ?_, outcome⟩
  · rw [same machine]
    exact .refl _
  · obtain rfl := List.mem_singleton.mp member
    exact sound

theorem newFunction (frame : Nat) (active : List Nat) (parameters : List String) {body : Block}
    (room : invariant.room scopes frame (nestingOfStatements body + 1)) :
    invariant.Keeping scopes invariant.Good (newFunction parameters body frame)
      (.ofStep (newFunction parameters body frame) active) :=
  ofStep active (fun _ => rfl) fun _ grown =>
    .ofParts (invariant.made (invariant.room_grown grown room)) rfl

theorem write (active : List Nat) (text : String) :
    invariant.Keeping scopes (fun _ _ => True) (write text) (.ofStep (write text) active) :=
  ofStep active (fun _ => rfl) fun _ _ => trivial

theorem bindName (frame : Nat) (active : List Nat) (name : String) {value : Value}
    (good : invariant.Good scopes value) :
    invariant.Keeping scopes (fun _ _ => True) (bindName frame name value)
      (.ofStep (bindName frame name value) active) := by
  intro machine grown sound
  have bound := sound.set frame name (good.grown grown)
  refine ⟨Scopes.grown_set _ _ _ _, bound, fun moment member => ?_, trivial⟩
  obtain rfl := List.mem_singleton.mp member
  exact bound

end Keeping

/-! ### The syntax tree -/

section Room

variable {scopes : Scopes} {frame nesting nesting' : Nat}

/-- Code that fits into a frame fits there in parts. -/
theorem room_left (room : invariant.room scopes frame (max nesting nesting')) :
    invariant.room scopes frame nesting :=
  invariant.less room (Nat.le_max_left nesting nesting')

theorem room_right (room : invariant.room scopes frame (max nesting nesting')) :
    invariant.room scopes frame nesting' :=
  invariant.less room (Nat.le_max_right nesting nesting')

end Room

section Tree

variable {apply : Application} {calls : Value → List Value → History} (frame : Nat)
  (outer : List Nat)
  (keeping : ∀ {scopes : Scopes} (callee : Value) (arguments : List Value),
    invariant.Good scopes callee → invariant.GoodAll scopes arguments →
      invariant.Keeping scopes invariant.Good (apply callee arguments) (calls callee arguments))

include keeping

set_option linter.unusedSectionVars false in
mutual

/-- Evaluation keeps an invariant in a frame that has room for the code, if calls keep it. -/
theorem keeping_evaluate : ∀ (expression : Expression) {scopes : Scopes},
    invariant.room scopes frame expression.nesting →
    invariant.Keeping scopes invariant.Good (expression.evaluate apply frame)
      (expression.history apply calls frame outer)
  | .identifier name, _, room => .resolve (invariant.covered room) name
  | .integer _, _, _ => .pure fun _ _ => good_plain rfl
  | .string _, _, _ => .pure fun _ _ => good_plain rfl
  | .boolean _, _, _ => .pure fun _ _ => good_plain rfl
  | .unary operator operand, _, room =>
    (keeping_evaluate operand room).bindStill fun _ _ _ good =>
      .ofIngredients UnaryOperator.madeOf_apply (List.forall_mem_singleton.mpr good)
  | .binary left operator right, _, room => by
    refine (keeping_evaluate left (room_left room)).bind fun _ _ grown good => ?_
    have inside := room_right (invariant.room_grown grown room)
    exact (keeping_evaluate right inside).bindStill fun _ _ grown good' =>
      .ofIngredients BinaryOperator.madeOf_apply (goodAll_pair (good.grown grown) good')
  | .conditional condition consequence none, _, room => by
    refine (keeping_evaluate condition (room_left room)).bind fun later value grown _ => ?_
    have inside := invariant.room_grown grown room
    cases value.isTruthy with
    | true =>
      exact keeping_evaluateStatements consequence (good_plain rfl) (room_right inside)
    | false => exact .pure fun _ _ => good_plain rfl
  | .conditional condition consequence (some alternative), _, room => by
    refine (keeping_evaluate condition (room_left room)).bind fun later value grown _ => ?_
    have inside := room_right (invariant.room_grown grown room)
    cases value.isTruthy with
    | true =>
      exact keeping_evaluateStatements consequence (good_plain rfl) (room_left inside)
    | false =>
      exact keeping_evaluateStatements alternative (good_plain rfl) (room_right inside)
  | .function parameters _, _, room => .newFunction frame (frame :: outer) parameters room
  | .call callee arguments, _, room => by
    refine (keeping_evaluate callee (room_left room)).bind fun later callee grown good => ?_
    have inside := room_right (invariant.room_grown grown room)
    exact (keeping_evaluateAll arguments inside).bind fun _ arguments grown goodArguments =>
      keeping callee arguments (good.grown grown) goodArguments
  | .array elements, _, room =>
    (keeping_evaluateAll elements room).bindStill fun _ _ _ good =>
      .pure fun _ grown => good_array (good.grown grown)
  | .index collection position, _, room => by
    refine (keeping_evaluate collection (room_left room)).bind fun _ _ grown good => ?_
    have inside := room_right (invariant.room_grown grown room)
    exact (keeping_evaluate position inside).bindStill fun _ _ grown good' =>
      .ofIngredients Value.madeOf_indexedBy (goodAll_pair (good.grown grown) good')
  | .hash pairs, _, room => keeping_evaluatePairs pairs (.ofParts invariant.emptyHash rfl) room
termination_by structural expression => expression

theorem keeping_evaluateAll : ∀ (expressions : List Expression) {scopes : Scopes},
    invariant.room scopes frame (nestingOfAll expressions) →
    invariant.Keeping scopes invariant.GoodAll (evaluateAll apply frame expressions)
      (historyOfAll apply calls frame outer expressions)
  | [], _, _ => .pure fun _ _ _ none => absurd none List.not_mem_nil
  | expression :: rest, _, room => by
    refine (keeping_evaluate expression (room_left room)).bind fun _ _ grown good => ?_
    have inside := room_right (invariant.room_grown grown room)
    exact (keeping_evaluateAll rest inside).bindStill fun _ _ grown goodRest =>
      .pure fun _ grown' => List.forall_mem_cons.mpr
        ⟨good.grown (grown.trans grown'), goodRest.grown grown'⟩
termination_by structural expressions => expressions

theorem keeping_evaluatePairs : ∀ (pairs : List (Expression × Expression))
    {entries : List (Entry Value)} {scopes : Scopes}, invariant.Good scopes (.hash entries) →
    invariant.room scopes frame (nestingOfPairs pairs) →
    invariant.Keeping scopes invariant.Good (evaluatePairs apply frame pairs entries)
      (historyOfPairs apply calls frame outer pairs)
  | [], _, _, good, _ => .pure fun _ grown => good.grown grown
  | (key, value) :: rest, _, _, good, room => by
    refine (keeping_evaluate key (room_left room)).bind fun _ key grown goodKey => ?_
    -- Each step may make frames, so what is known of earlier values is carried over to the scopes
    -- that there are now.
    have inside := room_right (invariant.room_grown grown room)
    replace good := good.grown grown
    refine (Keeping.requireHashKey key).bind fun second hashKey grown usable => ?_
    replace inside := invariant.room_grown grown inside
    replace goodKey := goodKey.grown grown
    replace good := good.grown grown
    refine (keeping_evaluate value (room_left inside)).bind fun third value grown goodValue => ?_
    exact keeping_evaluatePairs rest
      (good_insert (good.grown grown) usable (goodKey.grown grown) goodValue)
      (room_right (invariant.room_grown grown inside))
termination_by structural pairs => pairs

theorem keeping_evaluateStatement : ∀ (statement : Statement) {scopes : Scopes},
    invariant.room scopes frame statement.nesting →
    invariant.Keeping scopes invariant.Good (statement.evaluate apply frame)
      (statement.history apply calls frame outer)
  | .binding name value, _, room =>
    (keeping_evaluate value room).bind fun _ _ _ good =>
      (Keeping.bindName frame (frame :: outer) name good).bindStill fun _ _ _ _ =>
        .pure fun _ _ => good_plain rfl
  | .returning value, _, room =>
    (keeping_evaluate value room).bindStill fun _ _ _ good =>
      .ofStill (still_throw _) fun _ grown _ => good.grown grown
  | .expression value, _, room => keeping_evaluate value room
termination_by structural statement => statement

theorem keeping_evaluateStatements : ∀ (statements : List Statement) {last : Value}
    {scopes : Scopes}, invariant.Good scopes last →
    invariant.room scopes frame (nestingOfStatements statements) →
    invariant.Keeping scopes invariant.Good (evaluateStatements apply frame statements last)
      (historyOfStatements apply calls frame outer statements last)
  | [], _, _, good, _ => .pure fun _ grown => good.grown grown
  | statement :: rest, _, _, _, room =>
    (keeping_evaluateStatement statement (room_left room)).bind
      fun _ _ grown good => keeping_evaluateStatements rest good
        (room_right (invariant.room_grown grown room))
termination_by structural statements => statements

end

end Tree

/-! ### Calls -/

section Calls

variable {limit : Nat} {runBody : Nat → Block → Computation Value}
  {bodies : Nat → List Nat → Block → History}
  (keeping : ∀ {scopes : Scopes} (frame : Nat) (outer : List Nat) (body : Block),
    invariant.room scopes frame (nestingOfStatements body) →
      invariant.Keeping scopes invariant.Good (runBody frame body) (bodies frame outer body))

/-- A value with which a body ends is that of the call. -/
theorem endsWell_endCall {scopes : Scopes} {outcome : Except Signal Value} {machine : Machine}
    (well : invariant.EndsWell invariant.Good scopes outcome) :
    invariant.EndsWell invariant.Good scopes ((endCall outcome).on machine).1 := by
  obtain (_ | _) | _ := outcome <;> exact well

/-- The frame of a call is as sound as the function and its arguments. -/
theorem Sound.withFrame {machine : Machine} {closure : Closure} {arguments : List Value}
    (sound : invariant.Sound machine.scopes)
    (good : invariant.Good machine.scopes (.function closure))
    (all : invariant.GoodAll machine.scopes arguments) :
    invariant.Sound (machine.withFrame (closure.frameOfCall arguments)).scopes ∧
      invariant.room (machine.withFrame (closure.frameOfCall arguments)).scopes
        machine.scopes.size (nestingOfStatements closure.body) := by
  have room : invariant.room _ machine.scopes.size (nestingOfStatements closure.body) :=
    invariant.called good.self (closure.outer_frameOfCall arguments)
  refine ⟨sound.add (invariant.less room (Nat.zero_le _)) (fun binding member => ?_)
    fun outer isOuter => ?_, room⟩
  · rcases Frame.mem_bindings_bindAll member with isArgument | none
    · exact all _ isArgument
    · exact absurd none List.not_mem_nil
  · obtain rfl := Option.some.inj ((closure.outer_frameOfCall arguments).symm.trans isOuter)
    exact invariant.captured good.self

include keeping

theorem keeping_call {scopes : Scopes} (active : List Nat) {closure : Closure}
    {arguments : List Value} (good : invariant.Good scopes (.function closure))
    (all : invariant.GoodAll scopes arguments) :
    invariant.Keeping scopes invariant.Good (closure.call limit runBody arguments)
      (closure.history limit runBody bodies active arguments) := by
  intro machine grown sound
  rw [Closure.history]
  by_cases right : closure.parameters.length = arguments.length
  · rw [if_neg (not_not_intro right), Closure.call_on_of_eq right]
    obtain ⟨framed, room⟩ := sound.withFrame (good.grown grown) (all.grown grown)
    have grownFrame := machine.scopes.grown_add (closure.frameOfCall arguments)
    by_cases deepest : limit ≤ machine.depth
    · simp only [if_pos deepest]
      refine ⟨grownFrame, framed, fun moment member => ?_, trivial⟩
      rcases List.mem_cons.mp member with rfl | member
      · exact framed
      · obtain rfl := List.mem_singleton.mp member
        exact framed
    · simp only [if_neg deepest]
      have inside := keeping machine.scopes.size active closure.body room
        (machine.withFrame (closure.frameOfCall arguments)).entered (.refl _) framed
      refine ⟨?_, ?_, fun moment member => ?_, ?_⟩
      · rw [still_endCall]
        exact grownFrame.trans inside.grown
      · rw [still_endCall]
        exact inside.sound
      · rcases List.mem_cons.mp member with rfl | member
        · exact framed
        rcases List.mem_cons.mp member with rfl | member
        · exact framed
        rcases List.mem_append.mp member with during | last
        · exact inside.moments moment during
        · obtain rfl := List.mem_singleton.mp last
          exact inside.sound
      · rw [still_endCall]
        exact endsWell_endCall inside.outcome
  · rw [if_pos right, Closure.call_on_of_ne right]
    exact ⟨.refl _, sound, fun _ none => absurd none List.not_mem_nil, trivial⟩

theorem keeping_applyWith (active : List Nat) {scopes : Scopes} : ∀ callee arguments,
    invariant.Good scopes callee → invariant.GoodAll scopes arguments →
      invariant.Keeping scopes invariant.Good (applyWith limit runBody callee arguments)
        (historyWith limit runBody bodies active callee arguments)
  | .function closure, arguments, good, all => keeping_call keeping active good all
  | .builtin builtin, arguments, _, all => by
    have answers : invariant.Keeping scopes (fun later reply => invariant.Good later reply.value)
        (.ofExcept (builtin.call arguments)) .still :=
      .ofExcept fun _ _ grown yields => good_madeOf (Builtin.madeOf_call yields) (all.grown grown)
    exact answers.bind fun _ _ _ good => (Keeping.write active _).bindStill fun _ _ grown _ =>
      .pure fun _ grown' => good.grown (grown.trans grown')
  | .integer _, _, _, _ | .string _, _, _, _ | .boolean _, _, _, _ | .null, _, _, _
  | .array _, _, _, _ | .hash _, _, _, _ | .error _, _, _, _ => .fail _

end Calls

theorem keeping_runBody (limit : Nat) : ∀ (further : Nat) {scopes : Scopes} (frame : Nat)
    (outer : List Nat) (body : Block),
    invariant.room scopes frame (nestingOfStatements body) →
      invariant.Keeping scopes invariant.Good (runBody limit further frame body)
        (bodyHistory limit further frame outer body)
  | 0, _, _, _, _, _ => .fail _
  | further + 1, _, frame, outer, body, room =>
    keeping_evaluateStatements frame outer
      (fun callee arguments => keeping_applyWith (keeping_runBody limit further) (frame :: outer)
        callee arguments) body (good_plain rfl) room

theorem keeping_applyAtDepth (limit : Nat) (active : List Nat) {scopes : Scopes} (callee : Value)
    (arguments : List Value) (good : invariant.Good scopes callee)
    (all : invariant.GoodAll scopes arguments) :
    invariant.Keeping scopes invariant.Good (applyAtDepth limit callee arguments)
      (historyAtDepth limit active callee arguments) := by
  intro machine
  rw [applyAtDepth_on]
  exact keeping_applyWith (keeping_runBody limit _) active callee arguments good all machine

/-! ### Programs -/

/-- A program keeps an invariant if the frame that it runs in has room for it. -/
theorem kept_program (limit : Nat) {frame : Nat} {program : Program} {machine : Machine}
    (sound : invariant.Sound machine.scopes)
    (room : invariant.room machine.scopes frame program.nesting) :
    machine.scopes.Grown (StateT.run (program.execute limit frame) machine).2.scopes ∧
      invariant.Sound (StateT.run (program.execute limit frame) machine).2.scopes ∧
      ∀ moment ∈ program.history limit frame machine, invariant.Sound moment.machine.scopes := by
  have null : invariant.Good machine.scopes .null := good_plain rfl
  have kept := keeping_evaluateStatements frame [] (keeping_applyAtDepth limit [frame])
    program.statements null room { machine with depth := 0 } (.refl _) sound
  exact ⟨kept.grown, kept.sound, List.forall_mem_cons.mpr ⟨sound, kept.moments⟩⟩

/-- What holds before programs that are executed one after another holds behind them. -/
theorem sound_executeAll (limit frame : Nat) : ∀ (programs : List Program) (machine : Machine),
    invariant.Sound machine.scopes →
    (∀ program ∈ programs, invariant.room machine.scopes frame program.nesting) →
    machine.scopes.Grown (executeAll limit frame programs machine).scopes ∧
      invariant.Sound (executeAll limit frame programs machine).scopes
  | [], machine, sound, _ => ⟨.refl _, sound⟩
  | program :: rest, machine, sound, room => by
    obtain ⟨grown, soundBehind, -⟩ := kept_program limit sound (room program List.mem_cons_self)
    obtain ⟨grownRest, soundRest⟩ :=
      sound_executeAll limit frame rest _ soundBehind fun other member =>
        invariant.room_grown grown (room other (List.mem_cons_of_mem _ member))
    exact ⟨grown.trans grownRest, soundRest⟩

/-- What holds before a session holds throughout it. -/
theorem sound_sessionHistory (limit frame : Nat) : ∀ (programs : List Program) (machine : Machine),
    invariant.Sound machine.scopes →
    (∀ program ∈ programs, invariant.room machine.scopes frame program.nesting) →
    ∀ moment ∈ sessionHistory limit frame programs machine, invariant.Sound moment.machine.scopes
  | [], _, _, _ => fun _ none => absurd none List.not_mem_nil
  | program :: rest, machine, sound, room => by
    obtain ⟨grown, soundBehind, during⟩ :=
      kept_program limit sound (room program List.mem_cons_self)
    refine List.forall_mem_append.mpr ⟨during, ?_⟩
    exact sound_sessionHistory limit frame rest _ soundBehind fun other member =>
      invariant.room_grown grown (room other (List.mem_cons_of_mem _ member))

end Invariant

end MonkeyLang
