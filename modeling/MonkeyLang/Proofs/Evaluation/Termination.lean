/-
This file proves that evaluation ends, from every state: by the rules there is a
way in which each program, statement, expression, block and call ends, there is
no other, and it is the one that evaluation computes.

The syntax tree alone does not show it, since a call goes on in a body that was
found in a scope. What falls at a call is the number of calls that may still
become active. So the induction is on that number and inside it on the tree, and
every part that ends has to leave the depth as it found it, or the parts behind
it would start with fewer calls left.
-/

import MonkeyLang.Proofs.Evaluation.Rules

namespace MonkeyLang

open Machine

/-- The task ends in some way, at the given depth. -/
def Finishes (limit depth : Nat) {α : Type} (task : Except Signal α → Task)
    (machine : Machine) : Prop :=
  ∃ outcome last, Ends limit (task outcome) machine last ∧ last.depth = depth

/-- A task finishes if its first part does, if it stops when the first part is cut short, and if it
finishes when there is a result to go on with. -/
theorem Finishes.andThen {limit depth : Nat} {α β : Type} {first : Except Signal α → Task}
    {whole : Except Signal β → Task} {machine start : Machine}
    (finishes : Finishes limit depth first start)
    (stops : ∀ {signal last}, Ends limit (first (.error signal)) start last →
      Ends limit (whole (.error signal)) machine last)
    (goesOn : ∀ {result middle}, Ends limit (first (.ok result)) start middle →
      middle.depth = depth → Finishes limit depth whole machine) :
    Finishes limit depth whole machine := by
  obtain ⟨signal | result, last, ended, restored⟩ := finishes
  · exact ⟨.error signal, last, stops ended, restored⟩
  · exact goesOn ended restored

/-! ### The syntax tree -/

section Tree

variable {limit depth frame : Nat}
  (calls : ∀ (callee : Value) (arguments : List Value) {machine : Machine},
    machine.depth = depth → Finishes limit depth (.call callee arguments) machine)

include calls

set_option linter.unusedSectionVars false in
mutual

/-- An expression finishes at a depth at which all calls do. -/
theorem Expression.finishes : ∀ (expression : Expression) {machine : Machine},
    machine.depth = depth → Finishes limit depth (.expression frame expression) machine
  | .identifier name, machine, start => by
    cases found : machine.scopes.get? frame name with
    | some value => exact ⟨_, _, .bound found, start⟩
    | none =>
      cases named : Builtin.ofName? name with
      | some builtin => exact ⟨_, _, .builtin found named, start⟩
      | none => exact ⟨_, _, .unbound found named, start⟩
  | .integer _, _, start => ⟨_, _, .integer, start⟩
  | .string _, _, start => ⟨_, _, .string, start⟩
  | .boolean _, _, start => ⟨_, _, .boolean, start⟩
  | .unary _ operand, _, start =>
    (operand.finishes start).andThen .unaryStops fun operand restored =>
      ⟨_, _, .unary operand, restored⟩
  | .binary left _ right, _, start =>
    (left.finishes start).andThen .leftStops fun left middle =>
      (right.finishes middle).andThen (.rightStops left) fun right restored =>
        ⟨_, _, .binary left right, restored⟩
  | .conditional condition consequence none, _, start => by
    refine (condition.finishes start).andThen .conditionStops fun {value _} condition middle => ?_
    cases truth : value.isTruthy with
    | false => exact ⟨_, _, .noAlternative condition truth, middle⟩
    | true =>
      obtain ⟨_, _, chosen, restored⟩ := finishes_statements consequence .null middle
      exact ⟨_, _, .consequence condition truth chosen, restored⟩
  | .conditional condition consequence (some alternative), _, start => by
    refine (condition.finishes start).andThen .conditionStops fun {value _} condition middle => ?_
    cases truth : value.isTruthy with
    | false =>
      obtain ⟨_, _, chosen, restored⟩ := finishes_statements alternative .null middle
      exact ⟨_, _, .alternative condition truth chosen, restored⟩
    | true =>
      obtain ⟨_, _, chosen, restored⟩ := finishes_statements consequence .null middle
      exact ⟨_, _, .consequence condition truth chosen, restored⟩
  | .function _ _, _, start => ⟨_, _, .function, start⟩
  | .call callee arguments, _, start =>
    (callee.finishes start).andThen .calleeStops fun callee middle =>
      (finishes_all arguments middle).andThen (.argumentsStop callee) fun arguments behind =>
        let ⟨_, _, called, restored⟩ := calls _ _ behind
        ⟨_, _, .call callee arguments called, restored⟩
  | .array elements, _, start =>
    (finishes_all elements start).andThen .elementsStop fun elements restored =>
      ⟨_, _, .array elements, restored⟩
  | .index collection position, _, start =>
    (collection.finishes start).andThen .collectionStops fun collection middle =>
      (position.finishes middle).andThen (.positionStops collection) fun position restored =>
        ⟨_, _, .index collection position, restored⟩
  | .hash pairs, _, start =>
    let ⟨_, _, pairs, restored⟩ := finishes_pairs pairs [] start
    ⟨_, _, .hash pairs, restored⟩
termination_by structural expression => expression

theorem finishes_all : ∀ (expressions : List Expression) {machine : Machine},
    machine.depth = depth → Finishes limit depth (.all frame expressions) machine
  | [], _, start => ⟨_, _, .noExpressions, start⟩
  | expression :: rest, _, start =>
    (expression.finishes start).andThen .firstStops fun first middle =>
      (finishes_all rest middle).andThen (.restStops first) fun rest restored =>
        ⟨_, _, .expressions first rest, restored⟩
termination_by structural expressions => expressions

theorem finishes_pairs : ∀ (pairs : List (Expression × Expression))
    (entries : List (Entry Value)) {machine : Machine},
    machine.depth = depth → Finishes limit depth (.pairs frame pairs entries) machine
  | [], _, _, start => ⟨_, _, .noPairs, start⟩
  | (key, value) :: rest, entries, _, start => by
    refine (key.finishes start).andThen .keyStops fun {keyed _} key middle => ?_
    cases usable : keyed.hashKey? with
    | none => exact ⟨_, _, .unusableKey key usable, middle⟩
    | some hashKey =>
      refine (value.finishes middle).andThen (.valueStops key usable) fun value behind => ?_
      obtain ⟨_, _, rest, restored⟩ := finishes_pairs rest _ behind
      exact ⟨_, _, .pair key usable value rest, restored⟩
termination_by structural pairs => pairs

theorem Statement.finishes : ∀ (statement : Statement) {machine : Machine},
    machine.depth = depth → Finishes limit depth (.statement frame statement) machine
  | .binding _ value, _, start =>
    (value.finishes start).andThen .bindingStops fun value restored =>
      ⟨_, _, .binding value, restored⟩
  | .returning value, _, start =>
    (value.finishes start).andThen .returningStops fun value restored =>
      ⟨_, _, .returning value, restored⟩
  | .expression value, _, start =>
    let ⟨_, _, value, restored⟩ := value.finishes start
    ⟨_, _, .evaluated value, restored⟩
termination_by structural statement => statement

theorem finishes_statements : ∀ (statements : List Statement) (last : Value) {machine : Machine},
    machine.depth = depth → Finishes limit depth (.statements frame statements last) machine
  | [], _, _, start => ⟨_, _, .noStatements, start⟩
  | statement :: rest, _, _, start =>
    (statement.finishes start).andThen .statementStops fun {value _} first middle =>
      let ⟨_, _, rest, restored⟩ := finishes_statements rest value middle
      ⟨_, _, .statements first rest, restored⟩
termination_by structural statements => statements

end

end Tree

/-! ### Calls -/

theorem finishes_builtin {limit depth : Nat} (builtin : Builtin) (arguments : List Value)
    {machine : Machine} (start : machine.depth = depth) :
    Finishes limit depth (.call (.builtin builtin) arguments) machine := by
  cases called : builtin.call arguments with
  | ok reply => exact ⟨_, _, .answer called, start⟩
  | error failure => exact ⟨_, _, .noAnswer called, start⟩

/-- A call finishes if bodies finish one call deeper, as long as the limit admits one. -/
theorem finishes_call_of_bodies {limit depth : Nat}
    (bodies : depth < limit → ∀ (frame : Nat) (body : Block) {machine : Machine},
      machine.depth = depth + 1 → Finishes limit (depth + 1) (.statements frame body .null) machine)
    (callee : Value) (arguments : List Value) {machine : Machine} (start : machine.depth = depth) :
    Finishes limit depth (.call callee arguments) machine := by
  cases callee with
  | function closure =>
    by_cases right : closure.parameters.length = arguments.length
    · rcases Nat.lt_or_ge machine.depth limit with more | deepest
      · have further : (machine.withFrame (closure.frameOfCall arguments)).entered.depth =
          depth + 1 := congrArg (· + 1) start
        obtain ⟨_, last, body, restored⟩ := bodies (start ▸ more) _ closure.body further
        exact ⟨_, _, .body right more body, congrArg (· - 1) restored⟩
      · exact ⟨_, _, .refused right deepest, start⟩
    · exact ⟨_, _, .argumentCount right, start⟩
  | builtin builtin => exact finishes_builtin builtin arguments start
  | _ => exact ⟨_, _, .notCallable nofun nofun, start⟩

/-- Every call finishes, by induction on how many more calls may become active. -/
theorem finishes_call {limit depth : Nat} : ∀ (callee : Value) (arguments : List Value)
    {machine : Machine}, machine.depth = depth →
    Finishes limit depth (.call callee arguments) machine := by
  induction further : limit - depth generalizing depth with
  | zero =>
    refine finishes_call_of_bodies fun more => ?_
    exact absurd (Nat.le_of_sub_eq_zero further) (Nat.not_le_of_lt more)
  | succ further inductionHypothesis =>
    refine finishes_call_of_bodies fun _ _ body _ start => ?_
    exact finishes_statements (inductionHypothesis (by omega)) body .null start

/-! ### Evaluation -/

/-- The run is the one way in which the task ends. -/
def EndsOnlyAs (limit : Nat) {α : Type} (task : α → Task) (machine : Machine)
    (run : α × Machine) : Prop :=
  Ends limit (task run.1) machine run.2 ∧
    ∀ outcome last, Ends limit (task outcome) machine last → (outcome, last) = run

/-- A task that finishes ends only in the way that is computed. -/
theorem EndsOnlyAs.of_finishes {limit depth : Nat} {α : Type} {task : Except Signal α → Task}
    {machine : Machine} {run : Except Signal α × Machine}
    (finishes : Finishes limit depth task machine)
    (computed : ∀ outcome last, Ends limit (task outcome) machine last → run = (outcome, last)) :
    EndsOnlyAs limit task machine run := by
  obtain ⟨outcome, last, ended, -⟩ := finishes
  refine ⟨?_, fun outcome last ended => (computed outcome last ended).symm⟩
  rw [computed outcome last ended]
  exact ended

section Evaluation

variable (limit : Nat) (machine : Machine) (frame : Nat)

theorem endsOnlyAs_statements (statements : List Statement) (last : Value) :
    EndsOnlyAs limit (.statements frame statements last) machine
      ((evaluateStatements (applyAtDepth limit) frame statements last).on machine) :=
  .of_finishes (finishes_statements finishes_call statements last rfl) fun _ _ => Ends.computed

theorem endsOnlyAs_program (program : Program) :
    EndsOnlyAs limit (.program frame program) machine
      (StateT.run (program.execute limit frame) machine) := by
  obtain ⟨ended, -⟩ :=
    endsOnlyAs_statements limit { machine with depth := 0 } frame program.statements .null
  exact ⟨.program ended, fun value last ended => ended.computed.symm⟩

/-- Programs, statements, expressions, blocks and calls all end, whatever the state, the frame and
the limit: what evaluation computes is a way in which the rules let them end, and the only one. -/
theorem evaluation_ends :
    (∀ program : Program, EndsOnlyAs limit (.program frame program) machine
      (StateT.run (program.execute limit frame) machine)) ∧
    (∀ statement : Statement, EndsOnlyAs limit (.statement frame statement) machine
      ((statement.evaluate (applyAtDepth limit) frame).on machine)) ∧
    (∀ expression : Expression, EndsOnlyAs limit (.expression frame expression) machine
      ((expression.evaluate (applyAtDepth limit) frame).on machine)) ∧
    (∀ block : Block, EndsOnlyAs limit (.statements frame block .null) machine
      ((evaluateStatements (applyAtDepth limit) frame block .null).on machine)) ∧
    ∀ (callee : Value) (arguments : List Value), EndsOnlyAs limit (.call callee arguments) machine
      ((applyAtDepth limit callee arguments).on machine) := by
  refine ⟨endsOnlyAs_program limit machine frame, fun statement => ?_, fun expression => ?_,
    fun block => endsOnlyAs_statements limit machine frame block .null,
    fun callee arguments => ?_⟩
  · exact .of_finishes (statement.finishes finishes_call rfl) fun _ _ => Ends.computed
  · exact .of_finishes (expression.finishes finishes_call rfl) fun _ _ => Ends.computed
  · exact .of_finishes (finishes_call callee arguments rfl) fun _ _ => Ends.computed

end Evaluation

end MonkeyLang
