/-
This file states what evaluation does as rules, one for each way in which an
expression, a statement, a call or a program can end. A signal ends everything
around it up to the call or the program it is in. The rule for a call goes on in
the body of the function, which is no part of the calling expression; nothing
but the limit on active calls stops it from calling itself. So a program whose
evaluation went on for ever would end by no rules at all.

What the rules say is what evaluation computes: this half holds of every
derivation. That there always is one is proved elsewhere.
-/

import MonkeyLang.Proofs.Evaluation.Depth

namespace MonkeyLang

open Machine

/-! ### The rules -/

/-- Something to be evaluated, together with how that ends. -/
inductive Task
  | expression (frame : Nat) (expression : Expression) (outcome : Except Signal Value)
  /-- Expressions in order. -/
  | all (frame : Nat) (expressions : List Expression) (outcome : Except Signal (List Value))
  /-- The pairs of a hash, behind those that make up the given entries. -/
  | pairs (frame : Nat) (pairs : List (Expression × Expression)) (entries : List (Entry Value))
      (outcome : Except Signal Value)
  | statement (frame : Nat) (statement : Statement) (outcome : Except Signal Value)
  /-- Statements in order, behind one that yielded the given value. -/
  | statements (frame : Nat) (statements : List Statement) (last : Value)
      (outcome : Except Signal Value)
  /-- The call of a value. -/
  | call (callee : Value) (arguments : List Value) (outcome : Except Signal Value)
  | program (frame : Nat) (program : Program) (value : Value)

/-- What an operator makes of its operands ends the evaluation, as a value or as a failure. -/
def Signal.ofResult (result : Except Failure Value) : Except Signal Value :=
  result.mapError .failure

/-- A task takes one state to another. -/
inductive Ends (limit : Nat) : Task → Machine → Machine → Prop
  | bound {frame : Nat} {name : String} {value : Value} {machine : Machine} :
      machine.scopes.get? frame name = some value →
      Ends limit (.expression frame (.identifier name) (.ok value)) machine machine
  | builtin {frame : Nat} {name : String} {builtin : Builtin} {machine : Machine} :
      machine.scopes.get? frame name = none → Builtin.ofName? name = some builtin →
      Ends limit (.expression frame (.identifier name) (.ok (.builtin builtin))) machine machine
  | unbound {frame : Nat} {name : String} {machine : Machine} :
      machine.scopes.get? frame name = none → Builtin.ofName? name = none →
      Ends limit (.expression frame (.identifier name) (.error (.failure (.unboundName name))))
        machine machine
  | integer {frame : Nat} {value : Int64} {machine : Machine} :
      Ends limit (.expression frame (.integer value) (.ok (.integer value))) machine machine
  | string {frame : Nat} {text : String} {machine : Machine} :
      Ends limit (.expression frame (.string text) (.ok (.string text))) machine machine
  | boolean {frame : Nat} {value : Bool} {machine : Machine} :
      Ends limit (.expression frame (.boolean value) (.ok (.boolean value))) machine machine
  | unary {frame : Nat} {operator : UnaryOperator} {operand : Expression} {value : Value}
      {machine last : Machine} :
      Ends limit (.expression frame operand (.ok value)) machine last →
      Ends limit (.expression frame (.unary operator operand)
        (Signal.ofResult (operator.apply value))) machine last
  | unaryStops {frame : Nat} {operator : UnaryOperator} {operand : Expression} {signal : Signal}
      {machine last : Machine} :
      Ends limit (.expression frame operand (.error signal)) machine last →
      Ends limit (.expression frame (.unary operator operand) (.error signal)) machine last
  | binary {frame : Nat} {left right : Expression} {operator : BinaryOperator}
      {value value' : Value} {machine middle last : Machine} :
      Ends limit (.expression frame left (.ok value)) machine middle →
      Ends limit (.expression frame right (.ok value')) middle last →
      Ends limit (.expression frame (.binary left operator right)
        (Signal.ofResult (operator.apply value value'))) machine last
  | leftStops {frame : Nat} {left right : Expression} {operator : BinaryOperator}
      {signal : Signal} {machine last : Machine} :
      Ends limit (.expression frame left (.error signal)) machine last →
      Ends limit (.expression frame (.binary left operator right) (.error signal)) machine last
  | rightStops {frame : Nat} {left right : Expression} {operator : BinaryOperator} {value : Value}
      {signal : Signal} {machine middle last : Machine} :
      Ends limit (.expression frame left (.ok value)) machine middle →
      Ends limit (.expression frame right (.error signal)) middle last →
      Ends limit (.expression frame (.binary left operator right) (.error signal)) machine last
  | consequence {frame : Nat} {condition : Expression} {consequence : Block}
      {alternative : Option Block} {value : Value} {outcome : Except Signal Value}
      {machine middle last : Machine} :
      Ends limit (.expression frame condition (.ok value)) machine middle →
      value.isTruthy = true → Ends limit (.statements frame consequence .null outcome) middle last →
      Ends limit (.expression frame (.conditional condition consequence alternative) outcome)
        machine last
  | alternative {frame : Nat} {condition : Expression} {consequence alternative : Block}
      {value : Value} {outcome : Except Signal Value} {machine middle last : Machine} :
      Ends limit (.expression frame condition (.ok value)) machine middle →
      value.isTruthy = false →
      Ends limit (.statements frame alternative .null outcome) middle last →
      Ends limit (.expression frame (.conditional condition consequence (some alternative)) outcome)
        machine last
  | noAlternative {frame : Nat} {condition : Expression} {consequence : Block} {value : Value}
      {machine last : Machine} :
      Ends limit (.expression frame condition (.ok value)) machine last →
      value.isTruthy = false →
      Ends limit (.expression frame (.conditional condition consequence none) (.ok .null))
        machine last
  | conditionStops {frame : Nat} {condition : Expression} {consequence : Block}
      {alternative : Option Block} {signal : Signal} {machine last : Machine} :
      Ends limit (.expression frame condition (.error signal)) machine last →
      Ends limit (.expression frame (.conditional condition consequence alternative)
        (.error signal)) machine last
  | function {frame : Nat} {parameters : List String} {body : Block} {machine : Machine} :
      Ends limit (.expression frame (.function parameters body)
        (.ok (.function (machine.nextFunction parameters body frame)))) machine
        machine.withFunction
  | call {frame : Nat} {callee : Expression} {arguments : List Expression} {value : Value}
      {values : List Value} {outcome : Except Signal Value}
      {machine middle behind last : Machine} :
      Ends limit (.expression frame callee (.ok value)) machine middle →
      Ends limit (.all frame arguments (.ok values)) middle behind →
      Ends limit (.call value values outcome) behind last →
      Ends limit (.expression frame (.call callee arguments) outcome) machine last
  | calleeStops {frame : Nat} {callee : Expression} {arguments : List Expression}
      {signal : Signal} {machine last : Machine} :
      Ends limit (.expression frame callee (.error signal)) machine last →
      Ends limit (.expression frame (.call callee arguments) (.error signal)) machine last
  | argumentsStop {frame : Nat} {callee : Expression} {arguments : List Expression}
      {value : Value} {signal : Signal} {machine middle last : Machine} :
      Ends limit (.expression frame callee (.ok value)) machine middle →
      Ends limit (.all frame arguments (.error signal)) middle last →
      Ends limit (.expression frame (.call callee arguments) (.error signal)) machine last
  | array {frame : Nat} {elements : List Expression} {values : List Value}
      {machine last : Machine} : Ends limit (.all frame elements (.ok values)) machine last →
      Ends limit (.expression frame (.array elements) (.ok (.array values))) machine last
  | elementsStop {frame : Nat} {elements : List Expression} {signal : Signal}
      {machine last : Machine} : Ends limit (.all frame elements (.error signal)) machine last →
      Ends limit (.expression frame (.array elements) (.error signal)) machine last
  | index {frame : Nat} {collection position : Expression} {value value' : Value}
      {machine middle last : Machine} :
      Ends limit (.expression frame collection (.ok value)) machine middle →
      Ends limit (.expression frame position (.ok value')) middle last →
      Ends limit (.expression frame (.index collection position)
        (Signal.ofResult (value.indexedBy value'))) machine last
  | collectionStops {frame : Nat} {collection position : Expression} {signal : Signal}
      {machine last : Machine} :
      Ends limit (.expression frame collection (.error signal)) machine last →
      Ends limit (.expression frame (.index collection position) (.error signal)) machine last
  | positionStops {frame : Nat} {collection position : Expression} {value : Value}
      {signal : Signal} {machine middle last : Machine} :
      Ends limit (.expression frame collection (.ok value)) machine middle →
      Ends limit (.expression frame position (.error signal)) middle last →
      Ends limit (.expression frame (.index collection position) (.error signal)) machine last
  | hash {frame : Nat} {pairs : List (Expression × Expression)} {outcome : Except Signal Value}
      {machine last : Machine} : Ends limit (.pairs frame pairs [] outcome) machine last →
      Ends limit (.expression frame (.hash pairs) outcome) machine last
  | noExpressions {frame : Nat} {machine : Machine} :
      Ends limit (.all frame [] (.ok [])) machine machine
  | expressions {frame : Nat} {first : Expression} {rest : List Expression} {value : Value}
      {values : List Value} {machine middle last : Machine} :
      Ends limit (.expression frame first (.ok value)) machine middle →
      Ends limit (.all frame rest (.ok values)) middle last →
      Ends limit (.all frame (first :: rest) (.ok (value :: values))) machine last
  | firstStops {frame : Nat} {first : Expression} {rest : List Expression} {signal : Signal}
      {machine last : Machine} :
      Ends limit (.expression frame first (.error signal)) machine last →
      Ends limit (.all frame (first :: rest) (.error signal)) machine last
  | restStops {frame : Nat} {first : Expression} {rest : List Expression} {value : Value}
      {signal : Signal} {machine middle last : Machine} :
      Ends limit (.expression frame first (.ok value)) machine middle →
      Ends limit (.all frame rest (.error signal)) middle last →
      Ends limit (.all frame (first :: rest) (.error signal)) machine last
  | noPairs {frame : Nat} {entries : List (Entry Value)} {machine : Machine} :
      Ends limit (.pairs frame [] entries (.ok (.hash entries))) machine machine
  | pair {frame : Nat} {key value : Expression} {rest : List (Expression × Expression)}
      {entries : List (Entry Value)} {keyed valued : Value} {hashKey : HashKey}
      {outcome : Except Signal Value} {machine middle behind last : Machine} :
      Ends limit (.expression frame key (.ok keyed)) machine middle →
      keyed.hashKey? = some hashKey →
      Ends limit (.expression frame value (.ok valued)) middle behind →
      Ends limit (.pairs frame rest (Entry.insert ⟨hashKey, keyed, valued⟩ entries) outcome) behind
        last →
      Ends limit (.pairs frame ((key, value) :: rest) entries outcome) machine last
  | keyStops {frame : Nat} {key value : Expression} {rest : List (Expression × Expression)}
      {entries : List (Entry Value)} {signal : Signal} {machine last : Machine} :
      Ends limit (.expression frame key (.error signal)) machine last →
      Ends limit (.pairs frame ((key, value) :: rest) entries (.error signal)) machine last
  | unusableKey {frame : Nat} {key value : Expression} {rest : List (Expression × Expression)}
      {entries : List (Entry Value)} {keyed : Value} {machine last : Machine} :
      Ends limit (.expression frame key (.ok keyed)) machine last → keyed.hashKey? = none →
      Ends limit (.pairs frame ((key, value) :: rest) entries
        (.error (.failure (.unusableKey keyed.type)))) machine last
  | valueStops {frame : Nat} {key value : Expression} {rest : List (Expression × Expression)}
      {entries : List (Entry Value)} {keyed : Value} {hashKey : HashKey} {signal : Signal}
      {machine middle last : Machine} :
      Ends limit (.expression frame key (.ok keyed)) machine middle →
      keyed.hashKey? = some hashKey →
      Ends limit (.expression frame value (.error signal)) middle last →
      Ends limit (.pairs frame ((key, value) :: rest) entries (.error signal)) machine last
  | binding {frame : Nat} {name : String} {expression : Expression} {value : Value}
      {machine last : Machine} :
      Ends limit (.expression frame expression (.ok value)) machine last →
      Ends limit (.statement frame (.binding name expression) (.ok .null)) machine
        (last.withBinding frame name value)
  | bindingStops {frame : Nat} {name : String} {expression : Expression} {signal : Signal}
      {machine last : Machine} :
      Ends limit (.expression frame expression (.error signal)) machine last →
      Ends limit (.statement frame (.binding name expression) (.error signal)) machine last
  | returning {frame : Nat} {expression : Expression} {value : Value} {machine last : Machine} :
      Ends limit (.expression frame expression (.ok value)) machine last →
      Ends limit (.statement frame (.returning expression) (.error (.returning value))) machine
        last
  | returningStops {frame : Nat} {expression : Expression} {signal : Signal}
      {machine last : Machine} :
      Ends limit (.expression frame expression (.error signal)) machine last →
      Ends limit (.statement frame (.returning expression) (.error signal)) machine last
  | evaluated {frame : Nat} {expression : Expression} {outcome : Except Signal Value}
      {machine last : Machine} : Ends limit (.expression frame expression outcome) machine last →
      Ends limit (.statement frame (.expression expression) outcome) machine last
  | noStatements {frame : Nat} {last : Value} {machine : Machine} :
      Ends limit (.statements frame [] last (.ok last)) machine machine
  | statements {frame : Nat} {first : Statement} {rest : List Statement} {before value : Value}
      {outcome : Except Signal Value} {machine middle last : Machine} :
      Ends limit (.statement frame first (.ok value)) machine middle →
      Ends limit (.statements frame rest value outcome) middle last →
      Ends limit (.statements frame (first :: rest) before outcome) machine last
  | statementStops {frame : Nat} {first : Statement} {rest : List Statement} {before : Value}
      {signal : Signal} {machine last : Machine} :
      Ends limit (.statement frame first (.error signal)) machine last →
      Ends limit (.statements frame (first :: rest) before (.error signal)) machine last
  /-- The body is evaluated in a frame of its own, one call deeper. -/
  | body {closure : Closure} {arguments : List Value} {outcome : Except Signal Value}
      {machine last : Machine} : closure.parameters.length = arguments.length →
      machine.depth < limit →
      Ends limit (.statements machine.scopes.size closure.body .null outcome)
        (machine.withFrame (closure.frameOfCall arguments)).entered last →
      Ends limit (.call (.function closure) arguments (Signal.afterCall outcome)) machine last.left
  | refused {closure : Closure} {arguments : List Value} {machine : Machine} :
      closure.parameters.length = arguments.length → limit ≤ machine.depth →
      Ends limit (.call (.function closure) arguments
        (.error (.failure (.callDepthExceeded limit)))) machine
        (machine.withFrame (closure.frameOfCall arguments))
  | argumentCount {closure : Closure} {arguments : List Value} {machine : Machine} :
      closure.parameters.length ≠ arguments.length →
      Ends limit (.call (.function closure) arguments (.error (.failure
        (.argumentCount closure.parameters.length arguments.length)))) machine machine
  | answer {builtin : Builtin} {arguments : List Value} {reply : Reply} {machine : Machine} :
      builtin.call arguments = .ok reply →
      Ends limit (.call (.builtin builtin) arguments (.ok reply.value)) machine
        (machine.withText reply.written)
  | noAnswer {builtin : Builtin} {arguments : List Value} {failure : Failure}
      {machine : Machine} : builtin.call arguments = .error failure →
      Ends limit (.call (.builtin builtin) arguments (.error (.failure failure))) machine machine
  | notCallable {callee : Value} {arguments : List Value} {machine : Machine} :
      callee.type ≠ .function → callee.type ≠ .builtin →
      Ends limit (.call callee arguments (.error (.failure (.notCallable callee.type)))) machine
        machine
  /-- No call is active when a program starts. -/
  | program {frame : Nat} {program : Program} {outcome : Except Signal Value}
      {machine last : Machine} :
      Ends limit (.statements frame program.statements .null outcome) { machine with depth := 0 }
        last →
      Ends limit (.program frame program (endProgram outcome)) machine last

/-! ### What the rules say is what evaluation computes -/

/-- The computation behind a task ends in front of a state as the task says, in another state. -/
def Task.Computed (limit : Nat) (machine last : Machine) : Task → Prop
  | .expression frame tree outcome =>
    (tree.evaluate (applyAtDepth limit) frame).on machine = (outcome, last)
  | .all frame trees outcome =>
    (evaluateAll (applyAtDepth limit) frame trees).on machine = (outcome, last)
  | .pairs frame trees entries outcome =>
    (evaluatePairs (applyAtDepth limit) frame trees entries).on machine = (outcome, last)
  | .statement frame tree outcome =>
    (tree.evaluate (applyAtDepth limit) frame).on machine = (outcome, last)
  | .statements frame trees before outcome =>
    (evaluateStatements (applyAtDepth limit) frame trees before).on machine = (outcome, last)
  | .call callee arguments outcome =>
    (applyAtDepth limit callee arguments).on machine = (outcome, last)
  | .program frame source value =>
    StateT.run (source.execute limit frame) machine = (value, last)

theorem ofExcept_on (result : Except Failure Value) (machine : Machine) :
    (Computation.ofExcept result).on machine = (Signal.ofResult result, machine) := by
  cases result <;> rfl

theorem requireHashKey_on_of_some {key : Value} {hashKey : HashKey} {machine : Machine}
    (usable : key.hashKey? = some hashKey) :
    (requireHashKey key).on machine = (.ok hashKey, machine) := by
  rw [requireHashKey, usable]
  rfl

theorem requireHashKey_on_of_none {key : Value} {machine : Machine}
    (unusable : key.hashKey? = none) :
    (requireHashKey key).on machine =
      (.error (.failure (.unusableKey key.type)), machine) := by
  rw [requireHashKey, unusable]
  rfl

section Sequences

variable {α β : Type} {computation : Computation α} {next : α → Computation β}
  {machine middle : Machine}

/-- A sequence goes on with the result of its first part. -/
theorem on_bind_ok {result : α} (first : computation.on machine = (.ok result, middle)) :
    (computation >>= next).on machine = (next result).on middle := by
  rw [on_bind, first]

/-- A signal ends a sequence. -/
theorem on_bind_error {signal : Signal}
    (first : computation.on machine = (.error signal, middle)) :
    (computation >>= next).on machine = (.error signal, middle) := by
  rw [on_bind, first]

end Sequences

/-- What ends by the rules, evaluation computes. -/
theorem Ends.computed {limit : Nat} {task : Task} {machine last : Machine}
    (ends : Ends limit task machine last) : task.Computed limit machine last := by
  induction ends with
  | bound found =>
    show (resolve _ _).on _ = _
    rw [resolve, on_get_bind, found]
    rfl
  | builtin missing found =>
    show (resolve _ _).on _ = _
    rw [resolve, on_get_bind, missing, found]
    rfl
  | unbound missing missing' =>
    show (resolve _ _).on _ = _
    rw [resolve, on_get_bind, missing, missing']
    rfl
  | integer | string | boolean | function | noExpressions | noPairs | noStatements => rfl
  | unary _ operand => exact (on_bind_ok operand).trans (ofExcept_on _ _)
  | unaryStops _ operand => exact on_bind_error operand
  | binary _ _ left right =>
    exact (on_bind_ok left).trans ((on_bind_ok right).trans (ofExcept_on _ _))
  | leftStops _ left => exact on_bind_error left
  | rightStops _ _ left right => exact (on_bind_ok left).trans (on_bind_error right)
  | @consequence _ _ _ alternative _ _ _ _ _ _ truthy _ condition chosen =>
    cases alternative <;>
    · refine (on_bind_ok condition).trans ?_
      rw [if_pos truthy]
      exact chosen
  | alternative _ falsy _ condition chosen =>
    refine (on_bind_ok condition).trans ?_
    rw [if_neg (Bool.eq_false_iff.mp falsy)]
    exact chosen
  | noAlternative _ falsy condition =>
    refine (on_bind_ok condition).trans ?_
    rw [if_neg (Bool.eq_false_iff.mp falsy)]
    rfl
  | @conditionStops _ _ _ alternative _ _ _ _ condition =>
    cases alternative <;> exact on_bind_error condition
  | call _ _ _ callee arguments applied =>
    exact (on_bind_ok callee).trans ((on_bind_ok arguments).trans applied)
  | calleeStops _ callee => exact on_bind_error callee
  | argumentsStop _ _ callee arguments =>
    exact (on_bind_ok callee).trans (on_bind_error arguments)
  | array _ elements => exact (on_bind_ok elements).trans rfl
  | elementsStop _ elements => exact on_bind_error elements
  | index _ _ collection position =>
    exact (on_bind_ok collection).trans ((on_bind_ok position).trans (ofExcept_on _ _))
  | collectionStops _ collection => exact on_bind_error collection
  | positionStops _ _ collection position =>
    exact (on_bind_ok collection).trans (on_bind_error position)
  | hash _ pairs => exact pairs
  | expressions _ _ first rest =>
    exact (on_bind_ok first).trans ((on_bind_ok rest).trans rfl)
  | firstStops _ first => exact on_bind_error first
  | restStops _ _ first rest => exact (on_bind_ok first).trans (on_bind_error rest)
  | pair _ usable _ _ key value rest =>
    refine (on_bind_ok key).trans ?_
    refine (on_bind_ok (requireHashKey_on_of_some usable)).trans ?_
    exact (on_bind_ok value).trans rest
  | keyStops _ key => exact on_bind_error key
  | unusableKey _ unusable key =>
    refine (on_bind_ok key).trans ?_
    exact on_bind_error (requireHashKey_on_of_none unusable)
  | valueStops _ usable _ key value =>
    refine (on_bind_ok key).trans ?_
    refine (on_bind_ok (requireHashKey_on_of_some usable)).trans ?_
    exact on_bind_error value
  | binding _ value => exact (on_bind_ok value).trans rfl
  | bindingStops _ value => exact on_bind_error value
  | returning _ value => exact (on_bind_ok value).trans rfl
  | returningStops _ value => exact on_bind_error value
  | evaluated _ value => exact value
  | statements _ _ first rest => exact (on_bind_ok first).trans rest
  | statementStops _ first => exact on_bind_error first
  | body right more _ body => exact applyAtDepth_on_of_lt right more body
  | refused right deepest => exact applyAtDepth_on_of_le right deepest
  | argumentCount wrong => exact applyAtDepth_on_of_ne wrong
  | answer answered =>
    show (applyAtDepth _ _ _).on _ = _
    rw [applyAtDepth_on_builtin, answered]
  | noAnswer refused =>
    show (applyAtDepth _ _ _).on _ = _
    rw [applyAtDepth_on_builtin, refused]
  | @notCallable callee _ _ noFunction noBuiltin =>
    refine (applyAtDepth_on_eq _ _).trans ?_
    cases callee with
    | function => exact absurd rfl noFunction
    | builtin => exact absurd rfl noBuiltin
    | _ => rfl
  | @program frame source _ machine _ _ body =>
    exact congrArg (fun run : Except Signal Value × Machine => (endProgram run.1, run.2)) body

end MonkeyLang
