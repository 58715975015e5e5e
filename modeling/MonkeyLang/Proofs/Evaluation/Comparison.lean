/-
This file compares two evaluations of one syntax tree. The two may differ in the
state they start from, in the frame, and in what calls do. A comparison is any
way of relating computations that results, signals and sequences respect; the
theorem is that evaluation respects it too, if the steps that look at the state
and the calls do. It is the only induction over the syntax tree that statements
about two runs need.

Most comparisons relate the states of the two runs and say that related states
stay related. They are built from a relation between states and one between
failures.
-/

import MonkeyLang.Proofs.Effects
import MonkeyLang.Proofs.Evaluation.Similarity

namespace MonkeyLang

open Machine

/-! ### Comparisons -/

/-- A way of relating computations, given how their results are to be related. Values are related
if they are similar, and failures that have nothing to do with the active calls are related to
themselves. -/
structure Comparison (functions : Closure → Closure → Prop) where
  relates : {α β : Type} → (α → β → Prop) → Computation α → Computation β → Prop
  pure {α β : Type} {results : α → β → Prop} {result : α} {result' : β} :
    results result result' → relates results (pure result) (pure result')
  returning {α β : Type} {results : α → β → Prop} {value value' : Value} :
    value.Similar functions value' →
    relates results (throw (.returning value)) (throw (.returning value'))
  failure {α β : Type} {results : α → β → Prop} {failure : Failure} :
    failure.isDepthExceeded = false →
    relates results (throw (.failure failure)) (throw (.failure failure))
  bind {α β γ δ : Type} {results : α → β → Prop} {further : γ → δ → Prop}
    {computation : Computation α} {computation' : Computation β} {next : α → Computation γ}
    {next' : β → Computation δ} : relates results computation computation' →
    (∀ {result result'}, results result result' → relates further (next result) (next' result')) →
    relates further (computation >>= next) (computation' >>= next')

variable {functions : Closure → Closure → Prop}

namespace Comparison

variable (comparison : Comparison functions)

theorem ofExcept {α β : Type} {results : α → β → Prop} {result : Except Failure α}
    {result' : Except Failure β} (agree : Agree results result result') :
    comparison.relates results (Computation.ofExcept result) (Computation.ofExcept result') := by
  cases agree with
  | ok same => exact comparison.pure same
  | error other => exact comparison.failure other

theorem requireHashKey {key key' : Value} (similar : key.Similar functions key') :
    comparison.relates Eq (requireHashKey key) (MonkeyLang.requireHashKey key') := by
  rw [MonkeyLang.requireHashKey, MonkeyLang.requireHashKey, similar.hashKey?_eq]
  cases key'.hashKey? with
  | some hashKey => exact comparison.pure rfl
  | none =>
    rw [similar.type_eq]
    exact comparison.failure rfl

/-- That calls of similar values with similar arguments are related. -/
def RelatesCalls (apply apply' : Application) : Prop :=
  ∀ ⦃callee callee' : Value⦄ ⦃arguments arguments' : List Value⦄,
    callee.Similar functions callee' →
    List.Forall₂ (Value.Similar functions) arguments arguments' →
    comparison.relates (Value.Similar functions) (apply callee arguments)
      (apply' callee' arguments')

/-- That calls and the steps that look at the state are related, in a frame of either run. -/
structure Respects (apply apply' : Application) (frame frame' : Nat) : Prop where
  calls : comparison.RelatesCalls apply apply'
  resolve (name : String) :
    comparison.relates (Value.Similar functions) (resolve frame name)
      (MonkeyLang.resolve frame' name)
  newFunction (parameters : List String) (body : Block) :
    comparison.relates (Value.Similar functions) (newFunction parameters body frame)
      (Machine.newFunction parameters body frame')
  bindName (name : String) {value value' : Value} : value.Similar functions value' →
    comparison.relates Eq (bindName frame name value) (Machine.bindName frame' name value')

end Comparison

/-! ### The syntax tree -/

section Tree

variable {comparison : Comparison functions} {apply apply' : Application} {frame frame' : Nat}
  (respects : comparison.Respects apply apply' frame frame')

include respects

set_option linter.unusedSectionVars false in
mutual

/-- Evaluation respects every comparison that calls and the steps which look at the state
respect. -/
theorem Expression.related : ∀ expression : Expression,
    comparison.relates (Value.Similar functions) (expression.evaluate apply frame)
      (expression.evaluate apply' frame')
  | .identifier name => respects.resolve name
  | .integer value => comparison.pure (.integer value)
  | .string text => comparison.pure (.string text)
  | .boolean value => comparison.pure (.boolean value)
  | .unary operator operand =>
    comparison.bind operand.related fun operand =>
      comparison.ofExcept (operator.agree_apply operand)
  | .binary left operator right =>
    comparison.bind left.related fun left => comparison.bind right.related fun right =>
      comparison.ofExcept (operator.agree_apply left right)
  | .conditional condition consequence none => by
    refine comparison.bind condition.related fun {value value'} similar => ?_
    rw [similar.isTruthy_eq]
    cases value'.isTruthy with
    | true => exact related_evaluateStatements consequence .null
    | false => exact comparison.pure .null
  | .conditional condition consequence (some alternative) => by
    refine comparison.bind condition.related fun {value value'} similar => ?_
    rw [similar.isTruthy_eq]
    cases value'.isTruthy with
    | true => exact related_evaluateStatements consequence .null
    | false => exact related_evaluateStatements alternative .null
  | .function parameters body => respects.newFunction parameters body
  | .call callee arguments =>
    comparison.bind callee.related fun callee =>
      comparison.bind (related_evaluateAll arguments) fun arguments =>
        respects.calls callee arguments
  | .array elements =>
    comparison.bind (related_evaluateAll elements) fun elements =>
      comparison.pure (.array elements)
  | .index collection position =>
    comparison.bind collection.related fun collection =>
      comparison.bind position.related fun position =>
        comparison.ofExcept (agree_indexedBy collection position)
  | .hash pairs => related_evaluatePairs pairs .nil
termination_by structural expression => expression

theorem related_evaluateAll : ∀ expressions : List Expression,
    comparison.relates (List.Forall₂ (Value.Similar functions))
      (evaluateAll apply frame expressions) (evaluateAll apply' frame' expressions)
  | [] => comparison.pure .nil
  | expression :: rest =>
    comparison.bind expression.related fun value =>
      comparison.bind (related_evaluateAll rest) fun values =>
        comparison.pure (.cons value values)
termination_by structural expressions => expressions

theorem related_evaluatePairs : ∀ (pairs : List (Expression × Expression))
    {entries entries' : List (Entry Value)},
    List.Forall₂ (Entry.Alike functions) entries entries' →
    comparison.relates (Value.Similar functions) (evaluatePairs apply frame pairs entries)
      (evaluatePairs apply' frame' pairs entries')
  | [], _, _, alike => comparison.pure (.hash alike)
  | (key, value) :: rest, _, _, alike => by
    refine comparison.bind key.related fun key => ?_
    refine comparison.bind (comparison.requireHashKey key) ?_
    rintro hashKey _ rfl
    refine comparison.bind value.related fun value => ?_
    exact related_evaluatePairs rest (forall₂_alike_insert (.intro key value) alike)
termination_by structural pairs => pairs

theorem Statement.related : ∀ statement : Statement,
    comparison.relates (Value.Similar functions) (statement.evaluate apply frame)
      (statement.evaluate apply' frame')
  | .binding name value =>
    comparison.bind value.related fun value => comparison.bind (respects.bindName name value)
      fun _ => comparison.pure .null
  | .returning value => comparison.bind value.related fun value => comparison.returning value
  | .expression value => value.related
termination_by structural statement => statement

theorem related_evaluateStatements : ∀ (statements : List Statement) {last last' : Value},
    last.Similar functions last' →
    comparison.relates (Value.Similar functions)
      (evaluateStatements apply frame statements last)
      (evaluateStatements apply' frame' statements last')
  | [], _, _, similar => comparison.pure similar
  | statement :: rest, _, _, _ =>
    comparison.bind statement.related fun value => related_evaluateStatements rest value
termination_by structural statements => statements

end

end Tree

/-! ### Calls -/

/-- Calls of similar values with similar arguments are related if calls of related functions are,
and if writing is related to itself. -/
theorem Comparison.applyWith (comparison : Comparison functions)
    (texts : ∀ closure closure', functions closure closure' → closure.text = closure'.text)
    {limit limit' : Nat} {runBody runBody' : Nat → Block → Computation Value}
    (calls : ∀ ⦃closure closure' : Closure⦄ ⦃arguments arguments' : List Value⦄,
      functions closure closure' → List.Forall₂ (Value.Similar functions) arguments arguments' →
      comparison.relates (Value.Similar functions) (closure.call limit runBody arguments)
        (closure'.call limit' runBody' arguments'))
    (write : ∀ text, comparison.relates Eq (write text) (Machine.write text)) :
    comparison.RelatesCalls (applyWith limit runBody)
      (MonkeyLang.applyWith limit' runBody') := by
  intro callee callee' arguments arguments' similar similarArguments
  cases similar with
  | function related => exact calls related similarArguments
  | builtin builtin =>
    refine comparison.bind (comparison.ofExcept (builtin.agree_call texts similarArguments)) ?_
    intro reply reply' answers
    rw [answers.written]
    exact comparison.bind (write reply'.written) fun _ => comparison.pure answers.value
  | _ => exact comparison.failure rfl

/-! ### Comparing states -/

/-- How two runs end alike: with related results, with a `return` of similar values, or with related
failures. -/
inductive Ending (functions : Closure → Closure → Prop) (failures : Failure → Failure → Prop)
    {α β : Type} (results : α → β → Prop) : Except Signal α → Except Signal β → Prop
  | ok {result : α} {result' : β} : results result result' →
      Ending functions failures results (.ok result) (.ok result')
  | returning {value value' : Value} : value.Similar functions value' →
      Ending functions failures results (.error (.returning value)) (.error (.returning value'))
  | failure {failure failure' : Failure} : failures failure failure' →
      Ending functions failures results (.error (.failure failure)) (.error (.failure failure'))

section Endings

variable {α : Type} {failures : Failure → Failure → Prop} {results : α → α → Prop}
  {outcome outcome' : Except Signal α}

theorem Ending.refl (same : ∀ result, results result result)
    (own : ∀ closure, functions closure closure) (fails : ∀ failure, failures failure failure) :
    ∀ outcome : Except Signal α, Ending functions failures results outcome outcome
  | .ok result => .ok (same result)
  | .error (.returning value) => .returning (.refl own value)
  | .error (.failure cause) => .failure (fails cause)

theorem Ending.mono {others : Failure → Failure → Prop}
    (ending : Ending functions failures results outcome outcome')
    (more : ∀ failure failure', failures failure failure' → others failure failure') :
    Ending functions others results outcome outcome' := by
  cases ending with
  | ok related => exact .ok related
  | returning similar => exact .returning similar
  | failure counterpart => exact .failure (more _ _ counterpart)

theorem Ending.eq (ending : Ending Eq Eq results outcome outcome')
    (same : ∀ {result result'}, results result result' → result = result') :
    outcome = outcome' := by
  cases ending with
  | ok related => rw [same related]
  | returning similar => rw [similar.eq]
  | failure counterpart => rw [counterpart]

end Endings

/-- The comparison of runs from related states: they end alike, and in related states. -/
def Comparison.ofStates (functions : Closure → Closure → Prop)
    (failures : Failure → Failure → Prop)
    (own : ∀ failure : Failure, failure.isDepthExceeded = false → failures failure failure)
    (states : Machine → Machine → Prop) : Comparison functions where
  relates results computation computation' := ∀ ⦃machine machine' : Machine⦄,
    states machine machine' →
    Ending functions failures results (computation.on machine).1 (computation'.on machine').1 ∧
      states (computation.on machine).2 (computation'.on machine').2
  pure same := fun _ _ related => ⟨.ok same, related⟩
  returning similar := fun _ _ related => ⟨.returning similar, related⟩
  failure other := fun _ _ related => ⟨.failure (own _ other), related⟩
  bind {_ _ _ _ _ _ computation computation' next next'} first second := by
    intro machine machine' related
    obtain ⟨ending, last⟩ := first related
    rw [on_bind, on_bind]
    generalize computation.on machine = run at ending last ⊢
    generalize computation'.on machine' = run' at ending last ⊢
    obtain ⟨outcome, middle⟩ := run
    obtain ⟨outcome', middle'⟩ := run'
    cases ending with
    | ok same => exact second same last
    | returning similar => exact ⟨.returning similar, last⟩
    | failure counterpart => exact ⟨.failure counterpart, last⟩

end MonkeyLang
