/-
This file follows an activity of the evaluator, be it the evaluation of code or a
call, into everything that is done in its course: the code in the gaps of other
code, the calls that evaluation gets to, and the bodies of the functions called.
Beside each of them stands the state it starts in and the number of calls that
have been entered on the way to it.

That number is what the depth has grown by. And a failure that is raised in the
course of an activity is how the activity ends; as to the failure of having too
many active calls, it is raised nowhere but where a function is called.
-/

import MonkeyLang.Proofs.Evaluation.Limit
import MonkeyLang.Proofs.Evaluation.Termination
import MonkeyLang.Proofs.Occurrences

namespace MonkeyLang

open Machine

/-! ### Activities -/

/-- What the evaluator can be asked for: the evaluation of code in a frame, that of expressions in
order, and the call of a value. -/
inductive Activity
  | code (piece : Piece) (code : piece.Code) (frame : Nat)
  | all (expressions : List Expression) (frame : Nat)
  | call (callee : Value) (arguments : List Value)

namespace Activity

/-- What an activity results in. -/
abbrev Result : Activity → Type
  | code _ _ _ => Value
  | all _ _ => List Value
  | call _ _ => Value

/-- What the evaluator does under a limit on active calls. -/
def evaluate (limit : Nat) : (activity : Activity) → Computation activity.Result
  | code piece tree frame => piece.evaluate (applyAtDepth limit) frame tree
  | all expressions frame => evaluateAll (applyAtDepth limit) frame expressions
  | call callee arguments => applyAtDepth limit callee arguments

/-- An activity as a task, together with how it ends. -/
def task : (activity : Activity) → Except Signal activity.Result → Task
  | code .expression tree frame, outcome => .expression frame tree outcome
  | code .statement tree frame, outcome => .statement frame tree outcome
  | code .block tree frame, outcome => .statements frame tree .null outcome
  | all expressions frame, outcome => .all frame expressions outcome
  | call callee arguments, outcome => .call callee arguments outcome

section Ends

variable (limit : Nat) (activity : Activity) (machine : Machine)

theorem finishes : Finishes limit machine.depth activity.task machine := by
  cases activity with
  | code piece tree frame =>
    cases piece with
    | expression => exact Expression.finishes finishes_call tree rfl
    | statement => exact Statement.finishes finishes_call tree rfl
    | block => exact finishes_statements finishes_call tree .null rfl
  | all expressions frame => exact finishes_all finishes_call expressions rfl
  | call callee arguments => exact finishes_call callee arguments rfl

variable {limit activity machine}

theorem computed {outcome : Except Signal activity.Result} {last : Machine}
    (ends : Ends limit (activity.task outcome) machine last) :
    (activity.evaluate limit).on machine = (outcome, last) := by
  cases activity with
  | code piece tree frame => cases piece <;> exact ends.computed
  | _ => exact ends.computed

variable (limit activity machine)

/-- What the evaluator does is a way in which the activity ends. -/
theorem ends : Ends limit (activity.task ((activity.evaluate limit).on machine).1) machine
    ((activity.evaluate limit).on machine).2 :=
  (EndsOnlyAs.of_finishes (activity.finishes limit machine) fun _ _ => computed).1

/-- Every activity leaves the depth as it found it, however it ends. -/
theorem depth_evaluate : ((activity.evaluate limit).on machine).2.depth = machine.depth := by
  obtain ⟨outcome, last, ends, restored⟩ := activity.finishes limit machine
  rw [computed ends]
  exact restored

end Ends

end Activity

/-! ### What is done in the course of an activity -/

/-- What is done in the course of an activity from a state on, with the state it starts in and the
number of calls that have been entered on the way to it. -/
inductive Within (limit : Nat) (whole : Activity) (start : Machine) :
    Activity → Machine → Nat → Prop
  | self : Within limit whole start whole start 0
  | part {inner outer : Piece} {layer : Layer inner outer} {code : inner.Code} {frame : Nat}
      {machine middle : Machine} {entered : Nat} :
      Within limit whole start (.code outer (layer.fill code) frame) machine entered →
      PassesAll (applyAtDepth limit) frame (Earlier.ofLayer layer) machine middle →
      Within limit whole start (.code inner code frame) middle entered
  | arguments {callee : Expression} {arguments : List Expression} {frame : Nat} {called : Value}
      {machine middle : Machine} {entered : Nat} :
      Within limit whole start (.code .expression (.call callee arguments) frame) machine entered →
      (callee.evaluate (applyAtDepth limit) frame).on machine = (.ok called, middle) →
      Within limit whole start (.all arguments frame) middle entered
  | elements {elements : List Expression} {frame : Nat} {machine : Machine} {entered : Nat} :
      Within limit whole start (.code .expression (.array elements) frame) machine entered →
      Within limit whole start (.all elements frame) machine entered
  | element {before behind : List Expression} {expression : Expression} {frame : Nat}
      {machine middle : Machine} {entered : Nat} :
      Within limit whole start (.all (before ++ expression :: behind) frame) machine entered →
      PassesAll (applyAtDepth limit) frame (before.map .expression) machine middle →
      Within limit whole start (.code .expression expression frame) middle entered
  | called {callee : Expression} {arguments : List Expression} {frame : Nat} {called : Value}
      {values : List Value} {machine middle : Machine} {entered : Nat} :
      Within limit whole start (.code .expression (.call callee arguments) frame) machine entered →
      GetsToCall limit frame callee arguments machine called values middle →
      Within limit whole start (.call called values) middle entered
  | body {closure : Closure} {values : List Value} {machine : Machine} {entered : Nat} :
      Within limit whole start (.call (.function closure) values) machine entered →
      closure.parameters.length = values.length → machine.depth < limit →
      Within limit whole start (.code .block closure.body machine.scopes.size)
        (machine.withFrame (closure.frameOfCall values)).entered (entered + 1)

section Depth

variable {limit frame : Nat} {machine last : Machine}

theorem Earlier.depth_of_passes (earlier : Earlier)
    (passes : earlier.Passes (applyAtDepth limit) frame machine last) :
    last.depth = machine.depth := by
  obtain ⟨piece, code, value, yields⟩ := yields_of_passes passes
  have restored := Activity.depth_evaluate limit (.code piece code frame) machine
  rwa [Activity.evaluate, yields] at restored

theorem depth_of_passesAll : ∀ {before : List Earlier} {machine : Machine},
    PassesAll (applyAtDepth limit) frame before machine last → last.depth = machine.depth
  | [], _, rfl => rfl
  | _ :: _, _, ⟨_, passes, others⟩ =>
    (depth_of_passesAll others).trans (Earlier.depth_of_passes _ passes)

theorem depth_of_getsToCall {callee : Expression} {arguments : List Expression} {called : Value}
    {values : List Value}
    (gets : GetsToCall limit frame callee arguments machine called values last) :
    last.depth = machine.depth := by
  obtain ⟨middle, yields, yieldsAll⟩ := gets
  have restored := Activity.depth_evaluate limit (.code .expression callee frame) machine
  have restoredAll := Activity.depth_evaluate limit (.all arguments frame) middle
  rw [Activity.evaluate, Piece.evaluate, yields] at restored
  rw [Activity.evaluate, yieldsAll] at restoredAll
  exact restoredAll.trans restored

end Depth

namespace Within

variable {limit : Nat} {whole activity inner : Activity} {start machine last : Machine}
  {entered further : Nat}

/-- The depth has grown by the number of calls that have been entered, and not beyond the limit. -/
theorem depth_eq (within : Within limit whole start activity machine entered) :
    machine.depth = start.depth + entered ∧
      (start.depth ≤ limit → start.depth + entered ≤ limit) := by
  induction within with
  | self => exact ⟨rfl, id⟩
  | part _ passes inductionHypothesis =>
    exact inductionHypothesis.imp_left (depth_of_passesAll passes).trans
  | arguments _ yields inductionHypothesis =>
    have restored := Earlier.depth_of_passes (.expression _) ⟨_, yields⟩
    exact inductionHypothesis.imp_left restored.trans
  | elements _ inductionHypothesis => exact inductionHypothesis
  | element _ passes inductionHypothesis =>
    exact inductionHypothesis.imp_left (depth_of_passesAll passes).trans
  | called _ gets inductionHypothesis =>
    exact inductionHypothesis.imp_left (depth_of_getsToCall gets).trans
  | body _ _ more inductionHypothesis =>
    obtain ⟨grown, -⟩ := inductionHypothesis
    exact ⟨congrArg (· + 1) grown, fun _ => by omega⟩

theorem trans (outer : Within limit whole start activity machine entered)
    (within : Within limit activity machine inner last further) :
    Within limit whole start inner last (entered + further) := by
  induction within with
  | self => exact outer
  | part _ passes inductionHypothesis => exact .part inductionHypothesis passes
  | arguments _ yields inductionHypothesis => exact .arguments inductionHypothesis yields
  | elements _ inductionHypothesis => exact .elements inductionHypothesis
  | element _ passes inductionHypothesis => exact .element inductionHypothesis passes
  | called _ gets inductionHypothesis => exact .called inductionHypothesis gets
  | body _ right more inductionHypothesis => exact .body inductionHypothesis right more

/-- A failure in the course of an activity is how the activity ends. -/
theorem fails (within : Within limit whole start activity machine entered) {cause : Failure}
    (failed : ((activity.evaluate limit).on machine).1 = .error (.failure cause)) :
    ((whole.evaluate limit).on start).1 = .error (.failure cause) := by
  induction within with
  | self => exact failed
  | part _ passes inductionHypothesis =>
    refine inductionHypothesis ?_
    exact congrArg Prod.fst (Layer.raises _ passes (Prod.ext failed rfl))
  | @arguments _ arguments _ _ _ _ _ _ yields inductionHypothesis =>
    have raises : (evaluateAll (applyAtDepth limit) _ arguments).on _ =
        (.error (.failure cause), _) := Prod.ext failed rfl
    refine inductionHypothesis ((congrArg Prod.fst (on_bind_ok yields)).trans ?_)
    exact congrArg Prod.fst (on_bind_error raises)
  | elements _ inductionHypothesis =>
    exact inductionHypothesis (congrArg Prod.fst (on_bind_error (Prod.ext failed rfl)))
  | element _ passes inductionHypothesis =>
    refine inductionHypothesis ?_
    exact congrArg Prod.fst (evaluateAll_raises passes (Prod.ext failed rfl))
  | called _ gets inductionHypothesis =>
    obtain ⟨_, yields, yieldsAll⟩ := gets
    refine inductionHypothesis ((congrArg Prod.fst ?_).trans failed)
    exact (on_bind_ok yields).trans (on_bind_ok yieldsAll)
  | body _ right more inductionHypothesis =>
    refine inductionHypothesis ((congrArg Prod.fst (applyAtDepth_on_of_lt right more rfl)).trans ?_)
    exact congrArg Signal.afterCall failed

end Within

/-! ### Calls that are refused -/

/-- In the course of an activity a function is called, with the right number of arguments, while no
fewer calls are active than the limit admits. -/
def Refused (limit : Nat) (activity : Activity) (machine : Machine) : Prop :=
  ∃ (closure : Closure) (arguments : List Value) (reached : Machine) (entered : Nat),
    Within limit activity machine (.call (.function closure) arguments) reached entered ∧
      closure.parameters.length = arguments.length ∧ limit ≤ reached.depth

section Refusals

variable {limit : Nat} {activity inner : Activity} {machine middle : Machine}

/-- What is refused in the course of something is refused in the course of what this belongs to. -/
theorem Refused.within {entered : Nat} (refused : Refused limit inner middle)
    (within : Within limit activity machine inner middle entered) :
    Refused limit activity machine := by
  obtain ⟨closure, arguments, reached, further, reaches, right, deepest⟩ := refused
  exact ⟨closure, arguments, reached, entered + further, within.trans reaches, right, deepest⟩

/-- What is refused in a gap is refused in the code around it. -/
theorem Refused.inside {inner outer : Piece} {code : inner.Code} {frame : Nat}
    (layer : Layer inner outer) (refused : Refused limit (.code inner code frame) middle)
    (passes : PassesAll (applyAtDepth limit) frame (Earlier.ofLayer layer) machine middle) :
    Refused limit (.code outer (layer.fill code) frame) machine :=
  refused.within (.part .self passes)

/-- An activity in the course of which a call is refused fails for this reason. -/
theorem Refused.fails (refused : Refused limit activity machine) :
    ((activity.evaluate limit).on machine).1 =
      .error (.failure (.callDepthExceeded limit)) := by
  obtain ⟨closure, arguments, reached, entered, reaches, right, deepest⟩ := refused
  exact reaches.fails (congrArg Prod.fst (applyAtDepth_on_of_le right deepest))

end Refusals

/-! ### Failures for other reasons -/

/-- The result is not that too many calls are active. -/
def Unlimited {α : Type} (result : Except Failure α) : Prop :=
  ∀ limit, result ≠ .error (.callDepthExceeded limit)

theorem UnaryOperator.unlimited_apply (operator : UnaryOperator) (operand : Value) :
    Unlimited (operator.apply operand) := by
  cases operator with
  | not => rintro limit ⟨⟩
  | negate => cases operand <;> rintro limit ⟨⟩

theorem BinaryOperator.unlimited_apply (operator : BinaryOperator) (left right : Value) :
    Unlimited (operator.apply left right) := by
  unfold apply
  split
  · cases operator with
    | divide =>
      rw [applyIntegers]
      split <;> rintro limit ⟨⟩
    | _ => rintro limit ⟨⟩
  case h_7 => split <;> rintro limit ⟨⟩
  all_goals rintro limit ⟨⟩

theorem Value.unlimited_indexedBy (collection position : Value) :
    Unlimited (collection.indexedBy position) := by
  unfold indexedBy
  split
  · rintro limit ⟨⟩
  · split
    · rintro limit ⟨⟩
    · split <;> rintro limit ⟨⟩
  · rintro limit ⟨⟩

theorem Builtin.unlimited_call (builtin : Builtin) (arguments : List Value) :
    Unlimited (builtin.call arguments) := by
  unfold call
  split
  case h_1 argument | h_2 argument | h_3 argument | h_4 argument | h_5 argument _ =>
    cases argument <;> rintro limit ⟨⟩
  all_goals rintro limit ⟨⟩
theorem Unlimited.not_cutOff {result : Except Failure Value} (unlimited : Unlimited result) :
    ¬CutOff (Signal.ofResult result) := by
  rintro ⟨limit, equal⟩
  cases result with
  | ok value => exact absurd equal nofun
  | error failure =>
    obtain rfl := Signal.failure.inj (Except.error.inj equal)
    exact unlimited limit rfl

theorem CutOff.of_afterCall {outcome : Except Signal Value}
    (cutOff : CutOff (Signal.afterCall outcome)) : CutOff outcome := by
  obtain ⟨limit, equal⟩ := cutOff
  obtain (_ | cause) | value := outcome
  · exact absurd equal nofun
  · exact ⟨limit, equal⟩
  · exact absurd equal nofun

/-! ### Why a run is cut off -/

/-- If a task is cut off by the limit, a call is refused in the course of it. Where the task is the
rest of a list, what stands before it in the list has been got past from another state. -/
def Task.CutOffByRefusal (limit : Nat) (machine : Machine) : Task → Prop
  | .expression frame tree outcome =>
    CutOff outcome → Refused limit (.code .expression tree frame) machine
  | .all frame trees outcome => CutOff outcome → ∀ (before : List Expression) (start : Machine),
    PassesAll (applyAtDepth limit) frame (before.map .expression) start machine →
      Refused limit (.all (before ++ trees) frame) start
  | .pairs frame trees _ outcome => CutOff outcome →
    ∀ (before : List (Expression × Expression)) (start : Machine),
      PassesAll (applyAtDepth limit) frame
        (before.flatMap fun pair => [.key pair.1, .expression pair.2]) start machine →
      Refused limit (.code .expression (.hash (before ++ trees)) frame) start
  | .statement frame tree outcome =>
    CutOff outcome → Refused limit (.code .statement tree frame) machine
  | .statements frame trees _ outcome =>
    CutOff outcome → ∀ (before : List Statement) (start : Machine),
      PassesAll (applyAtDepth limit) frame (before.map .statement) start machine →
        Refused limit (.code .block (before ++ trees : List Statement) frame) start
  | .call callee arguments outcome =>
    CutOff outcome → Refused limit (.call callee arguments) machine
  | .program _ _ _ => True

section CutOffs

variable {limit frame : Nat} {machine middle last : Machine}

theorem passesAll_concat {before : List Earlier} (earlier : Earlier)
    (passes : PassesAll (applyAtDepth limit) frame before machine middle)
    (further : earlier.Passes (applyAtDepth limit) frame middle last) :
    PassesAll (applyAtDepth limit) frame (before ++ [earlier]) machine last :=
  passesAll_append.mpr ⟨middle, passes, last, further, rfl⟩

/-- Nothing is cut off by the limit unless a call is refused. -/
theorem Ends.cutOffByRefusal {task : Task} (ends : Ends limit task machine last) :
    task.CutOffByRefusal limit machine := by
  induction ends with
  | bound | builtin | unbound | integer | string | boolean | function | noAlternative | array
  | noExpressions | expressions | noPairs | unusableKey | binding | returning | noStatements
  | argumentCount | answer | notCallable => exact nofun
  | program => exact trivial
  | unary => exact fun cutOff => absurd cutOff (UnaryOperator.unlimited_apply _ _).not_cutOff
  | binary => exact fun cutOff => absurd cutOff (BinaryOperator.unlimited_apply _ _ _).not_cutOff
  | index => exact fun cutOff => absurd cutOff (Value.unlimited_indexedBy _ _).not_cutOff
  | @noAnswer builtin arguments failure _ answered =>
    rintro ⟨limit, equal⟩
    obtain rfl := Signal.failure.inj (Except.error.inj equal)
    exact absurd answered (builtin.unlimited_call arguments limit)
  | @unaryStops _ operator _ _ _ _ _ operand =>
    exact fun cutOff => (operand cutOff).inside (.operand operator) rfl
  | @leftStops _ _ right operator _ _ _ _ left =>
    exact fun cutOff => (left cutOff).inside (.left operator right) rfl
  | @rightStops _ tree _ operator _ _ _ _ _ left _ _ right =>
    exact fun cutOff => (right cutOff).inside (.right tree operator) ⟨_, ⟨_, left.computed⟩, rfl⟩
  | @conditionStops _ _ consequence alternative _ _ _ _ condition =>
    exact fun cutOff => (condition cutOff).inside (.condition consequence alternative) rfl
  | @consequence _ tree _ alternative _ _ _ _ _ condition truthy _ _ chosen =>
    exact fun cutOff => (chosen cutOff [] _ rfl).inside (.consequence tree alternative)
      ⟨_, ⟨_, condition.computed, truthy⟩, rfl⟩
  | @alternative _ tree consequence _ _ _ _ _ _ condition falsy _ _ chosen =>
    exact fun cutOff => (chosen cutOff [] _ rfl).inside (.alternative tree consequence)
      ⟨_, ⟨_, condition.computed, falsy⟩, rfl⟩
  | @calleeStops _ _ arguments _ _ _ _ callee =>
    exact fun cutOff => (callee cutOff).inside (.callee arguments) rfl
  | argumentsStop callee _ _ arguments =>
    exact fun cutOff => (arguments cutOff.error [] _ rfl).within (.arguments .self callee.computed)
  | call callee arguments _ _ _ called =>
    exact fun cutOff => (called cutOff).within
      (.called .self ⟨_, callee.computed, arguments.computed⟩)
  | elementsStop _ elements =>
    exact fun cutOff => (elements cutOff.error [] _ rfl).within (.elements .self)
  | @collectionStops _ _ position _ _ _ _ collection =>
    exact fun cutOff => (collection cutOff).inside (.collection position) rfl
  | @positionStops _ tree _ _ _ _ _ _ collection _ _ position =>
    exact fun cutOff => (position cutOff).inside (.position tree)
      ⟨_, ⟨_, collection.computed⟩, rfl⟩
  | hash _ pairs => exact fun cutOff => pairs cutOff [] _ rfl
  | firstStops _ first =>
    exact fun cutOff before start passes => (first cutOff.error).within (.element .self passes)
  | restStops first _ _ rest =>
    intro cutOff before start passes
    have passesMore := passesAll_concat (.expression _) passes ⟨_, first.computed⟩
    rw [List.append_cons]
    exact rest cutOff _ start (by rwa [List.map_append])
  | @keyStops _ _ beside rest _ _ _ _ _ key =>
    exact fun cutOff before start passes => (key cutOff).inside (.key before beside rest) passes
  | @valueStops _ beside _ rest _ _ _ _ _ _ _ key usable _ _ value =>
    intro cutOff before start passes
    have passesMore := passesAll_concat (.key _) passes ⟨_, _, key.computed, usable⟩
    exact (value cutOff).inside (.value before beside rest) passesMore
  | pair key usable value _ _ _ rest =>
    intro cutOff before start passes
    have passesKey := passesAll_concat (.key _) passes ⟨_, _, key.computed, usable⟩
    have passesMore := passesAll_concat (.expression _) passesKey ⟨_, value.computed⟩
    rw [List.append_cons]
    exact rest cutOff _ start (by simpa using passesMore)
  | @bindingStops _ name _ _ _ _ _ value =>
    exact fun cutOff => (value cutOff).inside (.binding name) rfl
  | returningStops _ value => exact fun cutOff => (value cutOff).inside .returning rfl
  | evaluated _ value => exact fun cutOff => (value cutOff).inside .evaluated rfl
  | @statementStops _ _ rest _ _ _ _ _ first =>
    exact fun cutOff before start passes => (first cutOff).inside (.statement before rest) passes
  | statements first _ _ rest =>
    intro cutOff before start passes
    have passesMore := passesAll_concat (.statement _) passes ⟨_, first.computed⟩
    rw [List.append_cons]
    exact rest cutOff _ start (by rwa [List.map_append])
  | @body _ _ outcome _ _ right more _ body =>
    intro cutOff
    exact (body cutOff.of_afterCall [] _ rfl).within (.body .self right more)
  | refused right deepest =>
    exact fun _ => ⟨_, _, _, _, .self, right, deepest⟩

end CutOffs

/-- An activity is cut off by the limit just if a call is refused in the course of it. -/
theorem Activity.cutOff_iff (limit : Nat) (activity : Activity) (machine : Machine) :
    CutOff ((activity.evaluate limit).on machine).1 ↔ Refused limit activity machine := by
  constructor
  · intro cutOff
    have refusal := (activity.ends limit machine).cutOffByRefusal
    cases activity with
    | code piece tree frame =>
      cases piece with
      | expression | statement => exact refusal cutOff
      | block => exact refusal cutOff [] machine rfl
    | all expressions frame => exact refusal cutOff [] machine rfl
    | call callee arguments => exact refusal cutOff
  · exact fun refused => ⟨limit, refused.fails⟩

end MonkeyLang
