/-
This file proves that a signal stops everything to its right. A position is a
gap in a program or in the body of a function, however deep inside expressions
and blocks, but not inside another function. What is evaluated before a gap is
reached is a list of things that have to go well, read off the position from the
outside in. When all of them do and the code in the gap raises a signal, then
the signal is how the whole ends, in the state in which it was raised; so what
else stands around the gap makes no difference.

A signal gets no further than the call or the program that it is raised in: there
a `return` becomes a value, and a call never ends with one.
-/

import MonkeyLang.Proofs.Evaluation.Rules

namespace MonkeyLang

open Machine

/-! ### Positions -/

/-- What code can be: an expression, a statement, or a block of statements. -/
inductive Piece
  | expression
  | statement
  | block

/-- The code that a piece is. -/
abbrev Piece.Code : Piece → Type
  | expression => Expression
  | statement => Statement
  | block => Block

/-- Evaluates code in a frame. -/
def Piece.evaluate (apply : Application) (frame : Nat) :
    (piece : Piece) → piece.Code → Computation Value
  | expression, code => Expression.evaluate apply frame code
  | statement, code => Statement.evaluate apply frame code
  | block, code => evaluateStatements apply frame code .null

/-- Code of the second kind with a gap directly inside it for code of the first. The body of a
function is not directly inside it. -/
inductive Layer : Piece → Piece → Type
  | operand (operator : UnaryOperator) : Layer .expression .expression
  | left (operator : BinaryOperator) (right : Expression) : Layer .expression .expression
  | right (left : Expression) (operator : BinaryOperator) : Layer .expression .expression
  | condition (consequence : Block) (alternative : Option Block) : Layer .expression .expression
  | consequence (condition : Expression) (alternative : Option Block) : Layer .block .expression
  | alternative (condition : Expression) (consequence : Block) : Layer .block .expression
  | callee (arguments : List Expression) : Layer .expression .expression
  | argument (callee : Expression) (before behind : List Expression) :
      Layer .expression .expression
  | element (before behind : List Expression) : Layer .expression .expression
  | collection (position : Expression) : Layer .expression .expression
  | position (collection : Expression) : Layer .expression .expression
  | key (before : List (Expression × Expression)) (value : Expression)
      (behind : List (Expression × Expression)) : Layer .expression .expression
  | value (before : List (Expression × Expression)) (key : Expression)
      (behind : List (Expression × Expression)) : Layer .expression .expression
  | binding (name : String) : Layer .expression .statement
  | returning : Layer .expression .statement
  | evaluated : Layer .expression .statement
  | statement (before behind : List Statement) : Layer .statement .block

/-- The code with its gap filled. -/
def Layer.fill : {inner outer : Piece} → Layer inner outer → inner.Code → outer.Code
  | _, _, operand operator, code => Expression.unary operator code
  | _, _, left operator other, code => Expression.binary code operator other
  | _, _, right other operator, code => Expression.binary other operator code
  | _, _, condition chosen otherwise, code => Expression.conditional code chosen otherwise
  | _, _, consequence tested otherwise, code => Expression.conditional tested code otherwise
  | _, _, alternative tested chosen, code => Expression.conditional tested chosen (some code)
  | _, _, callee arguments, code => Expression.call code arguments
  | _, _, argument called before behind, code =>
    Expression.call called (before ++ code :: behind)
  | _, _, element before behind, code =>
    Expression.array (before ++ code :: behind)
  | _, _, collection place, code => Expression.index code place
  | _, _, position indexed, code => Expression.index indexed code
  | _, _, key before beside behind, code => Expression.hash (before ++ (code, beside) :: behind)
  | _, _, value before beside behind, code => Expression.hash (before ++ (beside, code) :: behind)
  | _, _, binding name, code => Statement.binding name code
  | _, _, returning, code => Statement.returning code
  | _, _, evaluated, code => Statement.expression code
  | _, _, statement before behind, code =>
    (before ++ code :: behind : List Statement)

/-- A gap in code of the second kind for code of the first, any number of layers deep. -/
inductive Position (inner : Piece) : Piece → Type
  | here : Position inner inner
  | inside {middle outer : Piece} (layer : Layer middle outer)
      (position : Position inner middle) : Position inner outer

/-- The code with the gap at a position filled. -/
def Position.fill {inner : Piece} : {outer : Piece} → Position inner outer → inner.Code → outer.Code
  | _, here, code => code
  | _, inside layer position, code => layer.fill (position.fill code)

/-! ### What comes first -/

/-- What is evaluated before a position is reached, and has to go well. -/
inductive Earlier
  | expression (expression : Expression)
  /-- The key of a hash, which needs a hash key. -/
  | key (expression : Expression)
  /-- The condition of a conditional, which chooses the block around the position. -/
  | condition (expression : Expression) (truth : Bool)
  | statement (statement : Statement)

namespace Earlier

/-- What comes before the gap of a layer, in the order of evaluation. -/
def ofLayer : {inner outer : Piece} → Layer inner outer → List Earlier
  | _, _, .operand _ | _, _, .left _ _ | _, _, .condition _ _ | _, _, .callee _
  | _, _, .collection _ | _, _, .binding _ | _, _, .returning | _, _, .evaluated => []
  | _, _, .right left _ => [expression left]
  | _, _, .consequence tested _ => [condition tested true]
  | _, _, .alternative tested _ => [condition tested false]
  | _, _, .argument callee before _ => expression callee :: before.map expression
  | _, _, .element before _ => before.map expression
  | _, _, .position collection => [expression collection]
  | _, _, .key before _ _ => before.flatMap fun pair => [key pair.1, expression pair.2]
  | _, _, .value before own _ =>
    (before.flatMap fun pair => [key pair.1, expression pair.2]) ++ [key own]
  | _, _, .statement before _ => before.map statement

/-- Evaluation gets past it, from one state to another. -/
def Passes (apply : Application) (frame : Nat) (machine last : Machine) : Earlier → Prop
  | expression tree => ∃ value, (tree.evaluate apply frame).on machine = (.ok value, last)
  | key tree => ∃ value hashKey, (tree.evaluate apply frame).on machine = (.ok value, last) ∧
    value.hashKey? = some hashKey
  | condition tree truth => ∃ value, (tree.evaluate apply frame).on machine = (.ok value, last) ∧
    value.isTruthy = truth
  | statement tree => ∃ value, (tree.evaluate apply frame).on machine = (.ok value, last)

end Earlier

/-- What comes before a position, in the order of evaluation. -/
def Position.before {inner : Piece} : {outer : Piece} → Position inner outer → List Earlier
  | _, here => []
  | _, inside layer position => Earlier.ofLayer layer ++ position.before

/-- Evaluation gets past everything in a list, from one state to another. -/
def PassesAll (apply : Application) (frame : Nat) : List Earlier → Machine → Machine → Prop
  | [], machine, last => machine = last
  | first :: rest, machine, last => ∃ middle, first.Passes apply frame machine middle ∧
    PassesAll apply frame rest middle last

section Tree

variable {apply : Application} {frame : Nat} {machine middle last : Machine} {signal : Signal}

theorem passesAll_append {before behind : List Earlier} :
    PassesAll apply frame (before ++ behind) machine last ↔
      ∃ middle, PassesAll apply frame before machine middle ∧
        PassesAll apply frame behind middle last := by
  induction before generalizing machine with
  | nil =>
    constructor
    · exact fun passes => ⟨machine, rfl, passes⟩
    · rintro ⟨_, rfl, passes⟩
      exact passes
  | cons first before inductionHypothesis =>
    constructor
    · rintro ⟨next, passes, rest⟩
      obtain ⟨middle, passesRest, further⟩ := inductionHypothesis.mp rest
      exact ⟨middle, ⟨next, passes, passesRest⟩, further⟩
    · rintro ⟨middle, ⟨next, passes, passesRest⟩, further⟩
      exact ⟨next, passes, inductionHypothesis.mpr ⟨middle, passesRest, further⟩⟩

/-! ### Signals in lists -/

theorem evaluateAll_raises {before behind : List Expression} {code : Expression}
    (passes : PassesAll apply frame (before.map .expression) machine middle)
    (raises : (code.evaluate apply frame).on middle = (.error signal, last)) :
    (evaluateAll apply frame (before ++ code :: behind)).on machine = (.error signal, last) := by
  induction before generalizing machine with
  | nil =>
    obtain rfl : machine = middle := passes
    exact on_bind_error raises
  | cons first before inductionHypothesis =>
    obtain ⟨next, ⟨value, yields⟩, passes⟩ := passes
    exact (on_bind_ok yields).trans (on_bind_error (inductionHypothesis passes))

theorem evaluateStatements_raises {before behind : List Statement} {code : Statement}
    (passes : PassesAll apply frame (before.map .statement) machine middle)
    (raises : (code.evaluate apply frame).on middle = (.error signal, last)) (previous : Value) :
    (evaluateStatements apply frame (before ++ code :: behind) previous).on machine =
      (.error signal, last) := by
  induction before generalizing machine previous with
  | nil =>
    obtain rfl : machine = middle := passes
    exact on_bind_error raises
  | cons first before inductionHypothesis =>
    obtain ⟨next, ⟨value, yields⟩, passes⟩ := passes
    exact (on_bind_ok yields).trans (inductionHypothesis passes value)

/-- Pairs in front of which evaluation has got end as the pairs behind them do, if these raise a
signal whatever entries they find. -/
theorem evaluatePairs_raises {before behind : List (Expression × Expression)}
    (passes : PassesAll apply frame
      (before.flatMap fun pair => [.key pair.1, .expression pair.2]) machine middle)
    (raises : ∀ entries, (evaluatePairs apply frame behind entries).on middle =
      (.error signal, last)) (entries : List (Entry Value)) :
    (evaluatePairs apply frame (before ++ behind) entries).on machine = (.error signal, last) := by
  induction before generalizing machine entries with
  | nil =>
    obtain rfl : machine = middle := passes
    exact raises entries
  | cons first before inductionHypothesis =>
    obtain ⟨second, ⟨key, hashKey, yieldsKey, usable⟩, third, ⟨value, yieldsValue⟩, passes⟩ :=
      passes
    refine (on_bind_ok yieldsKey).trans ?_
    refine (on_bind_ok (requireHashKey_on_of_some usable)).trans ?_
    exact (on_bind_ok yieldsValue).trans (inductionHypothesis passes _)

/-! ### Signals at a position -/

/-- What raises a signal in a gap raises it in the code directly around the gap. -/
theorem Layer.raises {inner outer : Piece} (layer : Layer inner outer) {code : inner.Code}
    (passes : PassesAll apply frame (Earlier.ofLayer layer) machine middle)
    (raises : (inner.evaluate apply frame code).on middle = (.error signal, last)) :
    (outer.evaluate apply frame (layer.fill code)).on machine = (.error signal, last) := by
  cases layer with
  | operand | left | callee | collection | binding | returning =>
    obtain rfl : machine = middle := passes
    exact on_bind_error raises
  | evaluated =>
    obtain rfl : machine = middle := passes
    exact raises
  | condition consequence alternative =>
    obtain rfl : machine = middle := passes
    cases alternative <;> exact on_bind_error raises
  | right left =>
    obtain ⟨_, ⟨value, yields⟩, rfl⟩ := passes
    exact (on_bind_ok yields).trans (on_bind_error raises)
  | position collection =>
    obtain ⟨_, ⟨value, yields⟩, rfl⟩ := passes
    exact (on_bind_ok yields).trans (on_bind_error raises)
  | consequence tested alternative =>
    obtain ⟨_, ⟨value, yields, truthy⟩, rfl⟩ := passes
    cases alternative <;>
    · refine (on_bind_ok yields).trans ?_
      rw [if_pos truthy]
      exact raises
  | alternative tested consequence =>
    obtain ⟨_, ⟨value, yields, falsy⟩, rfl⟩ := passes
    refine (on_bind_ok yields).trans ?_
    rw [if_neg (Bool.eq_false_iff.mp falsy)]
    exact raises
  | argument callee before behind =>
    obtain ⟨next, ⟨value, yields⟩, passes⟩ := passes
    exact (on_bind_ok yields).trans (on_bind_error (evaluateAll_raises passes raises))
  | element before behind => exact on_bind_error (evaluateAll_raises passes raises)
  | key before value behind =>
    exact evaluatePairs_raises passes (fun entries => on_bind_error raises) []
  | value before own behind =>
    obtain ⟨next, passesBefore, _, ⟨keyed, hashKey, yields, usable⟩, rfl⟩ :=
      passesAll_append.mp passes
    refine evaluatePairs_raises passesBefore (fun entries => ?_) []
    refine (on_bind_ok yields).trans ?_
    exact (on_bind_ok (requireHashKey_on_of_some usable)).trans (on_bind_error raises)
  | statement before behind => exact evaluateStatements_raises passes raises .null

/-- What raises a signal in a gap raises it in all the code around the gap. -/
theorem Position.raises {inner outer : Piece} (position : Position inner outer)
    {code : inner.Code} (passes : PassesAll apply frame position.before machine middle)
    (raises : (inner.evaluate apply frame code).on middle = (.error signal, last)) :
    (outer.evaluate apply frame (position.fill code)).on machine = (.error signal, last) := by
  induction position generalizing machine with
  | here =>
    obtain rfl : machine = middle := passes
    exact raises
  | inside layer position inductionHypothesis =>
    obtain ⟨next, passes, further⟩ := passesAll_append.mp passes
    exact layer.raises passes (inductionHypothesis further)

end Tree

/-! ### Calls and programs -/

theorem Signal.afterCall_ne_returning (outcome : Except Signal Value) (value : Value) :
    Signal.afterCall outcome ≠ .error (.returning value) := by
  obtain (_ | _) | _ := outcome <;> exact nofun

/-- No call ends with a `return`. -/
theorem applyAtDepth_on_ne_returning (limit : Nat) (callee : Value) (arguments : List Value)
    (machine : Machine) (value : Value) :
    ((applyAtDepth limit callee arguments).on machine).1 ≠ .error (.returning value) := by
  cases callee with
  | function closure =>
    by_cases right : closure.parameters.length = arguments.length
    · rcases Nat.lt_or_ge machine.depth limit with more | deepest
      · rw [applyAtDepth_on_of_lt right more rfl]
        exact Signal.afterCall_ne_returning _ value
      · rw [applyAtDepth_on_of_le right deepest]
        exact nofun
    · rw [applyAtDepth_on_of_ne right]
      exact nofun
  | builtin builtin =>
    rw [applyAtDepth_on_builtin]
    cases builtin.call arguments <;> exact nofun
  | _ => exact nofun

/-- Signals stop everything to their right. When evaluation gets past all that comes before a
position, and the code at the position raises a signal, then the program or the body around it ends
with this signal and in the state in which it was raised. So it does with any other code around the
position, as long as the same comes before it. The program results in what was returned, or in the
error of the failure; the call has what was returned for its value, or fails in turn. No call ends
with a `return`. -/
theorem signals_stop {limit frame : Nat} {piece : Piece} {position : Position piece .block}
    {code : piece.Code} {machine middle last : Machine} {signal : Signal}
    (passes : PassesAll (applyAtDepth limit) frame position.before machine middle)
    (raises : (piece.evaluate (applyAtDepth limit) frame code).on middle = (.error signal, last)) :
    (∀ other : Position piece .block, other.before = position.before →
      (evaluateStatements (applyAtDepth limit) frame (other.fill code) .null).on machine =
          (.error signal, last) ∧
      (∀ start : Machine, { start with depth := 0 } = machine →
        StateT.run (Program.execute limit frame ⟨other.fill code⟩) start =
          (match signal with
            | .returning value => value
            | .failure cause => .error cause.message, last)) ∧
      ∀ (start : Machine) (closure : Closure) (arguments : List Value),
        closure.body = other.fill code → closure.parameters.length = arguments.length →
        start.depth < limit → start.scopes.size = frame →
        (start.withFrame (closure.frameOfCall arguments)).entered = machine →
        (applyAtDepth limit (.function closure) arguments).on start =
          (match signal with
            | .returning value => .ok value
            | .failure cause => .error (.failure cause), last.left)) ∧
    ∀ (callee : Value) (arguments : List Value) (start : Machine) (value : Value),
      ((applyAtDepth limit callee arguments).on start).1 ≠ .error (.returning value) := by
  refine ⟨fun other same => ?_, applyAtDepth_on_ne_returning limit⟩
  have body : (evaluateStatements (applyAtDepth limit) frame (other.fill code) .null).on machine =
      (.error signal, last) := other.raises (same ▸ passes) raises
  refine ⟨body, ?_, ?_⟩
  · rintro start rfl
    rw [Program.execute_run, Program.outcome, body]
    cases signal <;> rfl
  · rintro start closure arguments isBody right more rfl rfl
    rw [← isBody] at body
    rw [applyAtDepth_on_of_lt right more body]
    cases signal <;> rfl

/-- The gap in `puts(1); let x = [2, {true: if (true) { … }}, puts(3)]; puts(4)`, and one with
nothing behind it. -/
theorem signals_stop_inHash :
    let deeper : Position .statement .expression :=
      .inside (.value [] (.boolean true) [])
        (.inside (.consequence (.boolean true) none) (.inside (.statement [] []) .here))
    let first : Statement := .expression (.call (.identifier "puts") [.integer 1])
    let position : Position .statement .block :=
      .inside (.statement [first] [.expression (.call (.identifier "puts") [.integer 4])])
        (.inside (.binding "x")
          (.inside (.element [.integer 2] [.call (.identifier "puts") [.integer 3]]) deeper))
    let other : Position .statement .block :=
      .inside (.statement [first] [])
        (.inside .returning (.inside (.element [.integer 2] []) deeper))
    let code : Statement := .returning (.integer 7)
    let last := Machine.initial.withText "1\n"
    (PassesAll (applyAtDepth 1) rootFrame position.before .initial last ∧
      (code.evaluate (applyAtDepth 1) rootFrame).on last =
        (.error (.returning (.integer 7)), last)) ∧
    StateT.run (Program.execute 1 rootFrame ⟨position.fill code⟩) .initial = (.integer 7, last) ∧
    StateT.run (Program.execute 1 rootFrame ⟨other.fill code⟩) .initial = (.integer 7, last) := by
  intro deeper first position other code last
  have passes : PassesAll (applyAtDepth 1) rootFrame position.before .initial last := by
    refine ⟨last, ⟨.null, ?_⟩, last, ⟨.integer 2, rfl⟩, last, ⟨.boolean true, _, rfl, rfl⟩, last,
      ⟨.boolean true, rfl, rfl⟩, rfl⟩
    with_unfolding_all rfl
  have raises : (Piece.statement.evaluate (applyAtDepth 1) rootFrame code).on last =
      (.error (.returning (.integer 7)), last) := rfl
  have stops := (signals_stop passes raises).1
  exact ⟨⟨passes, raises⟩, (stops position rfl).2.1 .initial rfl,
    (stops other rfl).2.1 .initial rfl⟩

end MonkeyLang
