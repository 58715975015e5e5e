/-
This file follows programs through all the states that they pass. Evaluation
itself tells only its outcome and the last state, so the states before are told
beside it: the history of an expression lists the moments that its evaluation
passes, in order, and is put together from the histories of its parts as
evaluation is from theirs.

A moment holds the state and the frames in which something is being evaluated.
The theorem here is that a history leaves nothing out: every moment follows from
the one before by a single step, and the last one holds the state that
evaluation ends in.
-/

import MonkeyLang.Proofs.Effects

namespace MonkeyLang

open Machine

/-! ### Moments -/

/-- A moment of a run: the state, and the frames in which something is being evaluated, that of the
innermost call first. -/
structure Moment where
  machine : Machine
  active : List Nat

namespace Moment

/-- What can happen between a moment and the next. -/
inductive Next : Moment → Moment → Prop
  /-- A name is bound in the innermost of the active frames. -/
  | binds (machine : Machine) (frame : Nat) (outer : List Nat) (name : String) (value : Value) :
    Next ⟨machine, frame :: outer⟩
      ⟨{ machine with scopes := machine.scopes.set frame name value }, frame :: outer⟩
  | makesFunction (machine : Machine) (active : List Nat) :
    Next ⟨machine, active⟩ ⟨{ machine with functions := machine.functions + 1 }, active⟩
  | writes (machine : Machine) (active : List Nat) (text : String) :
    Next ⟨machine, active⟩ ⟨{ machine with output := machine.output ++ text }, active⟩
  /-- A call begins: its frame is made, and becomes active. -/
  | begins (machine : Machine) (active : List Nat) (frame : Frame) :
    Next ⟨machine, active⟩ ⟨machine.withFrame frame, machine.scopes.size :: active⟩
  | enters (machine : Machine) (active : List Nat) :
    Next ⟨machine, active⟩ ⟨machine.entered, active⟩
  /-- A call is refused, since too many are active. -/
  | refuses (machine : Machine) (frame : Nat) (outer : List Nat) :
    Next ⟨machine, frame :: outer⟩ ⟨machine, outer⟩
  /-- A call ends, however its body ended. -/
  | ends (machine : Machine) (frame : Nat) (outer : List Nat) :
    Next ⟨machine, frame :: outer⟩ ⟨machine.left, outer⟩
  /-- A program starts, outside any call. -/
  | starts (machine : Machine) (active : List Nat) :
    Next ⟨machine, active⟩ ⟨{ machine with depth := 0 }, active⟩

end Moment

/-- The moments after a first one, each of which follows from the one before, up to a last one. -/
inductive Course : Moment → List Moment → Moment → Prop
  | here (moment : Moment) : Course moment [] moment
  | onward {first second last : Moment} {rest : List Moment} (next : first.Next second)
      (course : Course second rest last) : Course first (second :: rest) last

namespace Course

variable {first middle last : Moment} {front rest : List Moment}

theorem single (next : first.Next last) : Course first [last] last :=
  onward next (here last)

theorem append (course : Course first front middle) (further : Course middle rest last) :
    Course first (front ++ rest) last := by
  induction course with
  | here => exact further
  | onward next _ inductionHypothesis => exact onward next (inductionHypothesis further)

/-- A course is cut in two at each of its moments. -/
theorem cut : ∀ {front : List Moment} {first : Moment},
    Course first (front ++ middle :: rest) last →
      Course first (front ++ [middle]) middle ∧ Course middle rest last
  | [], _, onward next course => ⟨single next, course⟩
  | _ :: _, _, onward next course => ⟨onward next course.cut.1, course.cut.2⟩

/-- What every step preserves holds throughout a course that it holds before. -/
theorem invariant {property : Moment → Prop}
    (preserved : ∀ {earlier later : Moment}, earlier.Next later → property earlier → property later)
    (course : Course first rest last) (holds : property first) :
    ∀ moment ∈ rest, property moment := by
  induction course with
  | here => exact fun _ none => absurd none List.not_mem_nil
  | onward next _ inductionHypothesis =>
    have second := preserved next holds
    exact List.forall_mem_cons.mpr ⟨second, inductionHypothesis second⟩

end Course

/-! ### Histories -/

/-- The moments that a computation passes after the state it starts from. -/
abbrev History :=
  Machine → List Moment

namespace History

/-- The history of a computation that keeps the state. -/
def still : History :=
  fun _ => []

/-- The history of a single step, with the frames that are active behind it. -/
def ofStep {α : Type} (step : Step α) (active : List Nat) : History :=
  fun machine => [⟨(StateT.run step machine).2, active⟩]

/-- The history of a sequence: that of its first part and, unless a signal cuts this short, that of
the second. -/
def andThen {α : Type} (computation : Computation α) (first : History) (second : α → History) :
    History := fun machine =>
  first machine ++
    match computation.on machine with
    | (.ok result, middle) => second result middle
    | (.error _, _) => []

end History

/-! ### Histories of evaluation -/

section Tree

variable (apply : Application) (calls : Value → List Value → History) (frame : Nat)
  (outer : List Nat)

mutual

/-- The history of an expression in a frame, given the histories of calls. -/
def Expression.history : Expression → History
  | .identifier _ => .still
  | .integer _ => .still
  | .string _ => .still
  | .boolean _ => .still
  | .unary _ operand => operand.history
  | .binary left _ right => .andThen (left.evaluate apply frame) left.history fun _ => right.history
  | .conditional condition consequence none =>
    .andThen (condition.evaluate apply frame) condition.history fun condition =>
      if condition.isTruthy then historyOfStatements consequence .null else .still
  | .conditional condition consequence (some alternative) =>
    .andThen (condition.evaluate apply frame) condition.history fun condition =>
      if condition.isTruthy then historyOfStatements consequence .null
      else historyOfStatements alternative .null
  | .function parameters body => .ofStep (newFunction parameters body frame) (frame :: outer)
  | .call callee arguments =>
    .andThen (callee.evaluate apply frame) callee.history fun callee =>
      .andThen (evaluateAll apply frame arguments) (historyOfAll arguments) fun arguments =>
        calls callee arguments
  | .array elements => historyOfAll elements
  | .index collection position =>
    .andThen (collection.evaluate apply frame) collection.history fun _ => position.history
  | .hash pairs => historyOfPairs pairs
termination_by structural expression => expression

/-- The history of expressions that are evaluated in order. -/
def historyOfAll : List Expression → History
  | [] => .still
  | expression :: rest =>
    .andThen (expression.evaluate apply frame) expression.history fun _ => historyOfAll rest
termination_by structural expressions => expressions

/-- The history of the pairs of a hash. -/
def historyOfPairs : List (Expression × Expression) → History
  | [] => .still
  | (key, value) :: rest =>
    .andThen (key.evaluate apply frame) key.history fun key =>
      .andThen (requireHashKey key) .still fun _ =>
        .andThen (value.evaluate apply frame) value.history fun _ => historyOfPairs rest
termination_by structural pairs => pairs

/-- The history of a statement in a frame. -/
def Statement.history : Statement → History
  | .binding name value =>
    .andThen (value.evaluate apply frame) value.history fun value =>
      .ofStep (bindName frame name value) (frame :: outer)
  | .returning value => value.history
  | .expression value => value.history
termination_by structural statement => statement

/-- The history of statements that are evaluated in order. -/
def historyOfStatements : List Statement → Value → History
  | [], _ => .still
  | statement :: rest, _ =>
    .andThen (statement.evaluate apply frame) statement.history fun value =>
      historyOfStatements rest value
termination_by structural statements => statements

end

end Tree

/-- The history of a call, given that of the body. The frame of the call is active from the moment
it is made until the call is refused or ends. -/
def Closure.history (limit : Nat) (runBody : Nat → Block → Computation Value)
    (bodies : Nat → List Nat → Block → History) (active : List Nat) (closure : Closure)
    (arguments : List Value) : History := fun machine =>
  if closure.parameters.length ≠ arguments.length then []
  else
    let frame := machine.scopes.size
    let framed := machine.withFrame (closure.frameOfCall arguments)
    if limit ≤ machine.depth then [⟨framed, frame :: active⟩, ⟨framed, active⟩]
    else
      let last := ((runBody frame closure.body).on framed.entered).2
      ⟨framed, frame :: active⟩ :: ⟨framed.entered, frame :: active⟩ ::
        (bodies frame active closure.body framed.entered ++ [⟨last.left, active⟩])

/-- The history of the call of a value, given those of bodies. -/
def historyWith (limit : Nat) (runBody : Nat → Block → Computation Value)
    (bodies : Nat → List Nat → Block → History) (active : List Nat) :
    Value → List Value → History
  | .function closure, arguments => closure.history limit runBody bodies active arguments
  | .builtin builtin, arguments =>
    .andThen (.ofExcept (builtin.call arguments)) .still fun reply =>
      .ofStep (write reply.written) active
  | _, _ => .still

/-- The history of the body of a function in the frame of its call, where the given number of calls
may still become active. -/
def bodyHistory (limit : Nat) : Nat → Nat → List Nat → Block → History
  | 0, _, _, _ => .still
  | further + 1, frame, outer, body =>
    historyOfStatements (applyWith limit (runBody limit further))
      (historyWith limit (runBody limit further) (bodyHistory limit further) (frame :: outer))
      frame outer body .null

/-- The history of the call of a value at the depth of the current state. -/
def historyAtDepth (limit : Nat) (active : List Nat) (callee : Value) (arguments : List Value) :
    History := fun machine =>
  historyWith limit (runBody limit (limit - machine.depth))
    (bodyHistory limit (limit - machine.depth)) active callee arguments machine

/-- The history of a program in a frame. -/
def Program.history (limit frame : Nat) (program : Program) : History := fun machine =>
  let start : Machine := { machine with depth := 0 }
  ⟨start, [frame]⟩ ::
    historyOfStatements (applyAtDepth limit) (historyAtDepth limit [frame]) frame []
      program.statements .null start

/-! ### Sessions -/

/-- The state behind programs that are executed one after another in a frame. -/
def executeAll (limit frame : Nat) : List Program → Machine → Machine
  | [], machine => machine
  | program :: rest, machine =>
    executeAll limit frame rest (StateT.run (program.execute limit frame) machine).2

/-- The history of programs that are executed one after another in a frame. -/
def sessionHistory (limit frame : Nat) : List Program → History
  | [], _ => []
  | program :: rest, machine =>
    program.history limit frame machine ++
      sessionHistory limit frame rest (StateT.run (program.execute limit frame) machine).2

/-! ### Told histories -/

/-- What comes last may keep the state, and then adds nothing. -/
theorem History.andThen_still {α : Type} (computation : Computation α) (history : History) :
    andThen computation history (fun _ => still) = history := by
  funext machine
  rw [andThen]
  obtain ⟨_ | _, _⟩ := computation.on machine
  · exact List.append_nil _
  · exact List.append_nil _

/-- Something that can be told of computations and their histories: it is true of those that keep
the state, and of sequences whose parts it is true of. -/
structure Sequential (told : {α : Type} → Computation α → History → Prop) : Prop where
  still {α : Type} {computation : Computation α} : Still computation → told computation .still
  andThen {α β : Type} {computation : Computation α} {next : α → Computation β}
    {history : History} {further : α → History} : told computation history →
      (∀ result, told (next result) (further result)) →
      told (computation >>= next) (.andThen computation history further)

theorem Sequential.andStill {told : {α : Type} → Computation α → History → Prop} {α β : Type}
    {computation : Computation α} {next : α → Computation β} {history : History}
    (sequential : Sequential told) (first : told computation history)
    (second : ∀ result, Still (next result)) : told (computation >>= next) history := by
  rw [← History.andThen_still computation history]
  exact sequential.andThen first fun result => sequential.still (second result)

/-- Something that can be told of evaluation in a frame: it is true of the single steps as well. -/
structure Narration (told : {α : Type} → Computation α → History → Prop) (frame : Nat)
    (outer : List Nat) : Prop extends Sequential told where
  makesFunction (parameters : List String) (body : Block) :
    told (liftM (newFunction parameters body frame) : Computation Value)
      (.ofStep (newFunction parameters body frame) (frame :: outer))
  binds (name : String) (value : Value) :
    told (liftM (bindName frame name value) : Computation Unit)
      (.ofStep (bindName frame name value) (frame :: outer))

section Tree

variable {told : {α : Type} → Computation α → History → Prop} {apply : Application}
  {calls : Value → List Value → History} {frame : Nat} {outer : List Nat}
  (narration : Narration told frame outer)
  (toldOfCalls : ∀ callee arguments, told (apply callee arguments) (calls callee arguments))

include narration toldOfCalls

set_option linter.unusedSectionVars false in
mutual

/-- What is true of all calls and their histories is true of expressions and theirs. -/
theorem Expression.told : ∀ expression : Expression,
    told (expression.evaluate apply frame) (expression.history apply calls frame outer)
  | .identifier name => narration.still (still_resolve frame name)
  | .integer _ => narration.still (still_pure _)
  | .string _ => narration.still (still_pure _)
  | .boolean _ => narration.still (still_pure _)
  | .unary _ operand => narration.andStill operand.told fun _ => still_ofExcept _
  | .binary left _ right =>
    narration.andThen left.told fun _ => narration.andStill right.told fun _ => still_ofExcept _
  | .conditional condition consequence none => by
    refine narration.andThen condition.told fun value => ?_
    cases value.isTruthy with
    | true => exact told_evaluateStatements consequence .null
    | false => exact narration.still (still_pure _)
  | .conditional condition consequence (some alternative) => by
    refine narration.andThen condition.told fun value => ?_
    cases value.isTruthy with
    | true => exact told_evaluateStatements consequence .null
    | false => exact told_evaluateStatements alternative .null
  | .function parameters body => narration.makesFunction parameters body
  | .call callee arguments =>
    narration.andThen callee.told fun callee =>
      narration.andThen (told_evaluateAll arguments) fun arguments => toldOfCalls callee arguments
  | .array elements => narration.andStill (told_evaluateAll elements) fun _ => still_pure _
  | .index collection position =>
    narration.andThen collection.told fun _ =>
      narration.andStill position.told fun _ => still_ofExcept _
  | .hash pairs => told_evaluatePairs pairs []
termination_by structural expression => expression

theorem told_evaluateAll : ∀ expressions : List Expression,
    told (evaluateAll apply frame expressions) (historyOfAll apply calls frame outer expressions)
  | [] => narration.still (still_pure [])
  | expression :: rest =>
    narration.andThen expression.told fun _ =>
      narration.andStill (told_evaluateAll rest) fun _ => still_pure _
termination_by structural expressions => expressions

theorem told_evaluatePairs : ∀ (pairs : List (Expression × Expression))
    (entries : List (Entry Value)),
    told (evaluatePairs apply frame pairs entries)
      (historyOfPairs apply calls frame outer pairs)
  | [], _ => narration.still (still_pure _)
  | (key, value) :: rest, _ =>
    narration.andThen key.told fun key =>
      narration.andThen (narration.still (still_requireHashKey key)) fun _ =>
        narration.andThen value.told fun _ => told_evaluatePairs rest _
termination_by structural pairs => pairs

theorem Statement.told : ∀ statement : Statement,
    told (statement.evaluate apply frame) (statement.history apply calls frame outer)
  | .binding name value =>
    narration.andThen value.told fun value =>
      narration.andStill (narration.binds name value) fun _ => still_pure _
  | .returning value => narration.andStill value.told fun _ => still_throw _
  | .expression value => value.told
termination_by structural statement => statement

theorem told_evaluateStatements : ∀ (statements : List Statement) (last : Value),
    told (evaluateStatements apply frame statements last)
      (historyOfStatements apply calls frame outer statements last)
  | [], last => narration.still (still_pure last)
  | statement :: rest, _ =>
    narration.andThen statement.told fun value => told_evaluateStatements rest value
termination_by structural statements => statements

end

end Tree

/-- What is true of the calls of functions and of the writing of text is true of all calls. -/
theorem told_applyWith {told : {α : Type} → Computation α → History → Prop} {limit : Nat}
    {runBody : Nat → Block → Computation Value} {bodies : Nat → List Nat → Block → History}
    {active : List Nat} (sequential : Sequential told)
    (writes : ∀ text, told (liftM (write text) : Computation Unit) (.ofStep (write text) active))
    (functions : ∀ (closure : Closure) (arguments : List Value),
      told (closure.call limit runBody arguments)
        (closure.history limit runBody bodies active arguments)) :
    ∀ callee arguments, told (applyWith limit runBody callee arguments)
      (historyWith limit runBody bodies active callee arguments)
  | .function closure, arguments => functions closure arguments
  | .builtin _, _ =>
    sequential.andThen (sequential.still (still_ofExcept _)) fun reply =>
      sequential.andStill (writes reply.written) fun _ => still_pure _
  | .integer _, _ | .string _, _ | .boolean _, _ | .null, _ | .array _, _ | .hash _, _
  | .error _, _ => sequential.still (still_throw _)

/-! ### Nothing is left out -/

/-- A history that tells the course of a computation from every state on, while the given frames are
active. -/
def Tells {α : Type} (active : List Nat) (computation : Computation α) (history : History) : Prop :=
  ∀ machine : Machine,
    Course ⟨machine, active⟩ (history machine) ⟨(computation.on machine).2, active⟩

section Sequences

variable {α β : Type} {active : List Nat} {computation : Computation α}
  {next : α → Computation β} {history : History} {further : α → History}

theorem Still.tells (still : Still computation) : Tells active computation .still := by
  intro machine
  rw [still machine]
  exact .here _

theorem Tells.bind (first : Tells active computation history)
    (second : ∀ result, Tells active (next result) (further result)) :
    Tells active (computation >>= next) (.andThen computation history further) := by
  intro machine
  have course := first machine
  rw [on_bind, History.andThen]
  rcases found : computation.on machine with ⟨_ | result, middle⟩
  · rw [found] at course
    exact course.append (.here _)
  · rw [found] at course
    exact course.append (second result middle)

end Sequences

theorem sequential_tells (active : List Nat) : Sequential (Tells active) where
  still := Still.tells
  andThen := Tells.bind

/-- Histories tell the course of evaluation. -/
theorem narration_tells (frame : Nat) (outer : List Nat) :
    Narration (Tells (frame :: outer)) frame outer where
  toSequential := sequential_tells (frame :: outer)
  makesFunction _ _ machine := .single (.makesFunction machine (frame :: outer))
  binds name value machine := .single (.binds machine frame outer name value)

/-! ### Calls leave nothing out -/

section Calls

variable {limit : Nat} {runBody : Nat → Block → Computation Value}
  {bodies : Nat → List Nat → Block → History}
  (tells : ∀ frame outer body, Tells (frame :: outer) (runBody frame body)
    (bodies frame outer body))

include tells

theorem Closure.tells_call (active : List Nat) (closure : Closure) (arguments : List Value) :
    Tells active (closure.call limit runBody arguments)
      (closure.history limit runBody bodies active arguments) := by
  intro machine
  rw [Closure.history]
  by_cases right : closure.parameters.length = arguments.length
  · rw [if_neg (not_not_intro right), Closure.call_on_of_eq right]
    let framed := machine.withFrame (closure.frameOfCall arguments)
    have begins := Moment.Next.begins machine active (closure.frameOfCall arguments)
    by_cases deepest : limit ≤ machine.depth
    · simp only [if_pos deepest]
      exact .onward begins (.single (.refuses framed machine.scopes.size active))
    · simp only [if_neg deepest]
      have inside := tells machine.scopes.size active closure.body framed.entered
      rw [still_endCall]
      refine .onward begins (.onward (.enters framed _) ?_)
      exact inside.append (.single (.ends _ machine.scopes.size active))
  · rw [if_pos right, Closure.call_on_of_ne right]
    exact .here _

theorem tells_applyWith (active : List Nat) (callee : Value) (arguments : List Value) :
    Tells active (applyWith limit runBody callee arguments)
      (historyWith limit runBody bodies active callee arguments) :=
  told_applyWith (sequential_tells active)
    (fun text machine => .single (.writes machine active text))
    (Closure.tells_call tells active) callee arguments

end Calls

theorem tells_runBody (limit : Nat) : ∀ further frame outer body,
    Tells (frame :: outer) (runBody limit further frame body)
      (bodyHistory limit further frame outer body)
  | 0, _, _, _ => (still_throw _).tells
  | further + 1, frame, outer, body =>
    told_evaluateStatements (narration_tells frame outer)
      (tells_applyWith (tells_runBody limit further) (frame :: outer)) body .null

theorem tells_applyAtDepth (limit : Nat) (active : List Nat) (callee : Value)
    (arguments : List Value) :
    Tells active (applyAtDepth limit callee arguments)
      (historyAtDepth limit active callee arguments) := by
  intro machine
  rw [applyAtDepth_on]
  exact tells_applyWith (tells_runBody limit _) active callee arguments machine

/-! ### Programs leave nothing out -/

theorem Program.course_history (limit frame : Nat) (program : Program) (machine : Machine) :
    Course ⟨machine, [frame]⟩ (program.history limit frame machine)
      ⟨(StateT.run (program.execute limit frame) machine).2, [frame]⟩ :=
  .onward (.starts machine [frame])
    (told_evaluateStatements (narration_tells frame []) (tells_applyAtDepth limit [frame])
      program.statements .null { machine with depth := 0 })

/-- The history of a session tells every step between its first state and its last. -/
theorem course_sessionHistory (limit frame : Nat) : ∀ (programs : List Program) (machine : Machine),
    Course ⟨machine, [frame]⟩ (sessionHistory limit frame programs machine)
      ⟨executeAll limit frame programs machine, [frame]⟩
  | [], machine => .here ⟨machine, [frame]⟩
  | program :: rest, machine =>
    (program.course_history limit frame machine).append
      (course_sessionHistory limit frame rest (StateT.run (program.execute limit frame) machine).2)

end MonkeyLang
