/-
This file proves that evaluation leaves the depth as it found it, on every way
out, and that what has been written stays written. Both come from the alignment
of a run with itself.

Since the depth is restored, it always tells how many calls may still become
active. So a call does with the body of a function just what evaluation at the
depth of the state does, and the number by which `runBody` recurses is of no
further concern.
-/

import MonkeyLang.Proofs.Evaluation.Alignment

namespace MonkeyLang

open Machine

/-! ### Depth and output -/

/-- The text of one state is the beginning of that of another. -/
def Machine.WritesBefore (machine machine' : Machine) : Prop :=
  ∃ text, machine'.output = machine.output ++ text

namespace Machine.WritesBefore

theorem of_eq {machine machine' : Machine} (same : machine.output = machine'.output) :
    machine.WritesBefore machine' :=
  ⟨"", by rw [same, String.append_empty]⟩

theorem trans {first second third : Machine} (left : first.WritesBefore second)
    (right : second.WritesBefore third) : first.WritesBefore third := by
  obtain ⟨before, written⟩ := left
  obtain ⟨behind, more⟩ := right
  exact ⟨before ++ behind, by rw [more, written, String.append_assoc]⟩

end Machine.WritesBefore

/-- As many calls are active as before, and what had been written still is. -/
structure Machine.Continues (before after : Machine) : Prop where
  depth : after.depth = before.depth
  output : before.WritesBefore after

theorem Machine.Continues.refl (machine : Machine) : machine.Continues machine :=
  ⟨rfl, .of_eq rfl⟩

namespace Alignment

/-- The alignment of runs that differ only in what had been written before them. -/
def apart (limit depth : Nat) (earlier earlier' : String) : Alignment Eq limit limit where
  aligned level machine machine' := machine.depth = depth + level ∧
    ∃ text, machine.output = earlier ++ text ∧ machine' = { machine with output := earlier' ++ text }
  frames := Eq
  start := depth
  start' := depth
  remaining := rfl
  depth := by
    rintro level machine _ ⟨atDepth, text, -, rfl⟩
    exact ⟨atDepth, atDepth⟩
  literal := by
    rintro closure _ rfl
    exact ⟨rfl, rfl⟩
  found := by
    rintro level machine _ frame _ ⟨-, text, -, rfl⟩ rfl name
    cases machine.scopes.get? frame name with
    | none => exact .none
    | some value => exact .some (.refl (fun _ => rfl) value)
  made := by
    rintro level machine _ frame _ ⟨-, text, -, rfl⟩ rfl parameters body
    rfl
  withFunction := by
    rintro level machine _ ⟨atDepth, text, written, rfl⟩
    exact ⟨atDepth, text, written, rfl⟩
  withBinding := by
    rintro level machine _ frame _ name value value' ⟨atDepth, text, written, rfl⟩ rfl similar
    rw [similar.eq]
    exact ⟨atDepth, text, written, rfl⟩
  withText := by
    rintro level machine _ more ⟨atDepth, text, written, rfl⟩
    refine ⟨atDepth, text ++ more, (congrArg (· ++ more) written).trans String.append_assoc, ?_⟩
    rw [← String.append_assoc]
    rfl
  withFrame := by
    rintro level machine _ closure _ arguments arguments' ⟨atDepth, text, written, rfl⟩ rfl similar
    rw [eq_of_forall₂_similar similar]
    exact ⟨rfl, atDepth, text, written, rfl⟩
  entered := by
    rintro level machine _ ⟨atDepth, text, written, rfl⟩
    exact ⟨congrArg (· + 1) atDepth, text, written, rfl⟩
  left := by
    rintro level machine _ ⟨atDepth, text, written, rfl⟩
    exact ⟨congrArg (· - 1) atDepth, text, written, rfl⟩

/-- A state is aligned with itself after something else was written. -/
theorem aligned_apart (limit : Nat) (machine : Machine) (earlier : String) :
    (apart limit machine.depth machine.output earlier).aligned 0 machine
      { machine with output := earlier } :=
  ⟨rfl, "", String.append_empty.symm, by rw [String.append_empty]⟩

/-- What keeps the alignment of a run with itself continues the run. -/
theorem continues {limit : Nat} {machine : Machine} {α : Type} {results : α → α → Prop}
    {computation : Computation α}
    (relates : ((apart limit machine.depth machine.output machine.output).comparison 0).relates
      results computation computation) : machine.Continues (computation.on machine).2 := by
  obtain ⟨-, depth, text, written, -⟩ := relates (aligned_apart limit machine machine.output)
  exact ⟨depth, text, written⟩

end Alignment

/-- Statements leave the depth and what has been written as they found them, whether or not a signal
ends them. -/
theorem continues_evaluateStatements (limit frame : Nat) (machine : Machine)
    (statements : List Statement) (last : Value) :
    machine.Continues
      ((evaluateStatements (applyAtDepth limit) frame statements last).on machine).2 :=
  Alignment.continues (related_evaluateStatements (Alignment.respects_applyAtDepth _ 0 rfl)
    statements (.refl (fun _ => rfl) last))

/-- What had been written before makes no difference to what statements do and write. -/
theorem evaluateStatements_on_output (limit frame : Nat) (machine : Machine)
    (statements : List Statement) (last : Value) (earlier : String) :
    let run := (evaluateStatements (applyAtDepth limit) frame statements last).on machine
    ∃ text, run.2.output = machine.output ++ text ∧
      (evaluateStatements (applyAtDepth limit) frame statements last).on
        { machine with output := earlier } = (run.1, { run.2 with output := earlier ++ text }) := by
  let alignment := Alignment.apart limit machine.depth machine.output earlier
  have respects := alignment.respects_applyAtDepth 0 (rfl : frame = frame)
  obtain ⟨ending, -, text, written, behind⟩ :=
    related_evaluateStatements respects statements (.refl (fun _ => rfl) last)
      (Alignment.aligned_apart limit machine earlier)
  refine ⟨text, written, Prod.ext (Eq.symm ?_) behind⟩
  exact (ending.mono fun _ _ => Failure.Counterpart.eq).eq Value.Similar.eq

/-- So do calls. -/
theorem continues_applyAtDepth (limit : Nat) (machine : Machine) (callee : Value)
    (arguments : List Value) :
    machine.Continues ((applyAtDepth limit callee arguments).on machine).2 :=
  Alignment.continues (Alignment.relates_applyAtDepth _ 0 (.refl (fun _ => rfl) callee)
    (forall₂_similar_refl (fun _ => rfl) arguments))

/-! ### Calls at the depth of the state -/

section Calls

variable {limit : Nat}

/-- The comparison of computations that do the same in states of one depth, and keep it. -/
def Comparison.atDepth (depth : Nat) : Comparison Eq :=
  .ofStates Eq Eq (fun _ _ => rfl) fun machine machine' =>
    machine = machine' ∧ machine.depth = depth

theorem Comparison.relates_atDepth {depth : Nat} {α : Type} {results : α → α → Prop}
    {computation computation' : Computation α} (same : ∀ result, results result result)
    (keeps : ∀ machine, machine.depth = depth →
      (computation.on machine).2.depth = depth ∧
        computation.on machine = computation'.on machine) :
    (Comparison.atDepth depth).relates results computation computation' := by
  rintro machine _ ⟨rfl, atDepth⟩
  obtain ⟨kept, equal⟩ := keeps machine atDepth
  rw [← equal]
  exact ⟨.refl same (fun _ => rfl) (fun _ => rfl) _, rfl, kept⟩

/-- As long as the number of calls that may still become active is the one that the depth leaves,
it does not matter which of the two is counted. -/
theorem evaluateStatements_applyWith_on (limit : Nat) (machine : Machine) (frame : Nat)
    (statements : List Statement) (last : Value) :
    (evaluateStatements (applyWith limit (runBody limit (limit - machine.depth))) frame statements
        last).on machine =
      (evaluateStatements (applyAtDepth limit) frame statements last).on machine := by
  have similar (value : Value) : value.Similar Eq value := .refl (fun _ => rfl) value
  have respects : (Comparison.atDepth machine.depth).Respects
      (applyWith limit (runBody limit (limit - machine.depth))) (applyAtDepth limit) frame
      frame := by
    constructor
    · intro callee callee' arguments arguments' same alike
      obtain rfl := same.eq
      obtain rfl := eq_of_forall₂_similar alike
      refine Comparison.relates_atDepth similar fun other depth => ?_
      have continues := continues_applyAtDepth limit other callee arguments
      rw [← depth, ← applyAtDepth_on]
      exact ⟨continues.depth, rfl⟩
    · intro name
      refine Comparison.relates_atDepth similar fun other depth => ⟨?_, rfl⟩
      rw [still_resolve, depth]
    · intro parameters body
      exact Comparison.relates_atDepth similar fun other depth => ⟨depth, rfl⟩
    · intro name value value' same
      rw [same.eq]
      exact Comparison.relates_atDepth (fun _ => rfl) fun other depth => ⟨depth, rfl⟩
  obtain ⟨ending, last, -⟩ := related_evaluateStatements respects statements (similar last)
    ⟨rfl, rfl⟩
  exact Prod.ext (ending.eq Value.Similar.eq) last

variable {machine : Machine}

/-- A call depends on how bodies are evaluated only in the state in which its own body is. -/
theorem applyWith_on_congr {runBody runBody' : Nat → Block → Computation Value} {callee : Value}
    {arguments : List Value}
    (same : ∀ closure, callee = .function closure → machine.depth < limit →
      let framed := machine.withFrame (closure.frameOfCall arguments)
      (runBody machine.scopes.size closure.body).on framed.entered =
        (runBody' machine.scopes.size closure.body).on framed.entered) :
    (applyWith limit runBody callee arguments).on machine =
      (applyWith limit runBody' callee arguments).on machine := by
  cases callee with
  | function closure =>
    show (closure.call limit runBody arguments).on machine =
      (closure.call limit runBody' arguments).on machine
    by_cases right : closure.parameters.length = arguments.length
    · rw [Closure.call_on_of_eq right, Closure.call_on_of_eq right]
      by_cases deepest : limit ≤ machine.depth
      · simp only [if_pos deepest]
      · simp only [if_neg deepest, same closure rfl (Nat.lt_of_not_le deepest)]
    · rw [Closure.call_on_of_ne right, Closure.call_on_of_ne right]
  | _ => rfl

/-- A call evaluates the body of a function as everything else is evaluated, at the depth of the
state. -/
theorem applyAtDepth_on_eq (callee : Value) (arguments : List Value) :
    (applyAtDepth limit callee arguments).on machine =
      (applyWith limit (fun frame body => evaluateStatements (applyAtDepth limit) frame body .null)
        callee arguments).on machine := by
  rw [applyAtDepth_on]
  refine applyWith_on_congr fun closure _ more => ?_
  obtain ⟨further, left⟩ := Nat.exists_eq_add_of_lt more
  have remaining : limit - machine.depth = further + 1 := by omega
  have remainingInside : limit - (machine.depth + 1) = further := by omega
  let framed := machine.withFrame (closure.frameOfCall arguments)
  have inside := evaluateStatements_applyWith_on limit framed.entered machine.scopes.size
    closure.body .null
  rw [show limit - framed.entered.depth = further from remainingInside] at inside
  dsimp only
  rw [remaining, runBody]
  exact inside

end Calls

/-! ### How calls end -/

/-- How a call ends whose body ended in the given way. -/
def Signal.afterCall : Except Signal Value → Except Signal Value
  | .ok value => .ok value
  | .error (.returning value) => .ok value
  | .error (.failure cause) => .error (.failure cause)

theorem endCall_on (outcome : Except Signal Value) (machine : Machine) :
    (endCall outcome).on machine = (Signal.afterCall outcome, machine) := by
  obtain signal | value := outcome
  · cases signal <;> rfl
  · rfl

section Calls

variable {limit : Nat} {machine : Machine} {arguments : List Value}

theorem applyAtDepth_on_function (closure : Closure) :
    (applyAtDepth limit (.function closure) arguments).on machine =
      (closure.call limit
        (fun frame body => evaluateStatements (applyAtDepth limit) frame body .null)
        arguments).on machine :=
  applyAtDepth_on_eq (.function closure) arguments

theorem applyAtDepth_on_builtin (builtin : Builtin) :
    (applyAtDepth limit (.builtin builtin) arguments).on machine =
      match builtin.call arguments with
      | .ok reply => (.ok reply.value, machine.withText reply.written)
      | .error failure => (.error (.failure failure), machine) := by
  refine (applyAtDepth_on_eq (.builtin builtin) arguments).trans ?_
  show (Computation.ofExcept _ >>= _).on _ = _
  cases builtin.call arguments <;> rfl

variable {closure : Closure}

theorem applyAtDepth_on_of_ne (wrong : closure.parameters.length ≠ arguments.length) :
    (applyAtDepth limit (.function closure) arguments).on machine =
      (.error (.failure (.argumentCount closure.parameters.length arguments.length)), machine) :=
  (applyAtDepth_on_function closure).trans (Closure.call_on_of_ne wrong)

variable (right : closure.parameters.length = arguments.length)

include right

theorem applyAtDepth_on_of_lt {outcome : Except Signal Value} {last : Machine}
    (more : machine.depth < limit)
    (body : (evaluateStatements (applyAtDepth limit) machine.scopes.size closure.body .null).on
      (machine.withFrame (closure.frameOfCall arguments)).entered = (outcome, last)) :
    (applyAtDepth limit (.function closure) arguments).on machine =
      (Signal.afterCall outcome, last.left) := by
  rw [applyAtDepth_on_function, Closure.call_on_of_eq right]
  dsimp only
  rw [if_neg (Nat.not_le_of_lt more), body]
  exact endCall_on outcome last.left

theorem applyAtDepth_on_of_le (deepest : limit ≤ machine.depth) :
    (applyAtDepth limit (.function closure) arguments).on machine =
      (.error (.failure (.callDepthExceeded limit)),
        machine.withFrame (closure.frameOfCall arguments)) := by
  rw [applyAtDepth_on_function, Closure.call_on_of_eq right]
  exact if_pos deepest

end Calls

/-! ### How programs end -/

/-- A program that is one expression ends as the expression does. -/
theorem evaluateStatements_expression_on {apply : Application} {frame : Nat}
    {expression : Expression} {last : Value} {machine : Machine} :
    (evaluateStatements apply frame [.expression expression] last).on machine =
      (expression.evaluate apply frame).on machine := by
  show (expression.evaluate apply frame >>= pure).on machine = _
  rw [bind_pure]

/-- How the evaluation of a program ends under a limit, before its end becomes a value. -/
def Program.outcome (limit frame : Nat) (program : Program) (machine : Machine) :
    Except Signal Value :=
  ((evaluateStatements (applyAtDepth limit) frame program.statements .null).on
    { machine with depth := 0 }).1

theorem Program.execute_run (limit frame : Nat) (program : Program) (machine : Machine) :
    StateT.run (program.execute limit frame) machine =
      (endProgram (program.outcome limit frame machine),
        ((evaluateStatements (applyAtDepth limit) frame program.statements .null).on
          { machine with depth := 0 }).2) := rfl

/-- What had been written before makes no difference to what a program does and writes. -/
theorem Program.execute_run_output (limit frame : Nat) (program : Program) (machine : Machine)
    (earlier : String) :
    let run := StateT.run (program.execute limit frame) machine
    ∃ text, run.2.output = machine.output ++ text ∧
      StateT.run (program.execute limit frame) { machine with output := earlier } =
        (run.1, { run.2 with output := earlier ++ text }) := by
  obtain ⟨text, written, runs⟩ := evaluateStatements_on_output limit frame
    { machine with depth := 0 } program.statements .null earlier
  exact ⟨text, written, congrArg (Prod.map endProgram id) runs⟩

end MonkeyLang
