/-
This file proves that a program and a call of a function whose body is that
program do the same. The program is evaluated in the outermost frame, with no
call active; the body in a frame of its own around which the outermost frame
lies, with one call active. Nothing but the limit tells the two apart, so the
second run is given one call more.
-/

import MonkeyLang.Proofs.Evaluation.Limit
import MonkeyLang.Proofs.Evaluation.Renumbering

namespace MonkeyLang

open Machine

/-- The program that calls, without arguments, a function whose body is the given program. -/
def Program.asCall (program : Program) : Program :=
  ⟨[.expression (.call (.function [] program.statements) [])]⟩

/-- Functions that are written alike, wherever they were made. -/
structure Closure.SameLiteral (closure closure' : Closure) : Prop where
  parameters : closure.parameters = closure'.parameters
  body : closure.body = closure'.body

theorem Closure.SameLiteral.text_eq {closure closure' : Closure}
    (same : closure.SameLiteral closure') : closure.text = closure'.text := by
  rw [Closure.text, Closure.text, same.parameters, same.body]

/-! ### Ends of bodies and of calls -/

section Endings

variable {functions others : Closure → Closure → Prop} {failures : Failure → Failure → Prop}
  {outcome outcome' : Except Signal Value}

/-- Bodies that end alike let their calls end alike, with functions related as they are known to
be. -/
theorem Ending.afterCall (more : ∀ closure closure', functions closure closure' →
    others closure closure')
    (ending : Ending functions failures (Value.Similar functions) outcome outcome') :
    Ending others failures (Value.Similar others) (Signal.afterCall outcome)
      (Signal.afterCall outcome') := by
  cases ending with
  | ok similar => exact .ok (similar.mono more)
  | returning similar => exact .ok (similar.mono more)
  | failure counterpart => exact .failure counterpart

/-- A program results in the same value whether or not a call ends in between. -/
theorem endProgram_afterCall (outcome : Except Signal Value) :
    endProgram (Signal.afterCall outcome) = endProgram outcome := by
  obtain (value | cause) | value := outcome <;> rfl

/-- What programs result in that end alike under two limits. -/
theorem Ending.endProgram {limit limit' : Nat}
    (ending : Ending functions (Failure.Counterpart limit limit') (Value.Similar functions) outcome
      outcome') :
    (endProgram outcome).Similar functions (MonkeyLang.endProgram outcome') ∨
      outcome = .error (.failure (.callDepthExceeded limit)) ∧
        outcome' = .error (.failure (.callDepthExceeded limit')) := by
  cases ending with
  | ok similar => exact .inl similar
  | returning similar => exact .inl similar
  | failure counterpart =>
    cases counterpart with
    | exceeded => exact .inr ⟨rfl, rfl⟩
    | other _ => exact .inl (.error _)

end Endings

/-! ### The two runs -/

section Runs

variable (limit : Nat) (program : Program)

/-- The state in which the body is evaluated: a function has been made and called. -/
def Machine.inCall : Machine :=
  (withFrame (withFunction .initial) ⟨[], some rootFrame⟩).entered

/-- The call ends as its body does. -/
theorem asCall_on :
    let run := (evaluateStatements (applyAtDepth (limit + 1)) 1 program.statements .null).on
      .inCall
    (evaluateStatements (applyAtDepth (limit + 1)) rootFrame program.asCall.statements .null).on
      .initial = (Signal.afterCall run.1, run.2.left) := by
  refine evaluateStatements_expression_on.trans ?_
  let closure := Machine.initial.nextFunction [] program.statements rootFrame
  show (applyAtDepth (limit + 1) (.function closure) []).on (withFunction .initial) = _
  exact applyAtDepth_on_of_lt rfl (Nat.succ_pos limit) rfl

/-- Each frame of the program is one further down in the call. -/
def Renumbering.inCall : Renumbering where
  number frame := frame + 1
  increasing _ _ less := Nat.succ_lt_succ less
  ground := some rootFrame
  below := by
    rintro _ ⟨⟩ frame
    exact Nat.succ_pos frame

theorem Renumbering.states_inCall :
    States .inCall 0 1 "" "" .initial .inCall := by
  refine ⟨⟨?_, ?_, ?_⟩, rfl, rfl, "", rfl, rfl⟩
  · rintro (_ | number)
    · exact .some ⟨.nil, rfl⟩
    · exact .none
  · intro further
    show 1 + further + 1 = 2 + further
    omega
  · rintro _ ⟨⟩
    rfl

/-- Evaluated by itself and as a body, the program ends alike and in states that correspond. -/
theorem related_inCall :
    let run := (evaluateStatements (applyAtDepth limit) rootFrame program.statements .null).on
      .initial
    let run' := (evaluateStatements (applyAtDepth (limit + 1)) 1 program.statements .null).on
      .inCall
    Ending Renumbering.inCall.Functions (Failure.Counterpart limit (limit + 1))
        (Value.Similar Renumbering.inCall.Functions) run.1 run'.1 ∧
      Renumbering.inCall.States 0 1 "" "" run.2 run'.2 := by
  have remaining : limit - 0 = limit + 1 - 1 := rfl
  let alignment := Renumbering.inCall.alignment remaining "" ""
  have paired : alignment.frames rootFrame 1 := rfl
  exact related_evaluateStatements (alignment.respects_applyAtDepth 0 paired) program.statements
    .null Renumbering.states_inCall

end Runs

/-- A program under a limit and, under the limit one higher, the call of a function whose body it is
end alike: with the same failure, except that one that is due to the limit names it, or with values
that differ at most in where their functions were made, and so have the same text. They write the
same, and the call leaves the outermost frame empty. -/
theorem call_agrees_with_program (limit : Nat) (program : Program) :
    let run := StateT.run (program.execute limit rootFrame) .initial
    let run' := StateT.run (program.asCall.execute (limit + 1) rootFrame) .initial
    let outcome := program.outcome limit rootFrame .initial
    let outcome' := program.asCall.outcome (limit + 1) rootFrame .initial
    Ending Closure.SameLiteral (Failure.Counterpart limit (limit + 1))
        (Value.Similar Closure.SameLiteral) (Signal.afterCall outcome) outcome' ∧
      (run.1.Similar Closure.SameLiteral run'.1 ∧ run.1.text = run'.1.text ∨
        outcome = .error (.failure (.callDepthExceeded limit)) ∧
          outcome' = .error (.failure (.callDepthExceeded (limit + 1)))) ∧
      run.2.output = run'.2.output ∧ run'.2.scopes.frame? rootFrame = some ⟨[], none⟩ := by
  obtain ⟨ending, states⟩ := related_inCall limit program
  obtain ⟨text, written, written'⟩ := states.written
  have sameLiteral : ∀ closure closure', Renumbering.inCall.Functions closure closure' →
      closure.SameLiteral closure' := fun _ _ same => ⟨same.parameters, same.body⟩
  have called := asCall_on limit program
  intro run run' outcome outcome'
  have endsAs : outcome' = Signal.afterCall _ := congrArg Prod.fst called
  have left : run'.2 = Machine.left _ := congrArg Prod.snd called
  have result : run'.1 = endProgram (Signal.afterCall _) := congrArg endProgram endsAs
  rw [endsAs, left, result, endProgram_afterCall]
  refine ⟨ending.afterCall sameLiteral, ?_, written.trans written'.symm,
    states.chains.ground rootFrame rfl⟩
  rcases ending.endProgram with similar | ⟨exceeded, exceeded'⟩
  · have similar := similar.mono sameLiteral
    exact .inl ⟨similar, similar.text_eq fun _ _ => Closure.SameLiteral.text_eq⟩
  · exact .inr ⟨exceeded, congrArg Signal.afterCall exceeded'⟩

end MonkeyLang
