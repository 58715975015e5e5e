/-
This file proves that errors stay outside of programs. An error is the value in
which a program results that fails, and nothing else makes one; so if no error
can be got at before a session, none occurs in it. Hence a program results in an
error just if it fails, and whoever looks for an error in its result is right to
take it for a failure.

Nothing is known of frames that the session cannot get at: they may well bind
errors. So the invariant covers only the others, those that can be got at when
the session starts and those that it makes itself.
-/

import MonkeyLang.Proofs.Dialogues
import MonkeyLang.Proofs.Traits

namespace MonkeyLang

open Machine

/-! ### The invariant -/

theorem Value.isError_iff {value : Value} :
    value.isError = true ↔ ∃ message, value = .error message := by
  cases value <;> simp [isError]

/-- It is a trait of values to be no error. -/
theorem trait_errorFree : Trait (·.isError = false) where
  plain {value} plain := by cases value <;> simp_all [Value.isPlain, Value.isError]
  array := rfl
  function := rfl
  emptyHash := rfl
  insert _ _ := rfl

/-- No value is an error. What a function brings with it is a frame that the session owns, so that
no error can be got at by calling it either. -/
def Invariant.errorFree (start : Scopes) (root : Nat) : Invariant :=
  .ofTrait trait_errorFree start root

namespace Invariant

variable {start : Scopes} {root : Nat}

theorem flat_errorFree : (errorFree start root).Flat :=
  trait_errorFree.flat

theorem room_errorFree {frame : Nat} (owns : start.Owns root frame) (nesting : Nat) :
    (errorFree start root).room start frame nesting :=
  trait_errorFree.room owns nesting

/-- If no error can be got at before a session, the invariant holds there. -/
theorem sound_errorFree (clean : ∀ value, start.Holds root value → value.isError = false) :
    (errorFree start root).Sound start :=
  trait_errorFree.sound clean

theorem room_initial :
    (errorFree Machine.initial.scopes rootFrame).room Machine.initial.scopes rootFrame 0 :=
  room_errorFree (.inl .root) 0

/-- Nothing is bound before the first program. -/
theorem sound_errorFree_initial :
    (errorFree Machine.initial.scopes rootFrame).Sound Machine.initial.scopes :=
  sound_errorFree fun _ held => absurd held (not_holds_initial _)

/-! ### Results of programs -/

/-- An error in which a program results stands for a failure and carries its message. -/
theorem endProgram_eq_error_iff {scopes : Scopes} {outcome : Except Signal Value}
    (well : (errorFree start root).EndsWell (errorFree start root).Good scopes outcome)
    (message : String) : endProgram outcome = .error message ↔
      ∃ failure, outcome = .error (.failure failure) ∧ failure.message = message := by
  have proper {value : Value} (good : (errorFree start root).Good scopes value) :
      value ≠ .error message := by
    rintro rfl
    exact absurd good.self.1 nofun
  constructor
  · intro isError
    obtain (value | failure) | value := outcome
    · exact absurd isError (proper well)
    · exact ⟨failure, rfl, Value.error.inj isError⟩
    · exact absurd isError (proper well)
  · rintro ⟨failure, rfl, rfl⟩
    rfl

section Programs

variable (limit : Nat) {machine : Machine} (sound : (errorFree start root).Sound machine.scopes)
  (room : (errorFree start root).room machine.scopes root 0)

include sound room

theorem execute_eq_error_iff (program : Program) (message : String) :
    (StateT.run (program.execute limit root) machine).1 = .error message ↔
      ∃ failure, program.outcome limit root machine = .error (.failure failure) ∧
        failure.message = message := by
  have null : (errorFree start root).Good machine.scopes .null := good_plain rfl
  have kept := keeping_evaluateStatements root [] (keeping_applyAtDepth limit [root])
    program.statements null (flat_errorFree _ room) { machine with depth := 0 } (.refl _) sound
  exact endProgram_eq_error_iff kept.outcome message

theorem isError_execute_iff (program : Program) :
    (StateT.run (program.execute limit root) machine).1.isError = true ↔
      ∃ failure, program.outcome limit root machine = .error (.failure failure) := by
  have messages := execute_eq_error_iff limit sound room program
  constructor
  · intro isError
    obtain ⟨message, same⟩ := Value.isError_iff.mp isError
    obtain ⟨failure, fails, -⟩ := (messages message).mp same
    exact ⟨failure, fails⟩
  · rintro ⟨failure, fails⟩
    exact Value.isError_iff.mpr ⟨_, (messages _).mpr ⟨failure, fails, rfl⟩⟩

theorem sound_runSource (source : String) :
    machine.scopes.Grown (StateT.run (runSource limit root source) machine).2.scopes ∧
      (errorFree start root).Sound (StateT.run (runSource limit root source) machine).2.scopes := by
  by_cases clean : (Parsed.ofSource source).diagnostics = []
  · obtain ⟨grown, soundBehind, -⟩ :=
      kept_program limit sound (flat_errorFree (Parsed.ofSource source).program.nesting room)
    rw [runSource_of_clean clean]
    exact ⟨grown, soundBehind⟩
  · rw [runSource_of_diagnostics clean]
    exact ⟨.refl _, sound⟩

end Programs

end Invariant

/-! ### Dialogues -/

/-- A dialogue after it has heard some lines. -/
def Dialogue.hearAll (limit : Nat) (dialogue : Dialogue) (lines : List String) : Dialogue :=
  lines.foldl (fun dialogue line => (dialogue.hear limit line).1) dialogue

namespace Invariant

section Dialogues

variable {start : Scopes} (limit : Nat)

theorem sound_hear {dialogue : Dialogue}
    (sound : (errorFree start rootFrame).Sound dialogue.machine.scopes)
    (room : (errorFree start rootFrame).room dialogue.machine.scopes rootFrame 0) (line : String) :
    dialogue.machine.scopes.Grown (dialogue.hear limit line).1.machine.scopes ∧
      (errorFree start rootFrame).Sound (dialogue.hear limit line).1.machine.scopes := by
  rw [Dialogue.hear]
  dsimp only
  split
  · exact ⟨.refl _, sound⟩
  · obtain ⟨written, later, -, answer⟩ := answerChunk_eq limit dialogue.machine
      dialogue.machine.output (dialogue.pending ++ line)
    rw [show answerChunk limit dialogue.machine (dialogue.pending ++ line) = _ from answer]
    exact sound_runSource limit sound room (dialogue.pending ++ line)

/-- A dialogue keeps the invariant, whatever it hears. -/
theorem sound_hearAll (dialogue : Dialogue) (lines : List String)
    (sound : (errorFree start rootFrame).Sound dialogue.machine.scopes)
    (room : (errorFree start rootFrame).room dialogue.machine.scopes rootFrame 0) :
    (errorFree start rootFrame).Sound (dialogue.hearAll limit lines).machine.scopes ∧
      (errorFree start rootFrame).room (dialogue.hearAll limit lines).machine.scopes rootFrame 0 := by
  induction lines generalizing dialogue with
  | nil => exact ⟨sound, room⟩
  | cons line lines inductionHypothesis =>
    obtain ⟨grown, soundNext⟩ := sound_hear limit sound room line
    exact inductionHypothesis _ soundNext ((errorFree start rootFrame).room_grown grown room)

end Dialogues

end Invariant

/-! ### Errors stay outside -/

/-- The exit code looks for an error in the result of a source that reads cleanly. -/
theorem Outcome.code_eq_one_iff {limit : Nat} {showsValue : Bool} {source : String}
    (clean : (Parsed.ofSource source).diagnostics = []) :
    (Outcome.ofSource limit showsValue source).code = 1 ↔
      (StateT.run ((Parsed.ofSource source).program.execute limit rootFrame) .initial).1.isError =
        true := by
  rw [ofSource, runSource_eq_execute clean]
  dsimp only
  split
  · next isError => exact iff_of_true rfl isError
  · next proper =>
    refine iff_of_false ?_ proper
    split <;> exact Nat.zero_ne_one

/-- If no error can be got at before programs are executed one after another, none occurs while they
are, and none can be got at later. Each results in an error just if it fails, and the error carries
the message of the failure. So the exit code tells whether a source on its own has failed, and a
dialogue takes nothing else for a failure. -/
theorem errors_stay_outside (limit root : Nat) (programs : List Program) (start : Machine)
    (clean : ∀ value, start.scopes.Holds root value → value.isError = false) :
    (∀ value, Occurs limit root programs start value → value.isError = false) ∧
    (∀ moment ∈ ⟨start, [root]⟩ :: sessionHistory limit root programs start, ∀ value,
      moment.machine.scopes.Holds root value → value.isError = false) ∧
    (∀ before program behind, programs = before ++ program :: behind →
      let machine := executeAll limit root before start
      ∀ message, (StateT.run (program.execute limit root) machine).1 = .error message ↔
        ∃ failure, program.outcome limit root machine = .error (.failure failure) ∧
          failure.message = message) ∧
    (∀ showsValue source, (Parsed.ofSource source).diagnostics = [] →
      ((Outcome.ofSource limit showsValue source).code = 1 ↔ ∃ failure,
        (Parsed.ofSource source).program.outcome limit rootFrame .initial =
          .error (.failure failure))) ∧
    ∀ lines source,
      let machine := { (Dialogue.initial.hearAll limit lines).machine with output := "" }
      let program := (Parsed.ofSource source).program
      (StateT.run (program.execute limit rootFrame) machine).1.isError = true ↔
        ∃ failure, program.outcome limit rootFrame machine = .error (.failure failure) := by
  have sound := Invariant.sound_errorFree clean
  have room := Invariant.room_errorFree (.inl .root : start.scopes.Owns root root) 0
  refine ⟨fun value occurs => ?_, fun moment isMoment value held => ?_, ?_,
    fun showsValue source isClean => ?_, fun lines source => ?_⟩
  · obtain ⟨scopes, good⟩ :=
      Invariant.good_of_occurs Invariant.flat_errorFree sound room (fun _ owns => owns) occurs
    exact good.self.1
  · have soundHere := Invariant.sound_always Invariant.flat_errorFree sound room moment isMoment
    exact (soundHere.held room.1 held).self.1
  · rintro before program behind rfl
    obtain ⟨grown, soundHere⟩ := Invariant.sound_executeAll limit root before start sound
      fun _ _ => Invariant.flat_errorFree _ room
    exact Invariant.execute_eq_error_iff limit soundHere (Invariant.room_grown _ grown room) program
  · rw [Outcome.code_eq_one_iff isClean]
    exact Invariant.isError_execute_iff limit Invariant.sound_errorFree_initial
      Invariant.room_initial _
  · intro machine program
    obtain ⟨soundHere, roomHere⟩ := Invariant.sound_hearAll limit .initial lines
      Invariant.sound_errorFree_initial Invariant.room_initial
    have soundHere' : (Invariant.errorFree _ rootFrame).Sound machine.scopes := soundHere
    exact Invariant.isError_execute_iff limit soundHere' roomHere program

/-- An array in the first frame, and a program that fails between two that do not. -/
theorem errors_stay_outside_mixedRuns :
    let start := Machine.initial.withBinding rootFrame "xs" (.array [.integer 1])
    let first : Program := ⟨[.binding "f" (.function ["x"] [.returning (.identifier "x")])]⟩
    let second : Program := ⟨[.expression (.binary (.integer 1) .add (.boolean true))]⟩
    let third : Program := ⟨[.returning (.call (.identifier "f") [.identifier "xs"])]⟩
    let middle := executeAll 1 rootFrame [first] start
    let last := executeAll 1 rootFrame [first, second] start
    (∀ value, start.scopes.Holds rootFrame value → value.isError = false) ∧
    (∀ value, Occurs 1 rootFrame [first, second, third] start value → value.isError = false) ∧
    (StateT.run (second.execute 1 rootFrame) middle).1 =
      .error "type mismatch: INTEGER + BOOLEAN" ∧
    (StateT.run (third.execute 1 rootFrame) last).1 = .array [.integer 1] := by
  intro start first second third middle last
  have clean : ∀ value, start.scopes.Holds rootFrame value → value.isError = false := by
    intro value held
    have proper : (Value.array [.integer 1]).Throughout (·.isError = false) :=
      .intro rfl (List.forall_mem_singleton.mpr (.ofParts rfl rfl))
    exact (proper.contains (contains_of_holds held)).self
  obtain ⟨proper, -, fails, -⟩ :=
    errors_stay_outside 1 rootFrame [first, second, third] start clean
  refine ⟨clean, proper, ?_, ?_⟩
  · refine (fails [first] second [third] rfl _).mpr ?_
    exact ⟨.typeMismatch .integer .add .boolean, by with_unfolding_all rfl, by decide⟩
  · with_unfolding_all rfl

end MonkeyLang
