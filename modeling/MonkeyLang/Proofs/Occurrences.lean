/-
This file says what occurs in a session. Code is evaluated in the course of a
session if it is a program of the session, if it stands in a gap of code that is
evaluated and evaluation gets there, or if it is the body of a function that is
called. Each time the state is known in which evaluation starts, so results,
`return`s and arguments are known, too. What frames bind at any moment occurs as
well, and so does whatever is inside something that occurs.

An invariant that holds before a session holds of everything that occurs in it.
The invariants meant here say nothing about how deep functions are nested, which
is what lets them go down into any gap.
-/

import MonkeyLang.Proofs.Evaluation.Signals
import MonkeyLang.Proofs.Preservation

namespace MonkeyLang

open Machine

/-! ### What a frame leads to -/

/-- What is inside a value, however deep: the value itself, and the elements, keys and values of
arrays and hashes inside it. -/
inductive Value.Contains (whole : Value) : Value → Prop
  | self : Contains whole whole
  | part {inside part : Value} : Contains whole inside → part ∈ inside.parts → Contains whole part

namespace Scopes

/-- The frames that can be got at from a frame: itself, the frames that enclose them, and the frames
in which functions were made that are bound in them. -/
inductive Reaches (scopes : Scopes) (root : Nat) : Nat → Prop
  | root : Reaches scopes root root
  | outer {number outer : Nat} {frame : Frame} : Reaches scopes root number →
      scopes.frame? number = some frame → frame.outer = some outer → Reaches scopes root outer
  | captured {number : Nat} {frame : Frame} {binding : String × Value} {closure : Closure} :
      Reaches scopes root number → scopes.frame? number = some frame → binding ∈ frame.bindings →
      binding.2.Contains (.function closure) → Reaches scopes root closure.frame

/-- A value can be got at from a frame: it is inside a value that is bound in a frame that can be
got at. -/
inductive Holds (scopes : Scopes) (root : Nat) : Value → Prop
  | intro {number : Nat} {frame : Frame} {binding : String × Value} {inside : Value} :
      scopes.Reaches root number → scopes.frame? number = some frame →
      binding ∈ frame.bindings → binding.2.Contains inside → Holds scopes root inside

/-- The frames that a session in a frame can ever get at: those that can be got at before it starts,
and those that it makes. -/
def Owns (start : Scopes) (root number : Nat) : Prop :=
  start.Reaches root number ∨ start.size ≤ number

end Scopes

/-! ### What is evaluated -/

/-- Evaluation gets to a call: to the value that is called, to the arguments, and to the state in
which the call begins. -/
def GetsToCall (limit frame : Nat) (callee : Expression) (arguments : List Expression)
    (machine : Machine) (called : Value) (values : List Value) (last : Machine) : Prop :=
  ∃ middle, (callee.evaluate (applyAtDepth limit) frame).on machine = (.ok called, middle) ∧
    (evaluateAll (applyAtDepth limit) frame arguments).on middle = (.ok values, last)

/-- Code that is evaluated while programs are executed one after another in a frame, with the frame
it is evaluated in and the state in which its evaluation starts. -/
inductive Evaluated (limit root : Nat) (programs : List Program) (start : Machine) :
    (piece : Piece) → piece.Code → Nat → Machine → Prop
  | program {before behind : List Program} {program : Program} :
      programs = before ++ program :: behind →
      Evaluated limit root programs start .block program.statements root
        { executeAll limit root before start with depth := 0 }
  | part {inner outer : Piece} {layer : Layer inner outer} {code : inner.Code} {frame : Nat}
      {machine middle : Machine} :
      Evaluated limit root programs start outer (layer.fill code) frame machine →
      PassesAll (applyAtDepth limit) frame (Earlier.ofLayer layer) machine middle →
      Evaluated limit root programs start inner code frame middle
  | body {callee : Expression} {arguments : List Expression} {frame : Nat}
      {machine middle : Machine} {closure : Closure} {values : List Value} :
      Evaluated limit root programs start .expression (.call callee arguments) frame machine →
      GetsToCall limit frame callee arguments machine (.function closure) values middle →
      closure.parameters.length = values.length → middle.depth < limit →
      Evaluated limit root programs start .block closure.body middle.scopes.size
        (middle.withFrame (closure.frameOfCall values)).entered

/-- Values that occur while programs are executed one after another in a frame. -/
inductive Occurs (limit root : Nat) (programs : List Program) (start : Machine) : Value → Prop
  /-- What an expression, a statement or a block results in. -/
  | result {piece : Piece} {code : piece.Code} {frame : Nat} {machine last : Machine}
      {value : Value} : Evaluated limit root programs start piece code frame machine →
      (piece.evaluate (applyAtDepth limit) frame code).on machine = (.ok value, last) →
      Occurs limit root programs start value
  /-- What a `return` carries on its way out. -/
  | returned {piece : Piece} {code : piece.Code} {frame : Nat} {machine last : Machine}
      {value : Value} : Evaluated limit root programs start piece code frame machine →
      (piece.evaluate (applyAtDepth limit) frame code).on machine =
        (.error (.returning value), last) →
      Occurs limit root programs start value
  /-- What is called, and what it is given. -/
  | handed {callee : Expression} {arguments : List Expression} {frame : Nat}
      {machine last : Machine} {called value : Value} {values : List Value} :
      Evaluated limit root programs start .expression (.call callee arguments) frame machine →
      GetsToCall limit frame callee arguments machine called values last →
      value ∈ called :: values → Occurs limit root programs start value
  /-- What is bound at some moment. -/
  | bound {moment : Moment} {number : Nat} {frame : Frame} {binding : String × Value} :
      moment ∈ ⟨start, [root]⟩ :: sessionHistory limit root programs start →
      start.scopes.Owns root number → moment.machine.scopes.frame? number = some frame →
      binding ∈ frame.bindings → Occurs limit root programs start binding.2
  /-- The elements of arrays, and the keys and values of hashes. -/
  | part {whole part : Value} : Occurs limit root programs start whole → part ∈ whole.parts →
      Occurs limit root programs start part

/-! ### What holds of everything that occurs -/

/-- What is inside something that is inside a value is inside the value. -/
theorem Value.Contains.trans {whole inside part : Value} (outer : whole.Contains inside)
    (inner : inside.Contains part) : whole.Contains part := by
  induction inner with
  | self => exact outer
  | part _ isPart inductionHypothesis => exact .part inductionHypothesis isPart

/-- What holds throughout a value holds throughout everything inside it. -/
theorem Value.Throughout.contains {holds : Value → Prop} {whole inside : Value}
    (throughout : whole.Throughout holds) (contains : whole.Contains inside) :
    inside.Throughout holds := by
  induction contains with
  | self => exact throughout
  | part _ isPart inductionHypothesis => exact inductionHypothesis.part isPart

mutual

/-- What holds of every value holds throughout each, since nothing goes on for ever inside it. -/
theorem Value.throughout_of_forall {holds : Value → Prop} (all : ∀ value, holds value) :
    ∀ value : Value, value.Throughout holds
  | .array elements => .intro (all _) (throughout_elements all elements)
  | .hash entries => .intro (all _) (throughout_entries all entries)
  | .integer _ | .string _ | .boolean _ | .null | .function _ | .builtin _ | .error _ =>
    .ofParts (all _) rfl
termination_by structural value => value

theorem throughout_elements {holds : Value → Prop} (all : ∀ value, holds value) :
    ∀ elements : List Value, ∀ part ∈ (Value.array elements).parts, part.Throughout holds
  | [] => fun _ none => absurd none List.not_mem_nil
  | element :: elements => List.forall_mem_cons.mpr
    ⟨Value.throughout_of_forall all element, throughout_elements all elements⟩
termination_by structural elements => elements

theorem throughout_entries {holds : Value → Prop} (all : ∀ value, holds value) :
    ∀ entries : List (Entry Value), ∀ part ∈ (Value.hash entries).parts, part.Throughout holds
  | [] => fun _ none => absurd none List.not_mem_nil
  | ⟨_, key, value⟩ :: entries => List.forall_mem_cons.mpr
    ⟨Value.throughout_of_forall all key, List.forall_mem_cons.mpr
      ⟨Value.throughout_of_forall all value, throughout_entries all entries⟩⟩
termination_by structural entries => entries

end

/-- What holds of everything inside a value holds throughout it. -/
theorem Value.throughout_of_contains {holds : Value → Prop} {value : Value}
    (all : ∀ inside, value.Contains inside → holds inside) : value.Throughout holds := by
  induction throughout_of_forall (fun _ => trivial : ∀ _, True) value with
  | intro _ _ inductionHypothesis =>
    refine .intro (all _ .self) fun part isPart => ?_
    exact inductionHypothesis part isPart fun inside contains =>
      all inside (Contains.trans (.part .self isPart) contains)

/-- What comes first is code that yields a value. -/
theorem Earlier.yields_of_passes {apply : Application} {frame : Nat} {machine last : Machine}
    {earlier : Earlier} (passes : earlier.Passes apply frame machine last) :
    ∃ (piece : Piece) (code : piece.Code) (value : Value),
      (piece.evaluate apply frame code).on machine = (.ok value, last) := by
  cases earlier with
  | expression tree =>
    obtain ⟨value, yields⟩ := passes
    exact ⟨.expression, tree, value, yields⟩
  | key tree =>
    obtain ⟨value, hashKey, yields, -⟩ := passes
    exact ⟨.expression, tree, value, yields⟩
  | condition tree truth =>
    obtain ⟨value, yields, -⟩ := passes
    exact ⟨.expression, tree, value, yields⟩
  | statement tree =>
    obtain ⟨value, yields⟩ := passes
    exact ⟨.statement, tree, value, yields⟩

namespace Invariant

variable {invariant : Invariant}

/-- Everything that can be got at from a frame that the invariant covers is as it should be. -/
theorem Sound.reaches {scopes : Scopes} {root number : Nat} (sound : invariant.Sound scopes)
    (covered : invariant.covers root) (reaches : scopes.Reaches root number) :
    invariant.covers number := by
  induction reaches with
  | root => exact covered
  | outer _ found isOuter inductionHypothesis =>
    exact sound.outer inductionHypothesis found isOuter
  | captured _ found member contains inductionHypothesis =>
    have good := (sound.bound found _ member inductionHypothesis).contains contains
    exact invariant.captured good.self

/-- So is every value that can be got at. -/
theorem Sound.held {scopes : Scopes} {root : Nat} {value : Value} (sound : invariant.Sound scopes)
    (covered : invariant.covers root) (held : scopes.Holds root value) :
    invariant.Good scopes value := by
  obtain ⟨reaches, found, member, contains⟩ := held
  exact (sound.bound found _ member (sound.reaches covered reaches)).contains contains

variable (invariant) in
/-- An invariant that does not count how deep functions are nested. -/
def Flat : Prop :=
  ∀ {scopes : Scopes} {frame : Nat} (nesting : Nat), invariant.room scopes frame 0 →
    invariant.room scopes frame nesting

section Pieces

variable {limit frame : Nat} {machine last : Machine} {value : Value} (flat : invariant.Flat)
  (sound : invariant.Sound machine.scopes) (room : invariant.room machine.scopes frame 0)

include flat sound room

/-- Evaluation keeps the invariant, whatever is evaluated. -/
theorem kept_piece (limit : Nat) (piece : Piece) (code : piece.Code) : ∃ moments,
    invariant.Kept invariant.Good machine.scopes moments
      ((piece.evaluate (applyAtDepth limit) frame code).on machine) := by
  cases piece with
  | expression =>
    exact ⟨_, keeping_evaluate frame [] (keeping_applyAtDepth limit [frame]) code (flat _ room) _
      (.refl _) sound⟩
  | statement =>
    exact ⟨_, keeping_evaluateStatement frame [] (keeping_applyAtDepth limit [frame]) code
      (flat _ room) _ (.refl _) sound⟩
  | block =>
    exact ⟨_, keeping_evaluateStatements frame [] (keeping_applyAtDepth limit [frame]) code
      (good_plain rfl) (flat _ room) _ (.refl _) sound⟩

/-- What code results in is as it should be, and the invariant holds behind it. -/
theorem kept_of_yields (piece : Piece) {code : piece.Code}
    (yields : (piece.evaluate (applyAtDepth limit) frame code).on machine = (.ok value, last)) :
    machine.scopes.Grown last.scopes ∧ invariant.Sound last.scopes ∧
      invariant.Good last.scopes value := by
  obtain ⟨moments, kept⟩ := kept_piece flat sound room limit piece code
  rw [yields] at kept
  exact ⟨kept.grown, kept.sound, kept.outcome⟩

/-- The invariant holds behind what comes first. -/
theorem kept_of_passes {earlier : Earlier}
    (passes : earlier.Passes (applyAtDepth limit) frame machine last) :
    machine.scopes.Grown last.scopes ∧ invariant.Sound last.scopes := by
  obtain ⟨piece, code, value, yields⟩ := Earlier.yields_of_passes passes
  obtain ⟨grown, soundLast, -⟩ := kept_of_yields flat sound room piece yields
  exact ⟨grown, soundLast⟩

/-- What is called is as it should be, and so are the arguments. -/
theorem kept_of_getsToCall {callee : Expression} {arguments : List Expression} {called : Value}
    {values : List Value}
    (gets : GetsToCall limit frame callee arguments machine called values last) :
    machine.scopes.Grown last.scopes ∧ invariant.Sound last.scopes ∧
      invariant.Good last.scopes called ∧ invariant.GoodAll last.scopes values := by
  obtain ⟨middle, yields, yieldsAll⟩ := gets
  obtain ⟨grown, soundMiddle, good⟩ := kept_of_yields flat sound room .expression yields
  have kept := keeping_evaluateAll frame [] (keeping_applyAtDepth limit [frame]) arguments
    (flat _ (invariant.room_grown grown room)) middle (.refl _) soundMiddle
  rw [yieldsAll] at kept
  exact ⟨grown.trans kept.grown, kept.sound, good.grown kept.grown, kept.outcome⟩

end Pieces

/-- The invariant holds behind everything that comes first. -/
theorem kept_of_passesAll {limit frame : Nat} (flat : invariant.Flat) :
    ∀ {before : List Earlier} {machine last : Machine}, invariant.Sound machine.scopes →
      invariant.room machine.scopes frame 0 →
      PassesAll (applyAtDepth limit) frame before machine last →
      machine.scopes.Grown last.scopes ∧ invariant.Sound last.scopes
  | [], machine, _, sound, _, rfl => ⟨.refl _, sound⟩
  | _ :: _, _, _, sound, room, ⟨_, passes, others⟩ => by
    obtain ⟨grown, soundMiddle⟩ := kept_of_passes flat sound room passes
    obtain ⟨grownLast, soundLast⟩ :=
      kept_of_passesAll flat soundMiddle (invariant.room_grown grown room) others
    exact ⟨grown.trans grownLast, soundLast⟩

section Sessions

variable {limit root : Nat} {programs : List Program} {start : Machine} (flat : invariant.Flat)
  (sound : invariant.Sound start.scopes) (room : invariant.room start.scopes root 0)

include flat sound room

/-- The invariant holds at every moment of a session. -/
theorem sound_always : ∀ moment ∈ ⟨start, [root]⟩ :: sessionHistory limit root programs start,
    invariant.Sound moment.machine.scopes :=
  List.forall_mem_cons.mpr
    ⟨sound, sound_sessionHistory limit root programs start sound fun _ _ => flat _ room⟩

/-- Whatever is evaluated in a session, the invariant holds when its evaluation starts, and the
frame has room for it. -/
theorem sound_evaluated {piece : Piece} {code : piece.Code} {frame : Nat} {machine : Machine}
    (evaluated : Evaluated limit root programs start piece code frame machine) :
    invariant.Sound machine.scopes ∧ invariant.room machine.scopes frame 0 := by
  induction evaluated with
  | @program before _ _ _ =>
    obtain ⟨grown, soundBefore⟩ :=
      sound_executeAll limit root before start sound fun _ _ => flat _ room
    exact ⟨soundBefore, invariant.room_grown grown room⟩
  | part _ passes inductionHypothesis =>
    obtain ⟨grown, soundMiddle⟩ :=
      kept_of_passesAll flat inductionHypothesis.1 inductionHypothesis.2 passes
    exact ⟨soundMiddle, invariant.room_grown grown inductionHypothesis.2⟩
  | body _ gets right more inductionHypothesis =>
    obtain ⟨_, soundCall, good, all⟩ :=
      kept_of_getsToCall flat inductionHypothesis.1 inductionHypothesis.2 gets
    obtain ⟨framed, inside⟩ := soundCall.withFrame good all
    exact ⟨framed, invariant.less inside (Nat.zero_le _)⟩

/-- An invariant that holds before a session holds of everything that occurs in it. -/
theorem good_of_occurs (covers : ∀ number, start.scopes.Owns root number → invariant.covers number)
    {value : Value} (occurs : Occurs limit root programs start value) :
    ∃ scopes, invariant.Good scopes value := by
  induction occurs with
  | @result piece code _ _ _ _ evaluated yields =>
    obtain ⟨soundHere, roomHere⟩ := sound_evaluated flat sound room evaluated
    exact ⟨_, (kept_of_yields flat soundHere roomHere piece yields).2.2⟩
  | @returned piece code _ _ _ _ evaluated raises =>
    obtain ⟨soundHere, roomHere⟩ := sound_evaluated flat sound room evaluated
    obtain ⟨moments, kept⟩ := kept_piece flat soundHere roomHere limit piece code
    rw [raises] at kept
    exact ⟨_, kept.outcome⟩
  | handed evaluated gets member =>
    obtain ⟨soundHere, roomHere⟩ := sound_evaluated flat sound room evaluated
    obtain ⟨_, _, good, all⟩ := kept_of_getsToCall flat soundHere roomHere gets
    exact ⟨_, List.forall_mem_cons.mpr ⟨good, all⟩ _ member⟩
  | bound isMoment owns found member =>
    have soundHere := sound_always flat sound room _ isMoment
    exact ⟨_, soundHere.bound found _ member (covers _ owns)⟩
  | part _ isPart inductionHypothesis =>
    obtain ⟨scopes, good⟩ := inductionHypothesis
    exact ⟨scopes, good.part isPart⟩

end Sessions

end Invariant

end MonkeyLang
