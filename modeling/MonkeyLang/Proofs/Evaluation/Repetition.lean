/-
This file proves that functions have no memory: the same call, made twice in
succession, ends alike and writes the same both times. Between the two, nothing
has changed but that the first call has left frames of its own behind, and that
functions made since have other identities. No frame from before the first call
leads to those.

So the runs of the two calls differ in the numbers of the frames that they make,
and in nothing else. The argument needs that nothing refers to a frame that is
yet to be made, which is an invariant of all states that programs get into.
-/

import MonkeyLang.Proofs.Evaluation.ProgramCall
import MonkeyLang.Proofs.Evaluation.Signals
import MonkeyLang.Proofs.Preservation

namespace MonkeyLang

open Machine

/-! ### References -/

/-- A function refers to a frame that there is. -/
def Value.RefersBack (scopes : Scopes) : Value → Prop
  | .function closure => closure.frame < scopes.size
  | _ => True

/-- A frame that there is, enclosed by an older one or by none. -/
def Scopes.Rests (scopes : Scopes) (number : Nat) : Prop :=
  ∃ frame, scopes.frame? number = some frame ∧ ∀ outer ∈ frame.outer, outer < number

namespace Scopes

theorem Rests.grown {earlier later : Scopes} {number : Nat} (rests : earlier.Rests number)
    (grown : earlier.Grown later) : later.Rests number := by
  obtain ⟨frame, found, older⟩ := rests
  obtain ⟨frame', found', same⟩ := grown number frame found
  exact ⟨frame', found', by rwa [same]⟩

theorem rests_add (scopes : Scopes) {frame : Frame} (older : ∀ outer ∈ frame.outer,
    outer < scopes.size) : (scopes.add frame).Rests scopes.size :=
  ⟨frame, scopes.frame?_add_size frame, older⟩

end Scopes

/-- Nothing refers to a frame that is yet to be made. -/
def Invariant.references : Invariant where
  holds := Value.RefersBack
  room scopes frame _ := scopes.Rests frame
  plain {scopes value} plain := by
    cases value with
    | function => exact absurd plain Bool.false_ne_true
    | _ => exact trivial
  array := trivial
  emptyHash := trivial
  insert _ _ := trivial
  made rests := by
    obtain ⟨frame, found, _⟩ := rests
    exact Scopes.lt_size_of_frame? found
  called {scopes closure frame} old outer := by
    refine scopes.rests_add fun other isOuter => ?_
    obtain rfl : closure.frame = other := Option.some.inj (outer.symm.trans isOuter)
    exact old
  less rests _ := rests
  holds_grown {earlier later value} grown refers := by
    cases value with
    | function => exact grown.lt_size refers
    | _ => exact trivial
  room_grown grown rests := rests.grown grown

/-- Every function inside a value refers to a frame that there is. -/
abbrev Value.Grounded (scopes : Scopes) (value : Value) : Prop :=
  Invariant.references.Good scopes value

/-! ### Reachable states -/

/-- A state that a host gets into: it makes frames and binds values in them, and runs programs. The
moments on the way through a program count too. -/
inductive Machine.Reachable : Machine → Prop
  | initial : Reachable .initial
  | framed {machine : Machine} {outer : Option Nat} : Reachable machine →
      (∀ frame ∈ outer, frame < machine.scopes.size) → Reachable (machine.withFrame ⟨[], outer⟩)
  | bound {machine : Machine} {frame : Nat} {name : String} {value : Value} : Reachable machine →
      value.Grounded machine.scopes → Reachable (machine.withBinding frame name value)
  | passed {machine : Machine} {limit frame : Nat} {program : Program} {moment : Moment} :
      Reachable machine → frame < machine.scopes.size →
      moment ∈ program.history limit frame machine → Reachable moment.machine

/-- In a reachable state nothing refers to a frame that is yet to be made. -/
theorem Machine.Reachable.sound {machine : Machine} (reachable : machine.Reachable) :
    Invariant.references.Sound machine.scopes := by
  induction reachable with
  | initial => exact Invariant.Sound.empty.add (Scopes.rests_add _ nofun) nofun
  | framed _ older inductionHypothesis =>
    exact inductionHypothesis.add (Scopes.rests_add _ older) nofun
  | bound _ grounded inductionHypothesis => exact inductionHypothesis.set _ _ grounded
  | passed _ old member inductionHypothesis =>
    exact (Invariant.kept_program _ inductionHypothesis (inductionHypothesis.room old)).2.2 _ member

/-! ### Frames left behind -/

/-- Every frame keeps its number up to a first one; from there on, some others come before. -/
def Renumbering.behind (first others : Nat) : Renumbering where
  number frame := if frame < first then frame else frame + others
  increasing one other less := by
    dsimp only
    split <;> split <;> omega
  ground := none
  below := nofun

theorem Renumbering.number_behind {first : Nat} (others : Nat) {frame : Nat} (old : frame < first) :
    (behind first others).number frame = frame :=
  if_pos old

theorem Renumbering.number_behind_of_le {first : Nat} (others : Nat) {frame : Nat}
    (new : first ≤ frame) : (behind first others).number frame = frame + others :=
  if_neg (Nat.not_lt.mpr new)

/-- A value is similar to itself if what holds throughout it relates its functions to themselves. -/
theorem Value.Throughout.similar {holds : Value → Prop} {functions : Closure → Closure → Prop}
    (own : ∀ closure, holds (.function closure) → functions closure closure) {value : Value}
    (throughout : value.Throughout holds) : value.Similar functions value := by
  induction throughout with
  | @intro value holdsHere _ inductionHypothesis =>
    cases value with
    | integer value => exact .integer value
    | string text => exact .string text
    | boolean value => exact .boolean value
    | null => exact .null
    | array elements => exact .array (List.forall₂_same.mpr inductionHypothesis)
    | hash entries =>
      refine .hash (List.forall₂_same.mpr fun entry member => ?_)
      exact .intro (inductionHypothesis _ (mem_parts_hash.mpr ⟨entry, member, .inl rfl⟩))
        (inductionHypothesis _ (mem_parts_hash.mpr ⟨entry, member, .inr rfl⟩))
    | function closure => exact .function (own closure holdsHere)
    | builtin builtin => exact .builtin builtin
    | error message => exact .error message

section Similar

variable {scopes : Scopes} {others : Nat} {value : Value}

/-- A value from before is what it was. -/
theorem Value.Grounded.similar (grounded : value.Grounded scopes) :
    value.Similar (Renumbering.behind scopes.size others).Functions value :=
  Throughout.similar (fun _ old => ⟨rfl, rfl, (Renumbering.number_behind others old).symm⟩) grounded

/-- So is a frame from before. -/
theorem Renumbering.frames_behind (sound : Invariant.references.Sound scopes) {number : Nat}
    {frame : Frame} (found : scopes.frame? number = some frame) :
    (behind scopes.size others).Frames frame frame := by
  have old := Scopes.lt_size_of_frame? found
  refine ⟨List.forall₂_same.mpr fun ⟨name, value⟩ member => ?_, ?_⟩
  · exact .intro (Value.Grounded.similar (sound.bound found _ member))
  · obtain ⟨_, same, older⟩ := sound.room old
    obtain rfl := Option.some.inj (found.symm.trans same)
    cases enclosing : frame.outer with
    | none => rfl
    | some outer =>
      exact congrArg some (number_behind others (Nat.lt_trans (older outer enclosing) old)).symm

/-- The frames from before a call are the same ones behind it. -/
theorem Renumbering.chains_behind {machine later : Machine} (grows : machine.Grows later)
    (sound : Invariant.references.Sound machine.scopes) :
    Chains (behind machine.scopes.size (later.scopes.size - machine.scopes.size)) machine.scopes
      later.scopes := by
  have size := grows.size_le
  refine ⟨fun number => ?_, fun further => ?_, nofun⟩
  · rcases Nat.lt_or_ge number machine.scopes.size with old | new
    · rw [number_behind _ old, grows.kept number old]
      obtain ⟨frame, found⟩ := Scopes.exists_frame? old
      rw [found]
      exact .some (frames_behind sound found)
    · have shifted : later.scopes.size ≤ number + (later.scopes.size - machine.scopes.size) := by
        omega
      rw [number_behind_of_le _ new, Scopes.frame?, Scopes.frame?, Array.getElem?_eq_none new,
        Array.getElem?_eq_none shifted]
      exact .none
  · rw [number_behind_of_le _ (Nat.le_add_right _ _)]
    omega

end Similar

/-! ### The two calls -/

/-- Calls that end alike under one limit fail for the same reason, or have similar values. -/
theorem Ending.sameFailure_or_similar {functions : Closure → Closure → Prop} {limit : Nat}
    {outcome outcome' : Except Signal Value}
    (ending : Ending functions (Failure.Counterpart limit limit) (Value.Similar functions) outcome
      outcome')
    (call : ∀ value, outcome ≠ .error (.returning value)) :
    (∃ failure, outcome = .error (.failure failure) ∧ outcome' = .error (.failure failure)) ∨
      ∃ value value', outcome = .ok value ∧ outcome' = .ok value' ∧
        value.Similar functions value' := by
  cases ending with
  | ok similar => exact .inr ⟨_, _, rfl, rfl, similar⟩
  | returning => exact absurd rfl (call _)
  | failure counterpart =>
    cases counterpart with
    | exceeded => exact .inl ⟨_, rfl, rfl⟩
    | other => exact .inl ⟨_, rfl, rfl⟩

/-- A call from any reachable state, and then the same call again, end alike: with the same failure,
or with values that differ at most in which functions and frames were made for them, and so have the
same text. What the second call writes is what the first wrote. -/
theorem calls_repeat (limit : Nat) {machine : Machine} {callee : Value} {arguments : List Value}
    (reachable : machine.Reachable) (grounded : callee.Grounded machine.scopes)
    (groundedAll : ∀ argument ∈ arguments, argument.Grounded machine.scopes) :
    let run := (applyAtDepth limit callee arguments).on machine
    let run' := (applyAtDepth limit callee arguments).on run.2
    ((∃ failure, run.1 = .error (.failure failure) ∧ run'.1 = .error (.failure failure)) ∨
      ∃ value value', run.1 = .ok value ∧ run'.1 = .ok value' ∧
        value.Similar Closure.SameLiteral value' ∧ value.text = value'.text) ∧
    ∃ text, run.2.output = machine.output ++ text ∧ run'.2.output = run.2.output ++ text := by
  intro run run'
  have chains := Renumbering.chains_behind (growing_applyAtDepth limit callee arguments machine)
    reachable.sound
  have continues := continues_applyAtDepth limit machine callee arguments
  have unfinished := applyAtDepth_on_ne_returning limit callee arguments machine
  let alignment := Renumbering.alignment
    (.behind machine.scopes.size (run.2.scopes.size - machine.scopes.size))
    (show limit - machine.depth = limit - machine.depth from rfl) machine.output run.2.output
  have aligned : alignment.aligned 0 machine run.2 :=
    ⟨chains, rfl, continues.depth, "", String.append_empty.symm, String.append_empty.symm⟩
  obtain ⟨ending, states⟩ := alignment.relates_applyAtDepth 0 (Value.Grounded.similar grounded)
    (List.forall₂_same.mpr fun argument member => (groundedAll argument member).similar) aligned
  refine ⟨?_, states.written⟩
  rcases ending.sameFailure_or_similar unfinished with
    fails | ⟨value, value', yields, yields', similar⟩
  · exact .inl fails
  · have similar := similar.mono fun _ _ same => Closure.SameLiteral.mk same.parameters same.body
    exact .inr ⟨value, value', yields, yields', similar,
      similar.text_eq fun _ _ => Closure.SameLiteral.text_eq⟩

/-- After `let make = fn(x) { puts(x); fn(y) { x } }`, the calls `make("a")` both write a line. They
make different functions, and these have the same text. -/
theorem calls_repeat_make :
    let body : Block := [.expression (.call (.identifier "puts") [.identifier "x"]),
      .expression (.function ["y"] [.expression (.identifier "x")])]
    let make : Value := .function ⟨0, ["x"], body, rootFrame⟩
    let machine := Machine.initial.withFunction.withBinding rootFrame "make" make
    let run := (applyAtDepth 1 make [.string "a"]).on machine
    let run' := (applyAtDepth 1 make [.string "a"]).on run.2
    (machine.Reachable ∧ make.Grounded machine.scopes ∧
      ∀ argument ∈ [Value.string "a"], argument.Grounded machine.scopes) ∧
    run.1 = .ok (.function ⟨1, ["y"], [.expression (.identifier "x")], 1⟩) ∧
    run'.1 = .ok (.function ⟨2, ["y"], [.expression (.identifier "x")], 2⟩) ∧
    run.2.output = "a\n" ∧ run'.2.output = "a\n" ++ "a\n" := by
  intro body make machine run run'
  have reachable : machine.Reachable := by
    have passes : ⟨machine, [rootFrame]⟩ ∈
        Program.history 1 rootFrame ⟨[.binding "make" (.function ["x"] body)]⟩ .initial :=
      .tail _ (.tail _ (.head _))
    exact .passed .initial Nat.zero_lt_one passes
  have grounded : make.Grounded machine.scopes := .ofParts Nat.zero_lt_one rfl
  have groundedAll : ∀ argument ∈ [Value.string "a"], argument.Grounded machine.scopes :=
    List.forall_mem_singleton.mpr (.ofParts trivial rfl)
  obtain ⟨-, text, written, written'⟩ := calls_repeat 1 reachable grounded groundedAll
  have line : run.2.output = "a\n" := by with_unfolding_all rfl
  obtain rfl : "a\n" = text := line.symm.trans (written.trans String.empty_append)
  refine ⟨⟨reachable, grounded, groundedAll⟩, ?_, ?_, line, written'.trans (congrArg (· ++ _) line)⟩
  · with_unfolding_all rfl
  · with_unfolding_all rfl

end MonkeyLang
