/-
This file compares runs whose frames have different numbers. Frames are never
dropped, and no program can tell their numbers. So it does not matter if there
are some more of them in one run, left over from earlier or put beneath the
others, as long as the frames that the runs look into correspond and keep their
order.

Outermost frames may rest on a further frame in the second run, if that binds
nothing.
-/

import Mathlib.Order.Monotone.Basic
import MonkeyLang.Proofs.Evaluation.Alignment
import MonkeyLang.Proofs.Isolation

namespace MonkeyLang

open Machine

/-- Which frame of a second run stands for which frame of a first. -/
structure Renumbering where
  number : Nat → Nat
  increasing : StrictMono number
  /-- The frame of the second run that encloses what is outermost in the first. -/
  ground : Option Nat
  below : ∀ beneath ∈ ground, ∀ frame, beneath < number frame

namespace Renumbering

variable (renumbering : Renumbering)

/-! ### Frames -/

/-- The frame around a frame of the second run, given the one around the frame it stands for. -/
def outer : Option Nat → Option Nat
  | none => renumbering.ground
  | some frame => some (renumbering.number frame)

/-- Functions with the same parameters and the same body, made in frames that correspond. -/
structure Functions (closure closure' : Closure) : Prop where
  parameters : closure.parameters = closure'.parameters
  body : closure.body = closure'.body
  frame : closure'.frame = renumbering.number closure.frame

/-- One name bound to similar values. -/
inductive Bindings : String × Value → String × Value → Prop
  | intro {name : String} {value value' : Value} : value.Similar renumbering.Functions value' →
      Bindings (name, value) (name, value')

/-- Frames that bind the same names in the same order, to similar values. -/
structure Frames (frame frame' : Frame) : Prop where
  bindings : List.Forall₂ renumbering.Bindings frame.bindings frame'.bindings
  outer : frame'.outer = renumbering.outer frame.outer

variable {renumbering}

theorem Frames.find? {frame frame' : Frame} (alike : renumbering.Frames frame frame')
    (name : String) :
    Option.Rel (Value.Similar renumbering.Functions) (frame.find? name) (frame'.find? name) := by
  rw [Frame.find?, Frame.find?]
  have bindings := alike.bindings
  generalize frame.bindings = before, frame'.bindings = before' at bindings ⊢
  induction bindings with
  | nil => exact .none
  | @cons _ _ _ _ first _ inductionHypothesis =>
    obtain ⟨similar⟩ := first
    rw [Frame.findAmong, Frame.findAmong]
    split
    · exact .some similar
    · exact inductionHypothesis

theorem forall₂_bindAmong {name : String} {value value' : Value}
    (similar : value.Similar renumbering.Functions value')
    {bindings bindings' : List (String × Value)}
    (alike : List.Forall₂ renumbering.Bindings bindings bindings') :
    List.Forall₂ renumbering.Bindings (Frame.bindAmong name value bindings)
      (Frame.bindAmong name value' bindings') := by
  induction alike with
  | nil => exact .cons (.intro similar) .nil
  | cons first rest inductionHypothesis =>
    obtain ⟨before⟩ := first
    rw [Frame.bindAmong, Frame.bindAmong]
    split
    · exact .cons (.intro similar) rest
    · exact .cons (.intro before) inductionHypothesis

theorem Frames.bind {frame frame' : Frame} (alike : renumbering.Frames frame frame')
    (name : String) {value value' : Value}
    (similar : value.Similar renumbering.Functions value') :
    renumbering.Frames (frame.bind name value) (frame'.bind name value') :=
  ⟨forall₂_bindAmong similar alike.bindings, alike.outer⟩

theorem Frames.bindAll {arguments arguments' : List Value}
    (similar : List.Forall₂ (Value.Similar renumbering.Functions) arguments arguments') :
    ∀ (names : List String) {frame frame' : Frame}, renumbering.Frames frame frame' →
      renumbering.Frames (frame.bindAll names arguments) (frame'.bindAll names arguments') := by
  induction similar with
  | nil =>
    intro names frame frame' alike
    rw [Frame.bindAll, Frame.bindAll, List.zip_nil_right]
    exact alike
  | cons first _ inductionHypothesis =>
    rintro (_ | ⟨name, names⟩) frame frame' alike
    · exact alike
    · exact inductionHypothesis names (alike.bind name first)

/-- The frames of two calls of one function correspond. -/
theorem Frames.ofCall {closure closure' : Closure} {arguments arguments' : List Value}
    (same : renumbering.Functions closure closure')
    (similar : List.Forall₂ (Value.Similar renumbering.Functions) arguments arguments') :
    renumbering.Frames (closure.frameOfCall arguments) (closure'.frameOfCall arguments') := by
  rw [Closure.frameOfCall, Closure.frameOfCall, ← same.parameters, same.frame]
  exact Frames.bindAll similar closure.parameters ⟨.nil, rfl⟩

/-! ### Chains of frames -/

/-- Frames of either run that correspond, with as many to come in one as in the other. -/
structure Chains (renumbering : Renumbering) (scopes scopes' : Scopes) : Prop where
  frames : ∀ number, Option.Rel renumbering.Frames (scopes.frame? number)
    (scopes'.frame? (renumbering.number number))
  next : ∀ further, renumbering.number (scopes.size + further) = scopes'.size + further
  ground : ∀ beneath ∈ renumbering.ground, scopes'.frame? beneath = some ⟨[], none⟩

namespace Chains

variable {scopes scopes' : Scopes}

theorem get?_beneath (chains : Chains renumbering scopes scopes') {beneath : Nat}
    (ground : renumbering.ground = some beneath) (name : String) :
    scopes'.get? beneath name = none := by
  rw [Scopes.get?.eq_def, chains.ground beneath ground]
  rfl

/-- In frames that correspond, a name leads to similar values. -/
theorem get? (chains : Chains renumbering scopes scopes') (name : String) (number : Nat) :
    Option.Rel (Value.Similar renumbering.Functions) (scopes.get? number name)
      (scopes'.get? (renumbering.number number) name) := by
  induction number using Nat.strongRecOn with
  | ind number inductionHypothesis =>
    have framed := chains.frames number
    rw [Scopes.get?.eq_def scopes, Scopes.get?.eq_def scopes']
    generalize scopes.frame? number = found at framed ⊢
    generalize scopes'.frame? (renumbering.number number) = found' at framed ⊢
    cases framed with
    | none => exact .none
    | @some frame frame' alike =>
      have bound := alike.find? name
      dsimp only
      generalize frame.find? name = value at bound ⊢
      generalize frame'.find? name = value' at bound ⊢
      cases bound with
      | some similar => exact .some similar
      | none =>
        rw [alike.outer]
        cases frame.outer with
        | some outer =>
          simp only [Renumbering.outer, renumbering.increasing.lt_iff_lt]
          split
          · exact inductionHypothesis outer ‹_›
          · exact .none
        | none =>
          cases resting : renumbering.ground with
          | none =>
            simp only [Renumbering.outer, resting]
            exact .none
          | some beneath =>
            simp only [Renumbering.outer, resting, get?_beneath chains resting name, ite_self]
            exact .none

theorem set (chains : Chains renumbering scopes scopes') (number : Nat) (name : String)
    {value value' : Value} (similar : value.Similar renumbering.Functions value') :
    Chains renumbering (scopes.set number name value)
      (scopes'.set (renumbering.number number) name value') := by
  refine ⟨fun other => ?_, fun further => ?_, fun beneath ground => ?_⟩
  · by_cases same : other = number
    · rw [same, Scopes.frame?_set_self, Scopes.frame?_set_self]
      have framed := chains.frames number
      generalize scopes.frame? number = found at framed ⊢
      generalize scopes'.frame? (renumbering.number number) = found' at framed ⊢
      cases framed with
      | none => exact .none
      | some alike => exact .some (alike.bind name similar)
    · rw [Scopes.frame?_set_of_ne same, Scopes.frame?_set_of_ne]
      · exact chains.frames other
      · exact fun equal => same (renumbering.increasing.injective equal)
  · rw [Scopes.size_set, Scopes.size_set]
    exact chains.next further
  · rw [Scopes.frame?_set_of_ne (Nat.ne_of_lt (renumbering.below beneath ground number))]
    exact chains.ground beneath ground

theorem add (chains : Chains renumbering scopes scopes') {frame frame' : Frame}
    (alike : renumbering.Frames frame frame') :
    Chains renumbering (scopes.add frame) (scopes'.add frame') := by
  have first : renumbering.number scopes.size = scopes'.size := chains.next 0
  refine ⟨fun number => ?_, fun further => ?_, fun beneath ground => ?_⟩
  · by_cases same : number = scopes.size
    · rw [same, first, Scopes.frame?_add_size, Scopes.frame?_add_size]
      exact .some alike
    · rw [Scopes.frame?_add_of_ne same, Scopes.frame?_add_of_ne]
      · exact chains.frames number
      · exact fun equal => same (renumbering.increasing.injective (equal.trans first.symm))
  · rw [Scopes.size_add, Scopes.size_add, Nat.add_assoc, Nat.add_assoc]
    exact chains.next (1 + further)
  · have old : beneath < scopes'.size := first ▸ renumbering.below beneath ground scopes.size
    rw [Scopes.frame?_add old]
    exact chains.ground beneath ground

end Chains

/-! ### Runs -/

/-- The states of two runs with frames that correspond, at some depth each, after either has
written the same behind what it found. -/
structure States (renumbering : Renumbering) (depth depth' : Nat) (earlier earlier' : String)
    (machine machine' : Machine) : Prop where
  chains : Chains renumbering machine.scopes machine'.scopes
  depth : machine.depth = depth
  depth' : machine'.depth = depth'
  written : ∃ text, machine.output = earlier ++ text ∧ machine'.output = earlier' ++ text

/-- Runs with frames that correspond are aligned. -/
def alignment (renumbering : Renumbering) {limit limit' start start' : Nat}
    (remaining : limit - start = limit' - start') (earlier earlier' : String) :
    Alignment renumbering.Functions limit limit' where
  aligned level := States renumbering (start + level) (start' + level) earlier earlier'
  frames frame frame' := frame' = renumbering.number frame
  start := start
  start' := start'
  remaining := remaining
  depth states := ⟨states.depth, states.depth'⟩
  literal same := ⟨same.parameters, same.body⟩
  found := by
    rintro level machine machine' frame _ states rfl name
    exact states.chains.get? name frame
  made := by
    rintro level machine machine' frame _ states rfl parameters body
    exact ⟨rfl, rfl, rfl⟩
  withFunction states := ⟨states.chains, states.depth, states.depth', states.written⟩
  withBinding := by
    rintro level machine machine' frame _ name value value' states rfl similar
    exact ⟨states.chains.set frame name similar, states.depth, states.depth', states.written⟩
  withText := by
    rintro level machine machine' text states
    obtain ⟨before, written, written'⟩ := states.written
    refine ⟨states.chains, states.depth, states.depth', before ++ text, ?_, ?_⟩
    · exact (congrArg (· ++ text) written).trans String.append_assoc
    · exact (congrArg (· ++ text) written').trans String.append_assoc
  withFrame := by
    rintro level machine machine' closure closure' arguments arguments' states same similar
    exact ⟨(states.chains.next 0).symm, states.chains.add (.ofCall same similar), states.depth,
      states.depth', states.written⟩
  entered states := ⟨states.chains, congrArg (· + 1) states.depth,
    congrArg (· + 1) states.depth', states.written⟩
  left states := ⟨states.chains, congrArg (· - 1) states.depth,
    congrArg (· - 1) states.depth', states.written⟩

end Renumbering

end MonkeyLang
