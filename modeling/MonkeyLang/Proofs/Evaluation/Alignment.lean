/-
This file follows two runs of one program step by step. An alignment says how
their states correspond, at every number of calls that have been entered since
the start, and which frames correspond. It lists what has to be shown for it:
that every single step takes corresponding states to corresponding states. Then
the runs of a whole program correspond, since calls nest no deeper in one run
than in the other.

The limits of the two runs may differ, but must leave the same number of calls.
-/

import MonkeyLang.Proofs.Evaluation.Comparison

namespace MonkeyLang

open Machine

/-! ### Single steps -/

namespace Machine

/-- The state in which a name is bound. -/
def withBinding (machine : Machine) (frame : Nat) (name : String) (value : Value) : Machine :=
  { machine with scopes := machine.scopes.set frame name value }

/-- The state in which one more function has been made. -/
def withFunction (machine : Machine) : Machine :=
  { machine with functions := machine.functions + 1 }

/-- The function that is made next. -/
def nextFunction (machine : Machine) (parameters : List String) (body : Block) (frame : Nat) :
    Closure :=
  ⟨machine.functions, parameters, body, frame⟩

/-- The state in which more text has been written. -/
def withText (machine : Machine) (text : String) : Machine :=
  { machine with output := machine.output ++ text }

end Machine

/-! ### Alignments -/

/-- How failures correspond under two limits: a failure by one limit to that by the other, and all
else to itself. -/
inductive Failure.Counterpart (limit limit' : Nat) : Failure → Failure → Prop
  | exceeded : Counterpart limit limit' (.callDepthExceeded limit) (.callDepthExceeded limit')
  | other {failure : Failure} : failure.isDepthExceeded = false →
      Counterpart limit limit' failure failure

/-- Under one limit a failure corresponds to itself only. -/
theorem Failure.Counterpart.eq {limit : Nat} {failure failure' : Failure}
    (counterpart : Counterpart limit limit failure failure') : failure = failure' := by
  cases counterpart <;> rfl

/-- A correspondence between the states of two runs that every step keeps. Its level is the number
of calls entered since the start and not yet left. -/
structure Alignment (functions : Closure → Closure → Prop) (limit limit' : Nat) where
  aligned (level : Nat) : Machine → Machine → Prop
  /-- Which frames correspond. -/
  frames : Nat → Nat → Prop
  /-- The depth at the start of either run. -/
  start : Nat
  start' : Nat
  remaining : limit - start = limit' - start'
  depth {level : Nat} {machine machine' : Machine} : aligned level machine machine' →
    machine.depth = start + level ∧ machine'.depth = start' + level
  literal {closure closure' : Closure} : functions closure closure' →
    closure.parameters = closure'.parameters ∧ closure.body = closure'.body
  found {level : Nat} {machine machine' : Machine} {frame frame' : Nat} :
    aligned level machine machine' → frames frame frame' → ∀ name : String,
    Option.Rel (Value.Similar functions) (machine.scopes.get? frame name)
      (machine'.scopes.get? frame' name)
  made {level : Nat} {machine machine' : Machine} {frame frame' : Nat} :
    aligned level machine machine' → frames frame frame' →
    ∀ (parameters : List String) (body : Block),
    functions (machine.nextFunction parameters body frame)
      (machine'.nextFunction parameters body frame')
  withFunction {level : Nat} {machine machine' : Machine} : aligned level machine machine' →
    aligned level machine.withFunction machine'.withFunction
  withBinding {level : Nat} {machine machine' : Machine} {frame frame' : Nat} {name : String}
    {value value' : Value} : aligned level machine machine' → frames frame frame' →
    value.Similar functions value' →
    aligned level (machine.withBinding frame name value) (machine'.withBinding frame' name value')
  withText {level : Nat} {machine machine' : Machine} {text : String} :
    aligned level machine machine' → aligned level (machine.withText text) (machine'.withText text)
  withFrame {level : Nat} {machine machine' : Machine} {closure closure' : Closure}
    {arguments arguments' : List Value} : aligned level machine machine' →
    functions closure closure' → List.Forall₂ (Value.Similar functions) arguments arguments' →
    frames machine.scopes.size machine'.scopes.size ∧
      aligned level (machine.withFrame (closure.frameOfCall arguments))
        (machine'.withFrame (closure'.frameOfCall arguments'))
  entered {level : Nat} {machine machine' : Machine} : aligned level machine machine' →
    aligned (level + 1) machine.entered machine'.entered
  left {level : Nat} {machine machine' : Machine} : aligned (level + 1) machine machine' →
    aligned level machine.left machine'.left

namespace Alignment

variable {functions : Closure → Closure → Prop} {limit limit' : Nat}
  (alignment : Alignment functions limit limit')

/-- Runs at a level are compared by their states and by how they end. -/
def comparison (level : Nat) : Comparison functions :=
  .ofStates functions (Failure.Counterpart limit limit') (fun _ => .other)
    (alignment.aligned level)

include alignment in
theorem text_eq {closure closure' : Closure} (related : functions closure closure') :
    closure.text = closure'.text := by
  obtain ⟨parameters, body⟩ := alignment.literal related
  rw [Closure.text, Closure.text, parameters, body]

/-- A call is refused in one run if and only if it is in the other. -/
theorem refused_iff {level : Nat} {machine machine' : Machine}
    (aligned : alignment.aligned level machine machine') :
    limit ≤ machine.depth ↔ limit' ≤ machine'.depth := by
  obtain ⟨depth, depth'⟩ := alignment.depth aligned
  have remaining := alignment.remaining
  omega

/-- All that evaluation does itself keeps the alignment, if calls do. -/
theorem respects {level : Nat} {apply apply' : Application} {frame frame' : Nat}
    (paired : alignment.frames frame frame')
    (calls : (alignment.comparison level).RelatesCalls apply apply') :
    (alignment.comparison level).Respects apply apply' frame frame' where
  calls := calls
  resolve name := by
    intro machine machine' aligned
    have found := alignment.found aligned paired name
    rw [resolve, resolve, on_get_bind, on_get_bind]
    generalize machine.scopes.get? frame name = value at found ⊢
    generalize machine'.scopes.get? frame' name = value' at found ⊢
    cases found with
    | some similar => exact ⟨.ok similar, aligned⟩
    | none =>
      cases Builtin.ofName? name with
      | some builtin => exact ⟨.ok (.builtin builtin), aligned⟩
      | none => exact ⟨.failure (.other rfl), aligned⟩
  newFunction parameters body := fun _ _ aligned =>
    ⟨.ok (.function (alignment.made aligned paired parameters body)),
      alignment.withFunction aligned⟩
  bindName name _ _ similar := fun _ _ aligned =>
    ⟨.ok rfl, alignment.withBinding aligned paired similar⟩

/-- Calls of related functions keep the alignment, if their bodies do one level further. -/
theorem relates_call {level : Nat} {runBody runBody' : Nat → Block → Computation Value}
    (bodies : ¬limit ≤ alignment.start + level → ∀ ⦃frame frame' : Nat⦄,
      alignment.frames frame frame' → ∀ body : Block,
      (alignment.comparison (level + 1)).relates (Value.Similar functions) (runBody frame body)
        (runBody' frame' body))
    ⦃closure closure' : Closure⦄ ⦃arguments arguments' : List Value⦄
    (related : functions closure closure')
    (similar : List.Forall₂ (Value.Similar functions) arguments arguments') :
    (alignment.comparison level).relates (Value.Similar functions)
      (closure.call limit runBody arguments) (closure'.call limit' runBody' arguments') := by
  intro machine machine' aligned
  obtain ⟨parameters, body⟩ := alignment.literal related
  by_cases right : closure.parameters.length = arguments.length
  · have right' : closure'.parameters.length = arguments'.length := by
      rw [← parameters, ← similar.length_eq, right]
    obtain ⟨paired, framed⟩ := alignment.withFrame aligned related similar
    rw [Closure.call_on_of_eq right, Closure.call_on_of_eq right']
    by_cases deepest : limit ≤ machine.depth
    · simp only [if_pos deepest, if_pos ((alignment.refused_iff aligned).mp deepest)]
      exact ⟨.failure .exceeded, framed⟩
    · simp only [if_neg deepest, if_neg (mt (alignment.refused_iff aligned).mpr deepest)]
      rw [(alignment.depth aligned).1] at deepest
      have inside := bodies deepest paired closure.body (alignment.entered framed)
      rw [← body]
      generalize (runBody _ _).on _ = run at inside ⊢
      generalize (runBody' _ _).on _ = run' at inside ⊢
      obtain ⟨outcome, last⟩ := run
      obtain ⟨outcome', last'⟩ := run'
      obtain ⟨ending, alignedLast⟩ := inside
      have alignedLeft := alignment.left alignedLast
      cases ending with
      | ok similar => exact ⟨.ok similar, alignedLeft⟩
      | returning similar => exact ⟨.ok similar, alignedLeft⟩
      | failure counterpart => exact ⟨.failure counterpart, alignedLeft⟩
  · have wrong : closure'.parameters.length ≠ arguments'.length := by
      rwa [← parameters, ← similar.length_eq]
    rw [Closure.call_on_of_ne right, Closure.call_on_of_ne wrong, parameters, similar.length_eq]
    exact ⟨.failure (.other rfl), aligned⟩

/-- Calls keep the alignment, in whatever number they may still nest. -/
theorem relates_applyWith {further level : Nat}
    (left : limit - (alignment.start + level) = further) :
    (alignment.comparison level).RelatesCalls (applyWith limit (runBody limit further))
      (applyWith limit' (runBody limit' further)) := by
  have writes (level : Nat) (text : String) :
      (alignment.comparison level).relates Eq (write text : Computation Unit) (write text) :=
    fun _ _ aligned => ⟨.ok rfl, alignment.withText aligned⟩
  induction further generalizing level with
  | zero =>
    refine (alignment.comparison level).applyWith (fun _ _ => alignment.text_eq)
      (alignment.relates_call fun more => ?_) (writes level)
    exact absurd (Nat.le_of_sub_eq_zero left) more
  | succ further inductionHypothesis =>
    refine (alignment.comparison level).applyWith (fun _ _ => alignment.text_eq)
      (alignment.relates_call fun _ frame frame' paired body => ?_) (writes level)
    have fewer : limit - (alignment.start + (level + 1)) = further := by omega
    have calls := inductionHypothesis fewer
    exact related_evaluateStatements (alignment.respects paired calls) body .null

/-- Calls at the depth of the state keep the alignment. -/
theorem relates_applyAtDepth (level : Nat) :
    (alignment.comparison level).RelatesCalls (applyAtDepth limit) (applyAtDepth limit') := by
  intro callee callee' arguments arguments' similar alike machine machine' aligned
  obtain ⟨depth, depth'⟩ := alignment.depth aligned
  have remaining := alignment.remaining
  have same : limit' - machine'.depth = limit - machine.depth := by omega
  rw [applyAtDepth_on, applyAtDepth_on, same]
  exact alignment.relates_applyWith (by rw [depth]) similar alike aligned

/-- Evaluation that calls at the depth of the state keeps the alignment. -/
theorem respects_applyAtDepth (level : Nat) {frame frame' : Nat}
    (paired : alignment.frames frame frame') :
    (alignment.comparison level).Respects (applyAtDepth limit) (applyAtDepth limit') frame
      frame' :=
  alignment.respects paired (alignment.relates_applyAtDepth level)

end Alignment

end MonkeyLang
