/-
This file proves that the limit on active calls only ever cuts a run off. A run
under one limit is compared with the run from the same state under a larger one:
as long as the first is not cut off, both do the same. From there on the second
goes its own way, but what has been written stays written.

Nothing in the language takes notice of a failure, so a run that is cut off
somewhere ends there, and the failure is how it ends.
-/

import MonkeyLang.Proofs.Evaluation.Depth

namespace MonkeyLang

open Machine

/-! ### Runs that are cut off -/

/-- The limit on active calls is why the evaluation ended. -/
def CutOff {α : Type} (outcome : Except Signal α) : Prop :=
  ∃ limit, outcome = .error (.failure (.callDepthExceeded limit))

theorem CutOff.error {α β : Type} {signal : Signal}
    (cutOff : CutOff (.error signal : Except Signal α)) :
    CutOff (.error signal : Except Signal β) := by
  obtain ⟨limit, equal⟩ := cutOff
  obtain rfl := Except.error.inj equal
  exact ⟨limit, rfl⟩

theorem not_cutOff_ok {α : Type} (result : α) : ¬CutOff (.ok result : Except Signal α) :=
  nofun

theorem CutOff.afterCall {outcome : Except Signal Value} (cutOff : CutOff outcome) :
    CutOff (Signal.afterCall outcome) := by
  obtain ⟨limit, rfl⟩ := cutOff
  exact ⟨limit, rfl⟩

/-! ### Two limits -/

/-- A computation that only adds to the output, and whose results are related to something. -/
structure Additive {α β : Type} (results : α → β → Prop) (computation : Computation β) : Prop where
  writes (machine : Machine) : machine.WritesBefore (computation.on machine).2
  related (machine : Machine) (result : β) : (computation.on machine).1 = .ok result →
    ∃ other, results other result

theorem Additive.bind {α β γ δ : Type} {results : α → β → Prop} {further : γ → δ → Prop}
    {computation : Computation β} {next : β → Computation δ}
    (first : Additive results computation)
    (second : ∀ {result result'}, results result result' → Additive further (next result')) :
    Additive further (computation >>= next) := by
  constructor
  · intro machine
    rw [on_bind]
    have writes := first.writes machine
    have related := first.related machine
    generalize computation.on machine = run at writes related ⊢
    obtain ⟨_ | result, middle⟩ := run
    · exact writes
    · obtain ⟨_, other⟩ := related _ rfl
      exact writes.trans ((second other).writes middle)
  · intro machine result ended
    obtain ⟨first', middle, began, goesOn⟩ := on_bind_eq_ok.mp (Prod.ext ended rfl)
    obtain ⟨_, other⟩ := first.related _ _ (congrArg Prod.fst began)
    exact (second other).related _ _ (congrArg Prod.fst goesOn)

/-- How a run ends compared with the run under a larger limit: it is cut off with the beginning of
what the other writes, or both end alike, at the given depth. -/
def OnlyCutsOff (depth : Nat) {α β : Type} (results : α → β → Prop)
    (run : Except Signal α × Machine) (run' : Except Signal β × Machine) : Prop :=
  (CutOff run.1 ∧ run.2.WritesBefore run'.2) ∨
    (Ending Eq Eq results run.1 run'.1 ∧ run.2 = run'.2 ∧ run.2.depth = depth)

/-- Runs that do the same are not cut off differently. -/
theorem OnlyCutsOff.of_eq {depth : Nat} {α : Type} {results : α → α → Prop}
    {run run' : Except Signal α × Machine} (same : ∀ result, results result result)
    (equal : run = run') (kept : run.2.depth = depth) : OnlyCutsOff depth results run run' := by
  subst equal
  exact .inr ⟨.refl same (fun _ => rfl) (fun _ => rfl) run.1, rfl, kept⟩

/-- What holds of two bodies one call deeper holds of the calls. -/
theorem OnlyCutsOff.afterCall {depth : Nat} {run run' : Except Signal Value × Machine}
    (body : OnlyCutsOff (depth + 1) (Value.Similar Eq) run run') :
    OnlyCutsOff depth (Value.Similar Eq) (Signal.afterCall run.1, run.2.left)
      (Signal.afterCall run'.1, run'.2.left) := by
  rcases body with ⟨cutOff, written⟩ | ⟨ending, last, kept⟩
  · exact .inl ⟨cutOff.afterCall, written⟩
  · have equal : run = run' := Prod.ext (ending.eq Value.Similar.eq) last
    refine .of_eq (.refl fun _ => rfl) ?_ (congrArg (· - 1) kept)
    rw [equal]

/-- The comparison of runs under two limits, from one state of the given depth. -/
def Comparison.ofLimits (depth : Nat) : Comparison Eq where
  relates results computation computation' :=
    Additive results computation' ∧ ∀ machine : Machine, machine.depth = depth →
      OnlyCutsOff depth results (computation.on machine) (computation'.on machine)
  pure {_ _ _ result _} same := by
    refine ⟨⟨fun _ => .of_eq rfl, fun _ _ equal => ?_⟩,
      fun machine start => .inr ⟨.ok same, rfl, start⟩⟩
    obtain rfl := Except.ok.inj equal
    exact ⟨result, same⟩
  returning similar :=
    ⟨⟨fun _ => .of_eq rfl, nofun⟩,
      fun _ start => .inr ⟨.returning similar, rfl, start⟩⟩
  failure _ :=
    ⟨⟨fun _ => .of_eq rfl, nofun⟩,
      fun _ start => .inr ⟨.failure rfl, rfl, start⟩⟩
  bind {_ _ _ _ _ _ computation computation' next next'} first second := by
    obtain ⟨additive, compared⟩ := first
    have further {result result'} same := (@second result result' same).1
    refine ⟨additive.bind further, fun machine start => ?_⟩
    have compared := compared machine start
    have related := additive.related machine
    rw [on_bind, on_bind]
    generalize computation.on machine = run at compared ⊢
    generalize computation'.on machine = run' at compared related ⊢
    obtain ⟨outcome, middle⟩ := run
    obtain ⟨outcome', middle'⟩ := run'
    rcases compared with ⟨cutOff, written⟩ | ⟨ending, rfl, kept⟩
    · -- The first run is over, and whatever the second still does adds to its output.
      cases outcome with
      | ok result => exact absurd cutOff (not_cutOff_ok result)
      | error signal =>
        refine .inl ⟨cutOff.error, ?_⟩
        cases outcome' with
        | error signal' => exact written
        | ok result' =>
          obtain ⟨_, other⟩ := related _ rfl
          exact written.trans ((further other).writes middle')
    · cases ending with
      | ok same => exact (second same).2 _ kept
      | returning similar => exact .inr ⟨.returning similar, rfl, kept⟩
      | failure equal => exact .inr ⟨.failure equal, rfl, kept⟩

section Limits

variable {depth : Nat} {α : Type} {results : α → α → Prop}

/-- What does the same under both limits is related. -/
theorem Comparison.relates_ofLimits {computation computation' : Computation α}
    (same : ∀ result, results result result)
    (continues : ∀ machine : Machine, machine.Continues (computation'.on machine).2)
    (equal : ∀ machine, machine.depth = depth → computation.on machine = computation'.on machine) :
    (Comparison.ofLimits depth).relates results computation computation' := by
  refine ⟨⟨fun machine => (continues machine).output, fun _ result _ => ⟨result, same result⟩⟩,
    fun machine start => .of_eq same (equal machine start) ?_⟩
  rw [equal machine start]
  exact (continues machine).depth.trans start

/-- Evaluation under two limits is related at a depth at which calls are. -/
theorem Comparison.respects_ofLimits {apply apply' : Application}
    (calls : (Comparison.ofLimits depth).RelatesCalls apply apply') (frame : Nat) :
    (Comparison.ofLimits depth).Respects apply apply' frame frame where
  calls := calls
  resolve name := by
    refine relates_ofLimits (.refl fun _ => rfl) (fun machine => ?_) fun _ _ => rfl
    rw [still_resolve]
    exact .refl machine
  newFunction parameters body :=
    relates_ofLimits (.refl fun _ => rfl) (fun _ => ⟨rfl, .of_eq rfl⟩)
      fun _ _ => rfl
  bindName name _ _ similar := by
    rw [similar.eq]
    exact relates_ofLimits (fun _ => rfl) (fun _ => ⟨rfl, .of_eq rfl⟩)
      fun _ _ => rfl

end Limits

section Calls

variable {limit more : Nat} (larger : limit ≤ more)

include larger

/-- A call under two limits: if bodies under them only ever differ by being cut off, so do the
calls. -/
theorem onlyCutsOff_call {depth : Nat}
    (bodies : depth < limit → ∀ (frame : Nat) (body : Block) (machine : Machine),
      machine.depth = depth + 1 →
      OnlyCutsOff (depth + 1) (Value.Similar Eq)
        ((evaluateStatements (applyAtDepth limit) frame body .null).on machine)
        ((evaluateStatements (applyAtDepth more) frame body .null).on machine))
    (closure : Closure) (arguments : List Value) (machine : Machine)
    (start : machine.depth = depth) :
    OnlyCutsOff depth (Value.Similar Eq)
      ((applyAtDepth limit (.function closure) arguments).on machine)
      ((applyAtDepth more (.function closure) arguments).on machine) := by
  by_cases right : closure.parameters.length = arguments.length
  · rcases Nat.lt_or_ge machine.depth limit with fewer | deepest
    · have inside := bodies (start ▸ fewer) machine.scopes.size closure.body
        (machine.withFrame (closure.frameOfCall arguments)).entered (congrArg (· + 1) start)
      rw [applyAtDepth_on_of_lt right fewer rfl,
        applyAtDepth_on_of_lt right (Nat.lt_of_lt_of_le fewer larger) rfl]
      exact inside.afterCall
    · refine .inl ?_
      rw [applyAtDepth_on_of_le right deepest]
      exact ⟨⟨limit, rfl⟩, (continues_applyAtDepth more machine _ arguments).output⟩
  · rw [applyAtDepth_on_of_ne right, applyAtDepth_on_of_ne right]
    exact .inr ⟨.failure rfl, rfl, start⟩

/-- Calls under two limits are related at a depth if bodies are one call deeper. -/
theorem relatesCalls_of_bodies {depth : Nat}
    (bodies : depth < limit → ∀ (frame : Nat) (body : Block),
      (Comparison.ofLimits (depth + 1)).relates (Value.Similar Eq)
        (evaluateStatements (applyAtDepth limit) frame body .null)
        (evaluateStatements (applyAtDepth more) frame body .null)) :
    (Comparison.ofLimits depth).RelatesCalls (applyAtDepth limit) (applyAtDepth more) := by
  intro callee _ arguments _ same alike
  obtain rfl := same.eq
  obtain rfl := eq_of_forall₂_similar alike
  have similar (value : Value) : value.Similar Eq value := .refl (fun _ => rfl) value
  have continues machine := continues_applyAtDepth more machine callee arguments
  cases callee with
  | function closure =>
    refine ⟨⟨fun machine => (continues machine).output, fun _ value _ => ⟨value, similar value⟩⟩,
      onlyCutsOff_call larger (fun fewer frame body => ?_) closure arguments⟩
    exact (bodies fewer frame body).2
  | builtin builtin =>
    refine Comparison.relates_ofLimits similar continues fun machine _ => ?_
    rw [applyAtDepth_on_builtin, applyAtDepth_on_builtin]
  | _ => exact Comparison.relates_ofLimits similar continues fun machine _ => rfl

/-- Calls under two limits are related, by induction on how many more calls the smaller limit
admits. -/
theorem relatesCalls_ofLimits (depth : Nat) :
    (Comparison.ofLimits depth).RelatesCalls (applyAtDepth limit) (applyAtDepth more) := by
  induction further : limit - depth generalizing depth with
  | zero =>
    refine relatesCalls_of_bodies larger fun fewer => ?_
    exact absurd (Nat.le_of_sub_eq_zero further) (Nat.not_le_of_lt fewer)
  | succ further inductionHypothesis =>
    refine relatesCalls_of_bodies larger fun _ frame body => ?_
    have calls := inductionHypothesis (depth + 1) (by omega)
    exact related_evaluateStatements (Comparison.respects_ofLimits calls frame) body .null

end Calls

/-! ### Programs -/

/-- Under a larger limit a program does just the same if it is not cut off, with the same result
and the same state behind it. If it is cut off, then it has written the beginning of what it writes
under the larger limit. -/
theorem limit_only_cuts_off {limit more : Nat} (larger : limit ≤ more) (program : Program)
    (frame : Nat) (machine : Machine) :
    let run := StateT.run (program.execute limit frame) machine
    let run' := StateT.run (program.execute more frame) machine
    (¬CutOff (program.outcome limit frame machine) → run' = run) ∧
      (CutOff (program.outcome limit frame machine) → run.2.WritesBefore run'.2) := by
  have calls := relatesCalls_ofLimits larger 0
  have compared := (related_evaluateStatements (Comparison.respects_ofLimits calls frame)
    program.statements (.refl (fun _ => rfl) .null)).2 { machine with depth := 0 } rfl
  dsimp only
  rw [Program.execute_run, Program.execute_run]
  rcases compared with ⟨cutOff, written⟩ | ⟨ending, last, -⟩
  · exact ⟨fun finished => absurd cutOff finished, fun _ => written⟩
  · have equal : program.outcome limit frame machine = program.outcome more frame machine :=
      ending.eq Value.Similar.eq
    rw [equal, last]
    exact ⟨fun _ => rfl, fun _ => .of_eq rfl⟩

theorem limit_only_cuts_off_nested :
    let program : Program :=
      ⟨[.expression (.call (.identifier "puts") [.integer 1]),
        .expression (.call (.function [] [.expression (.call (.function [] []) [])]) []),
        .expression (.call (.identifier "puts") [.integer 2])]⟩
    let run limit := StateT.run (program.execute limit rootFrame) .initial
    (CutOff (program.outcome 1 rootFrame .initial) ∧ (run 1).2.output = "1\n" ∧
      (run 2).2.output = "1\n2\n" ∧ (run 1).2.WritesBefore (run 2).2) ∧
    ¬CutOff (program.outcome 2 rootFrame .initial) ∧ run 3 = run 2 := by
  intro program run
  have cutOff : CutOff (program.outcome 1 rootFrame .initial) := ⟨1, by with_unfolding_all rfl⟩
  have finished : ¬CutOff (program.outcome 2 rootFrame .initial) := by
    have ended : program.outcome 2 rootFrame .initial = .ok .null := by with_unfolding_all rfl
    rw [ended]
    exact not_cutOff_ok Value.null
  obtain ⟨-, written⟩ := limit_only_cuts_off (by decide : 1 ≤ 2) program rootFrame .initial
  obtain ⟨same, -⟩ := limit_only_cuts_off (by decide : 2 ≤ 3) program rootFrame .initial
  exact ⟨⟨cutOff, by with_unfolding_all rfl, by with_unfolding_all rfl, written cutOff⟩, finished,
    same finished⟩

end MonkeyLang
