/-
This file proves that the count of active calls is balanced. Each step of an
activity is looked at together with what it does to the depth: a call is entered
below the limit, refused at the limit, and left only after it was entered; no
other step touches the depth. So the limit is never exceeded while the activity
lasts, and behind it the depth is what it was, however the activity ends. A
session that evaluates statements one after another can therefore go on for ever
without losing any of the calls that it may nest.
-/

import Mathlib.Data.List.Forall2
import MonkeyLang.Proofs.Evaluation.Activities
import MonkeyLang.Proofs.History

namespace MonkeyLang

open Machine

/-! ### Steps and the depth -/

/-- What the next moment may make of the depth under a limit. -/
inductive Moment.NextWithin (limit : Nat) : Moment → Moment → Prop
  /-- The depth is kept, and no call ends. -/
  | keeps {earlier later : Moment} : later.machine.depth = earlier.machine.depth →
      earlier.active <:+ later.active → NextWithin limit earlier later
  | enters {machine : Machine} {active : List Nat} : machine.depth < limit →
      NextWithin limit ⟨machine, active⟩ ⟨machine.entered, active⟩
  | refuses {machine : Machine} {frame : Nat} {outer : List Nat} : machine.depth = limit →
      NextWithin limit ⟨machine, frame :: outer⟩ ⟨machine, outer⟩
  /-- A call ends, and there was one to end. -/
  | ends {machine : Machine} {frame : Nat} {outer : List Nat} : 0 < machine.depth →
      NextWithin limit ⟨machine, frame :: outer⟩ ⟨machine.left, outer⟩

theorem Moment.NextWithin.depth_le {limit : Nat} {earlier later : Moment}
    (next : NextWithin limit earlier later) (admitted : earlier.machine.depth ≤ limit) :
    later.machine.depth ≤ limit := by
  cases next with
  | keeps kept _ => exact kept ▸ admitted
  | enters more => exact more
  | refuses => exact admitted
  | ends => exact Nat.le_trans (Nat.sub_le _ 1) admitted

theorem Moment.chain_depth_le {limit : Nat} : ∀ {moments : List Moment} {first : Moment},
    (first :: moments).IsChain (NextWithin limit) → first.machine.depth ≤ limit →
      ∀ moment ∈ moments, moment.machine.depth ≤ limit
  | [], _, _, _ => fun _ none => absurd none List.not_mem_nil
  | _ :: _, _, chain, admitted => by
    obtain ⟨next, chain⟩ := List.isChain_cons_cons.mp chain
    have within := next.depth_le admitted
    exact List.forall_mem_cons.mpr ⟨within, chain_depth_le chain within⟩

/-- Moments that lead from one state to another by steps that account for the depth, which in the
end is what it was. -/
structure Accounts (limit : Nat) (active : List Nat) (machine : Machine) (moments : List Moment)
    (last : Machine) : Prop where
  course : Course ⟨machine, active⟩ moments ⟨last, active⟩
  steps : (⟨machine, active⟩ :: moments).IsChain (Moment.NextWithin limit)
  restored : last.depth = machine.depth

/-- Courses that hold together step by step do so when put together. -/
theorem Course.isChain_append {first middle : Moment} {front rest : List Moment}
    {step : Moment → Moment → Prop} (course : Course first front middle)
    (chain : (first :: front).IsChain step) (further : (middle :: rest).IsChain step) :
    (first :: (front ++ rest)).IsChain step := by
  induction course with
  | here => exact further
  | onward _ _ inductionHypothesis =>
    obtain ⟨next, chain⟩ := List.isChain_cons_cons.mp chain
    exact .cons_cons next (inductionHypothesis chain further)

namespace Accounts

variable {limit : Nat} {active : List Nat} {machine middle last : Machine}
  {moments further : List Moment}

theorem still (machine : Machine) : Accounts limit active machine [] machine :=
  ⟨.here _, .singleton _, rfl⟩

theorem single (next : Moment.Next ⟨machine, active⟩ ⟨last, active⟩)
    (kept : last.depth = machine.depth) :
    Accounts limit active machine [⟨last, active⟩] last :=
  ⟨.single next, .cons_cons (.keeps kept (List.suffix_refl _)) (.singleton _), kept⟩

theorem append (accounts : Accounts limit active machine moments middle)
    (more : Accounts limit active middle further last) :
    Accounts limit active machine (moments ++ further) last :=
  ⟨accounts.course.append more.course, accounts.course.isChain_append accounts.steps more.steps,
    more.restored.trans accounts.restored⟩

/-- The limit is never exceeded. -/
theorem depth_le (accounts : Accounts limit active machine moments last)
    (admitted : machine.depth ≤ limit) : ∀ moment ∈ moments, moment.machine.depth ≤ limit :=
  Moment.chain_depth_le accounts.steps admitted

end Accounts

/-! ### Evaluation accounts for the depth -/

/-- A history accounts for the depth from every state of the given depth on. -/
def AccountsFor (limit depth : Nat) (active : List Nat) {α : Type} (computation : Computation α)
    (history : History) : Prop :=
  ∀ machine : Machine, machine.depth = depth →
    Accounts limit active machine (history machine) (computation.on machine).2

theorem sequential_accountsFor (limit depth : Nat) (active : List Nat) :
    Sequential (AccountsFor limit depth active) where
  still {_ computation} still machine _ := by
    rw [still machine]
    exact .still machine
  andThen {_ _ computation next history further} first second machine start := by
    have accounts := first machine start
    rw [on_bind, History.andThen]
    rcases found : computation.on machine with ⟨_ | result, middle⟩
    · rw [found] at accounts
      exact accounts.append (.still middle)
    · rw [found] at accounts
      exact accounts.append (second result middle (accounts.restored.trans start))

theorem narration_accountsFor (limit depth frame : Nat) (outer : List Nat) :
    Narration (AccountsFor limit depth (frame :: outer)) frame outer where
  toSequential := sequential_accountsFor limit depth (frame :: outer)
  makesFunction _ _ machine _ := .single (.makesFunction machine (frame :: outer)) rfl
  binds name value machine _ := .single (.binds machine frame outer name value) rfl

section Calls

variable {limit depth : Nat} {runBody : Nat → Block → Computation Value}
  {bodies : Nat → List Nat → Block → History}

theorem Closure.accountsFor_call (admitted : depth ≤ limit)
    (accounts : ∀ frame outer body, AccountsFor limit (depth + 1) (frame :: outer)
      (runBody frame body) (bodies frame outer body)) (active : List Nat) (closure : Closure)
    (arguments : List Value) :
    AccountsFor limit depth active (closure.call limit runBody arguments)
      (closure.history limit runBody bodies active arguments) := by
  intro machine start
  rw [Closure.history]
  by_cases right : closure.parameters.length = arguments.length
  · rw [if_neg (not_not_intro right), Closure.call_on_of_eq right]
    let framed := machine.withFrame (closure.frameOfCall arguments)
    have begins := Moment.Next.begins machine active (closure.frameOfCall arguments)
    have keeps : Moment.NextWithin limit ⟨machine, active⟩
        ⟨framed, machine.scopes.size :: active⟩ := .keeps rfl (List.suffix_cons _ _)
    by_cases deepest : limit ≤ machine.depth
    · simp only [if_pos deepest]
      have atLimit : framed.depth = limit :=
        Nat.le_antisymm (Nat.le_trans (Nat.le_of_eq start) admitted) deepest
      refine ⟨.onward begins (.single (.refuses framed _ active)), ?_, rfl⟩
      exact .cons_cons keeps (.cons_cons (.refuses atLimit) (.singleton _))
    · simp only [if_neg deepest]
      have inside := accounts machine.scopes.size active closure.body framed.entered
        (congrArg (· + 1) start)
      generalize ((runBody machine.scopes.size closure.body).on framed.entered).2 = last at inside
      have some : 0 < last.depth := by
        rw [inside.restored]
        exact Nat.succ_pos _
      rw [still_endCall]
      refine ⟨.onward begins (.onward (.enters framed _) ?_), ?_, congrArg (· - 1) inside.restored⟩
      · exact inside.course.append (.single (.ends last _ active))
      · refine .cons_cons keeps (.cons_cons (.enters (Nat.lt_of_not_le deepest)) ?_)
        exact inside.course.isChain_append inside.steps (.cons_cons (.ends some) (.singleton _))
  · rw [if_pos right, Closure.call_on_of_ne right]
    exact .still machine

end Calls

theorem accountsFor_runBody (limit : Nat) : ∀ further depth, depth + further = limit + 1 →
    ∀ frame outer body, AccountsFor limit depth (frame :: outer) (runBody limit further frame body)
      (bodyHistory limit further frame outer body)
  | 0, depth, _, _, _, _ => (sequential_accountsFor limit depth _).still (still_throw _)
  | further + 1, depth, left, frame, outer, body =>
    told_evaluateStatements (narration_accountsFor limit depth frame outer)
      (told_applyWith (sequential_accountsFor limit depth _)
        (fun text machine _ => .single (.writes machine _ text) rfl)
        (Closure.accountsFor_call (by omega)
          (accountsFor_runBody limit further (depth + 1) (by omega)) _)) body .null

theorem accountsFor_applyAtDepth {limit depth : Nat} (admitted : depth ≤ limit)
    (active : List Nat) (callee : Value) (arguments : List Value) :
    AccountsFor limit depth active (applyAtDepth limit callee arguments)
      (historyAtDepth limit active callee arguments) := by
  intro machine start
  have bodies := accountsFor_runBody limit (limit - machine.depth) (depth + 1) (by omega)
  rw [applyAtDepth_on]
  exact told_applyWith (sequential_accountsFor limit depth active)
    (fun text machine _ => .single (.writes machine active text) rfl)
    (Closure.accountsFor_call admitted bodies active) callee arguments machine start

/-! ### Activities account for the depth -/

namespace Activity

/-- The frames in which something is being evaluated when an activity starts. -/
def active (outer : List Nat) : Activity → List Nat
  | code _ _ frame | all _ frame => frame :: outer
  | call _ _ => outer

/-- The moments that an activity passes after the state it starts from. -/
def history (limit : Nat) (outer : List Nat) : Activity → History
  | code .expression tree frame =>
    tree.history (applyAtDepth limit) (historyAtDepth limit (frame :: outer)) frame outer
  | code .statement tree frame =>
    tree.history (applyAtDepth limit) (historyAtDepth limit (frame :: outer)) frame outer
  | code .block tree frame =>
    historyOfStatements (applyAtDepth limit) (historyAtDepth limit (frame :: outer)) frame outer
      tree .null
  | all expressions frame =>
    historyOfAll (applyAtDepth limit) (historyAtDepth limit (frame :: outer)) frame outer
      expressions
  | call callee arguments => historyAtDepth limit outer callee arguments

variable {limit depth : Nat}

theorem accountsFor (admitted : depth ≤ limit) (activity : Activity) (outer : List Nat) :
    AccountsFor limit depth (activity.active outer) (activity.evaluate limit)
      (activity.history limit outer) := by
  have narration frame := narration_accountsFor limit depth frame outer
  have calls frame := accountsFor_applyAtDepth admitted (frame :: outer)
  cases activity with
  | code piece tree frame =>
    cases piece with
    | expression => exact Expression.told (narration frame) (calls frame) tree
    | statement => exact Statement.told (narration frame) (calls frame) tree
    | block => exact told_evaluateStatements (narration frame) (calls frame) tree .null
  | all expressions frame => exact told_evaluateAll (narration frame) (calls frame) expressions
  | call callee arguments => exact accountsFor_applyAtDepth admitted outer callee arguments

/-- What is to be said about the depth, before, during and after an activity. -/
structure KeepsDepth (limit : Nat) (activity : Activity) (machine : Machine) (outer : List Nat) :
    Prop where
  /-- Nothing is left out, every step accounts for the depth, and in the end it is restored. -/
  accounts : Accounts limit (activity.active outer) machine (activity.history limit outer machine)
    ((activity.evaluate limit).on machine).2
  bounded : ∀ moment ∈ activity.history limit outer machine, moment.machine.depth ≤ limit
  /-- The depth tells how many calls are active, and whatever is done restores it in turn. -/
  inside {inner : Activity} {reached : Machine} {entered : Nat} :
    Within limit activity machine inner reached entered →
      reached.depth = machine.depth + entered ∧ reached.depth ≤ limit ∧
        ((inner.evaluate limit).on reached).2.depth = reached.depth
  /-- The activity fails for too many active calls just if in its course a function is called, with
  the right number of arguments, while as many calls are active as the limit admits. -/
  refused (bound : Nat) :
    ((activity.evaluate limit).on machine).1 = .error (.failure (.callDepthExceeded bound)) ↔
      bound = limit ∧
        ∃ (closure : Closure) (arguments : List Value) (reached : Machine) (entered : Nat),
          Within limit activity machine (.call (.function closure) arguments) reached entered ∧
            closure.parameters.length = arguments.length ∧ reached.depth = limit

theorem keepsDepth {machine : Machine} (admitted : machine.depth ≤ limit) (activity : Activity)
    (outer : List Nat) : activity.KeepsDepth limit machine outer := by
  have accounts := activity.accountsFor admitted outer machine rfl
  have inside {inner : Activity} {reached : Machine} {entered : Nat}
      (within : Within limit activity machine inner reached entered) :
      reached.depth = machine.depth + entered ∧ reached.depth ≤ limit ∧
        ((inner.evaluate limit).on reached).2.depth = reached.depth := by
    obtain ⟨grown, bounded⟩ := within.depth_eq
    exact ⟨grown, grown ▸ bounded admitted, inner.depth_evaluate limit reached⟩
  refine ⟨accounts, accounts.depth_le admitted, inside, fun bound => ⟨fun failed => ?_, ?_⟩⟩
  · have refused := (activity.cutOff_iff limit machine).mp ⟨bound, failed⟩
    have same := Signal.failure.inj (Except.error.inj (failed.symm.trans refused.fails))
    obtain ⟨closure, arguments, reached, entered, within, right, deepest⟩ := refused
    obtain ⟨-, bounded, -⟩ := inside within
    exact ⟨Failure.callDepthExceeded.inj same, closure, arguments, reached, entered, within, right,
      Nat.le_antisymm bounded deepest⟩
  · rintro ⟨rfl, closure, arguments, reached, entered, within, right, atLimit⟩
    exact Refused.fails ⟨closure, arguments, reached, entered, within, right,
      Nat.le_of_eq atLimit.symm⟩

end Activity

/-! ### Statements one after another -/

/-- The state behind statements that are evaluated one after another, each in a frame, whether or
not those before have failed. -/
def executeInTurn (limit : Nat) : List (Nat × Statement) → Machine → Machine
  | [], machine => machine
  | (frame, statement) :: rest, machine =>
    executeInTurn limit rest ((statement.execute limit frame).on machine).2

theorem depth_executeInTurn (limit : Nat) : ∀ (steps : List (Nat × Statement)) (machine : Machine),
    (executeInTurn limit steps machine).depth = machine.depth
  | [], _ => rfl
  | (frame, statement) :: rest, machine =>
    (depth_executeInTurn limit rest _).trans
      ((Activity.code .statement statement frame).depth_evaluate limit machine)

/-- A function that is called on the spot, whose body calls another on the spot, and so on. -/
def nestedCalls : Nat → Expression
  | 0 => .boolean true
  | deeper + 1 => .call (.function [] [.expression (nestedCalls deeper)]) []

/-- Calls can be nested until the limit is reached. -/
theorem nestedCalls_on {limit : Nat} (count frame : Nat) (machine : Machine)
    (admitted : machine.depth ≤ limit) :
    (((nestedCalls count).evaluate (applyAtDepth limit) frame).on machine).1 =
      if machine.depth + count ≤ limit then .ok (.boolean true)
      else .error (.failure (.callDepthExceeded limit)) := by
  induction count generalizing machine frame with
  | zero => exact (if_pos admitted).symm
  | succ count inductionHypothesis =>
    let closure := machine.nextFunction [] [.expression (nestedCalls count)] frame
    let framed := machine.withFunction.withFrame (closure.frameOfCall [])
    have right : closure.parameters.length = ([] : List Value).length := rfl
    show ((applyAtDepth limit (.function closure) []).on machine.withFunction).1 = _
    rcases Nat.lt_or_ge machine.withFunction.depth limit with more | deepest
    · have inside := inductionHypothesis machine.scopes.size framed.entered more
      rw [applyAtDepth_on_of_lt right more evaluateStatements_expression_on]
      show Signal.afterCall ((Expression.evaluate _ machine.scopes.size _).on framed.entered).1 = _
      rw [inside, show framed.entered.depth = machine.depth + 1 from rfl,
        Nat.add_assoc machine.depth, Nat.add_comm 1]
      split <;> rfl
    · have tooMany : ¬machine.depth + (count + 1) ≤ limit :=
        Nat.not_le_of_lt (Nat.lt_of_le_of_lt deepest (Nat.lt_add_of_pos_right count.succ_pos))
      rw [applyAtDepth_on_of_le right deepest, if_neg tooMany]

/-- The count of active calls is balanced. From every state within the limit, whatever the evaluator
does leaves the depth as it found it, on every way out; while it lasts, the depth tells how many
calls are active, never exceeds the limit and is never taken below zero; and it fails for too many
active calls just if a function is called, with the right number of arguments, when as many as the
limit admits are active. So after statements that were evaluated one after another, failed or not,
the state is that of an evaluator that has done nothing yet, and accepts the same nesting of calls
as a new one. -/
theorem call_depth_is_balanced (limit : Nat) :
    (∀ (activity : Activity) (machine : Machine) (outer : List Nat), machine.depth ≤ limit →
      activity.KeepsDepth limit machine outer) ∧
    ∀ (steps : List (Nat × Statement)) (machine : Machine), machine.depth = 0 →
      let later := executeInTurn limit steps machine
      later = { later with depth := 0 } ∧
        ∀ count frame : Nat,
          let nested := ((nestedCalls count).evaluate (applyAtDepth limit) frame).on later
          let nested' := ((nestedCalls count).evaluate (applyAtDepth limit) rootFrame).on .initial
          nested.1 = nested'.1 ∧ (nested.1 = .ok (.boolean true) ↔ count ≤ limit) := by
  refine ⟨fun activity machine outer admitted => activity.keepsDepth admitted outer,
    fun steps machine outside => ?_⟩
  intro later
  have outside' : later.depth = 0 := (depth_executeInTurn limit steps machine).trans outside
  refine ⟨?_, fun count frame => ?_⟩
  · rw [← outside']
  · have accepts := nestedCalls_on count frame later (outside' ▸ Nat.zero_le limit)
    have accepts' := nestedCalls_on count rootFrame .initial (Nat.zero_le limit)
    rw [outside', Nat.zero_add] at accepts
    rw [show initial.depth = 0 from rfl, Nat.zero_add] at accepts'
    refine ⟨accepts.trans accepts'.symm, ?_⟩
    rw [accepts]
    by_cases admits : count ≤ limit
    · rw [if_pos admits]
      exact ⟨fun _ => admits, fun _ => rfl⟩
    · rw [if_neg admits]
      exact ⟨nofun, fun admits' => absurd admits' admits⟩

/-- `let f = fn() { f() }; f();` under the limit of one call. -/
theorem call_depth_is_balanced_recursive :
    let recursion : Expression := .call (.identifier "f") []
    let binding := (rootFrame, Statement.binding "f" (.function [] [.expression recursion]))
    let start := executeInTurn 1 [binding] .initial
    let later := executeInTurn 1 [binding, (rootFrame, .expression recursion)] .initial
    let failing : Activity := .code .statement (.expression recursion) rootFrame
    start.depth ≤ 1 ∧ failing.KeepsDepth 1 start [] ∧
      ((failing.evaluate 1).on start).1 = .error (.failure (.callDepthExceeded 1)) ∧
      later = { later with depth := 0 } ∧
      (((nestedCalls 1).evaluate (applyAtDepth 1) rootFrame).on later).1 =
        .ok (.boolean true) := by
  intro recursion binding start later failing
  obtain ⟨keeps, lasts⟩ := call_depth_is_balanced 1
  have outside : start.depth ≤ 1 := Nat.zero_le 1
  obtain ⟨same, accepts⟩ :=
    lasts [binding, (rootFrame, .expression recursion)] .initial rfl
  exact ⟨outside, keeps failing start [] outside, by with_unfolding_all rfl, same,
    (accepts 1 rootFrame).2.mpr (Nat.le_refl 1)⟩

end MonkeyLang
