/-
This file proves that the frame of a finished call never changes again. Only the
innermost active frame can change. A frame becomes active only when it is made,
so one that exists and is not active stays as it is: this relates two moments,
and puts together along the steps of a history. When a call ends, its frame is
such a frame, since active frames are older from the inside out.

The last theorem puts this together with what evaluation may change.
-/

import MonkeyLang.Proofs.History
import MonkeyLang.Proofs.Isolation

namespace MonkeyLang

open Machine

namespace Moment

/-! ### Frames that are not active -/

/-- How an earlier moment relates to a later one: frames that existed and were not active are what
they were, and are still not active. -/
structure Precedes (earlier later : Moment) : Prop where
  size_le : earlier.machine.scopes.size ≤ later.machine.scopes.size
  kept : ∀ number < earlier.machine.scopes.size, number ∉ earlier.active →
    later.machine.scopes.frame? number = earlier.machine.scopes.frame? number
  inactive : ∀ number < earlier.machine.scopes.size, number ∉ earlier.active →
    number ∉ later.active

theorem Precedes.refl (moment : Moment) : moment.Precedes moment :=
  ⟨Nat.le_refl _, fun _ _ _ => rfl, fun _ _ inactive => inactive⟩

theorem Precedes.trans {first second third : Moment} (left : first.Precedes second)
    (right : second.Precedes third) : first.Precedes third := by
  refine ⟨Nat.le_trans left.size_le right.size_le, fun number old inactive => ?_,
    fun number old inactive => ?_⟩
  · rw [right.kept number (Nat.lt_of_lt_of_le old left.size_le)
      (left.inactive number old inactive), left.kept number old inactive]
  · exact right.inactive number (Nat.lt_of_lt_of_le old left.size_le)
      (left.inactive number old inactive)

/-- Each step touches at most the innermost active frame, and makes no frame active but a new one.
-/
theorem Next.precedes {earlier later : Moment} (next : earlier.Next later) :
    earlier.Precedes later := by
  cases next with
  | binds machine frame outer name value =>
    refine ⟨Nat.le_of_eq (Scopes.size_set ..).symm, fun number _ inactive => ?_,
      fun _ _ inactive => inactive⟩
    exact Scopes.frame?_set_of_ne (List.ne_of_not_mem_cons inactive) name value
  | makesFunction | writes | enters | starts =>
    exact ⟨Nat.le_refl _, fun _ _ _ => rfl, fun _ _ inactive => inactive⟩
  | begins machine active frame =>
    have size := machine.scopes.size_add frame
    refine ⟨?_, fun number old _ => Scopes.frame?_add old frame, fun number old inactive => ?_⟩
    · exact Nat.le_of_lt (Nat.lt_of_lt_of_eq (Nat.lt_succ_self _) size.symm)
    · exact List.not_mem_cons_of_ne_of_not_mem (Nat.ne_of_lt old) inactive
  | refuses | ends =>
    exact ⟨Nat.le_refl _, fun _ _ _ => rfl, fun _ _ inactive =>
      List.not_mem_of_not_mem_cons inactive⟩

/-! ### The order of active frames -/

/-- The active frames exist, and each is younger than the ones outside it. -/
def Ordered (moment : Moment) : Prop :=
  (moment.machine.scopes.size :: moment.active).Pairwise (· > ·)

theorem Next.ordered {earlier later : Moment} (next : earlier.Next later)
    (ordered : earlier.Ordered) : later.Ordered := by
  cases next with
  | binds machine frame outer name value =>
    rwa [Ordered, Scopes.size_set]
  | makesFunction | writes | enters | starts => exact ordered
  | begins machine active frame =>
    have size := machine.scopes.size_add frame
    refine List.pairwise_cons.mpr ⟨fun number inside => ?_, ordered⟩
    have below : number ≤ machine.scopes.size := by
      rcases List.mem_cons.mp inside with rfl | older
      · exact Nat.le_refl _
      · exact Nat.le_of_lt (List.rel_of_pairwise_cons ordered older)
    exact Nat.lt_of_le_of_lt below (Nat.lt_of_lt_of_eq (Nat.lt_succ_self _) size.symm)
  | refuses | ends =>
    exact ordered.sublist (.cons_cons _ (List.sublist_cons_self _ _))

end Moment

/-! ### Finished calls -/

/-- Throughout these moments, the frame of a finished call never changes again: what it is when the
call ends, it is at all later moments. -/
def KeepsFinished (moments : List Moment) : Prop :=
  ∀ (front rest : List Moment) (ending ended : Moment) (frame : Nat),
    moments = front ++ ending :: ended :: rest → ending.active = frame :: ended.active →
      ∃ finished, ended.machine.scopes.frame? frame = some finished ∧
        ∀ later ∈ rest, later.machine.scopes.frame? frame = some finished

namespace Course

variable {first last : Moment} {moments : List Moment}

theorem precedes (course : Course first moments last) :
    ∀ moment ∈ moments, first.Precedes moment :=
  course.invariant (fun next before => before.trans next.precedes) (.refl first)

theorem keepsFinished (course : Course first moments last) (ordered : first.Ordered) :
    KeepsFinished moments := by
  rintro front rest ending ended frame rfl popped
  obtain ⟨upTo, _ | ⟨next, after⟩⟩ := course.cut
  have orderedEnding : ending.Ordered :=
    upTo.invariant Moment.Next.ordered ordered ending (List.mem_append_right _ List.mem_cons_self)
  rw [Moment.Ordered, popped] at orderedEnding
  have old : frame < ended.machine.scopes.size :=
    Nat.lt_of_lt_of_le (List.rel_of_pairwise_cons orderedEnding List.mem_cons_self)
      next.precedes.size_le
  have inactive : frame ∉ ended.active := fun inside =>
    Nat.lt_irrefl frame (List.rel_of_pairwise_cons orderedEnding.of_cons inside)
  refine ⟨ended.machine.scopes.frames[frame], Array.getElem?_eq_getElem old,
    fun later inside => ?_⟩
  rw [(after.precedes later inside).kept frame old inactive]
  exact Array.getElem?_eq_getElem old

end Course

/-! ### Isolation -/

/-- Where something is evaluated: outside any call, or inside one, where the given number of calls
may still become active. -/
inductive Place
  | outside
  | inside (further : Nat)

/-- What calls do at a place. -/
def Place.apply (limit : Nat) : Place → Application
  | outside => applyAtDepth limit
  | inside further => applyWith limit (runBody limit further)

theorem Place.growing_apply (limit : Nat) (callee : Value) (arguments : List Value) :
    ∀ place : Place, Growing (place.apply limit callee arguments)
  | outside => growing_applyAtDepth limit callee arguments
  | inside further => growing_applyWith (changing_runBody limit further) callee arguments

/-- Frames are isolated. Wherever and in whatever state an expression or statement is evaluated, and
however that ends, it changes at most its own frame, and this at most on the names of its `let`s
outside any function; a call changes no frame at all. In a session, the frame of a finished call
never changes again, at any of the moments between its first state and its last. -/
theorem frames_isolated (limit : Nat) :
    (∀ (place : Place) (frame : Nat) (expression : Expression),
      Changing frame expression.lets (expression.evaluate (place.apply limit) frame)) ∧
    (∀ (place : Place) (frame : Nat) (statement : Statement),
      Changing frame statement.lets (statement.evaluate (place.apply limit) frame)) ∧
    (∀ (place : Place) (callee : Value) (arguments : List Value),
      Growing (place.apply limit callee arguments)) ∧
    ∀ (frame : Nat) (programs : List Program) (machine : Machine), frame < machine.scopes.size →
      Course ⟨machine, [frame]⟩ (sessionHistory limit frame programs machine)
        ⟨executeAll limit frame programs machine, [frame]⟩ ∧
      KeepsFinished (sessionHistory limit frame programs machine) := by
  have isolated (place : Place) (callee : Value) (arguments : List Value) :
      Growing (place.apply limit callee arguments) := place.growing_apply limit callee arguments
  refine ⟨fun place frame expression => expression.changing (isolated place) frame,
    fun place frame statement => statement.changing (isolated place) frame, isolated,
    fun frame programs machine present => ?_⟩
  have course := course_sessionHistory limit frame programs machine
  have ordered : (⟨machine, [frame]⟩ : Moment).Ordered :=
    List.pairwise_pair.mpr present
  exact ⟨course, course.keepsFinished ordered⟩

/-- The program `let x = 1; let f = fn() { let x = 2; x }; f() + x`. -/
def shadowing : Program :=
  ⟨[.binding "x" (.integer 1),
    .binding "f" (.function [] [.binding "x" (.integer 2), .expression (.identifier "x")]),
    .expression (.binary (.call (.identifier "f") []) .add (.identifier "x"))]⟩

/-- One call begins in this session and ends, so there is a finished frame to keep. -/
theorem frames_isolated_shadowing :
    Machine.rootFrame < Machine.initial.scopes.size ∧
      (sessionHistory 2048 Machine.rootFrame [shadowing] Machine.initial).map Moment.active =
        [[0], [0], [0], [0], [1, 0], [1, 0], [1, 0], [0]] ∧
      KeepsFinished (sessionHistory 2048 Machine.rootFrame [shadowing] Machine.initial) :=
  ⟨by decide, by decide +kernel,
    ((frames_isolated 2048).2.2.2 Machine.rootFrame [shadowing] Machine.initial (by decide)).2⟩

end MonkeyLang
