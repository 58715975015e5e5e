/-
This file says what an invariant of a session is. An invariant says something of
values, and which code may be evaluated in which frame. A few things must be
shown of it: that it holds of plain values, of arrays and of hashes as they are
built; that it holds of a function made by code that may be evaluated; and that
the body of a function of which it holds may be evaluated in the frame of a
call.

What may be evaluated in a frame depends on the code only through its nesting,
the number of functions that stand one inside another.

Invariants may look at the frames that there are. Frames are never dropped and
never enclosed anew, so what has been said of a value stays true.
-/

import MonkeyLang.Proofs.Ingredients
import MonkeyLang.Proofs.Isolation

namespace MonkeyLang

open Machine

/-! ### Nesting -/

mutual

/-- How many functions stand one inside another in an expression, at most. -/
def Expression.nesting : Expression → Nat
  | .identifier _ => 0
  | .integer _ => 0
  | .string _ => 0
  | .boolean _ => 0
  | .unary _ operand => operand.nesting
  | .binary left _ right => max left.nesting right.nesting
  | .conditional condition consequence none =>
    max condition.nesting (nestingOfStatements consequence)
  | .conditional condition consequence (some alternative) =>
    max condition.nesting (max (nestingOfStatements consequence) (nestingOfStatements alternative))
  | .function _ body => nestingOfStatements body + 1
  | .call callee arguments => max callee.nesting (nestingOfAll arguments)
  | .array elements => nestingOfAll elements
  | .index collection position => max collection.nesting position.nesting
  | .hash pairs => nestingOfPairs pairs
termination_by structural expression => expression

/-- How many functions stand one inside another in expressions, at most. -/
def nestingOfAll : List Expression → Nat
  | [] => 0
  | expression :: rest => max expression.nesting (nestingOfAll rest)
termination_by structural expressions => expressions

/-- How many functions stand one inside another in the pairs of a hash, at most. -/
def nestingOfPairs : List (Expression × Expression) → Nat
  | [] => 0
  | (key, value) :: rest => max key.nesting (max value.nesting (nestingOfPairs rest))
termination_by structural pairs => pairs

/-- How many functions stand one inside another in a statement, at most. -/
def Statement.nesting : Statement → Nat
  | .binding _ value => value.nesting
  | .returning value => value.nesting
  | .expression value => value.nesting
termination_by structural statement => statement

/-- How many functions stand one inside another in statements, at most. -/
def nestingOfStatements : List Statement → Nat
  | [] => 0
  | statement :: rest => max statement.nesting (nestingOfStatements rest)
termination_by structural statements => statements

end

/-- How many functions stand one inside another in a program, at most. -/
def Program.nesting (program : Program) : Nat :=
  nestingOfStatements program.statements

/-! ### Scopes that grow -/

/-- Every frame is still there, and enclosed by the same. -/
def Scopes.Grown (earlier later : Scopes) : Prop :=
  ∀ number frame, earlier.frame? number = some frame →
    ∃ grown, later.frame? number = some grown ∧ grown.outer = frame.outer

namespace Scopes

theorem Grown.refl (scopes : Scopes) : scopes.Grown scopes :=
  fun _ frame found => ⟨frame, found, rfl⟩

theorem Grown.trans {first second third : Scopes} (left : first.Grown second)
    (right : second.Grown third) : first.Grown third := by
  intro number frame found
  obtain ⟨middle, foundMiddle, outerMiddle⟩ := left number frame found
  obtain ⟨last, foundLast, outerLast⟩ := right number middle foundMiddle
  exact ⟨last, foundLast, outerLast.trans outerMiddle⟩

theorem lt_size_of_frame? {scopes : Scopes} {number : Nat} {frame : Frame}
    (found : scopes.frame? number = some frame) : number < scopes.size :=
  (Array.getElem?_eq_some_iff.mp found).1

theorem exists_frame? {scopes : Scopes} {number : Nat} (old : number < scopes.size) :
    ∃ frame, scopes.frame? number = some frame :=
  ⟨scopes.frames[number], Array.getElem?_eq_getElem old⟩

theorem Grown.lt_size {earlier later : Scopes} (grown : earlier.Grown later) {number : Nat}
    (old : number < earlier.size) : number < later.size := by
  obtain ⟨frame, found⟩ := exists_frame? old
  obtain ⟨later, foundLater, -⟩ := grown number frame found
  exact lt_size_of_frame? foundLater

theorem grown_add (scopes : Scopes) (frame : Frame) : scopes.Grown (scopes.add frame) :=
  fun _ old found => ⟨old, (frame?_add (lt_size_of_frame? found) frame).trans found, rfl⟩

theorem grown_set (scopes : Scopes) (number : Nat) (name : String) (value : Value) :
    scopes.Grown (scopes.set number name value) := by
  intro other frame found
  by_cases same : other = number
  · subst same
    exact ⟨frame.bind name value, by rw [frame?_set_self, found, Option.map_some], rfl⟩
  · exact ⟨frame, (frame?_set_of_ne same name value).trans found, rfl⟩

end Scopes

/-! ### Bindings -/

theorem Frame.mem_bindAmong {name : String} {value : Value} {bindings : List (String × Value)}
    {binding : String × Value} (member : binding ∈ bindAmong name value bindings) :
    binding = (name, value) ∨ binding ∈ bindings := by
  induction bindings with
  | nil => exact .inl (List.mem_singleton.mp member)
  | cons first rest inductionHypothesis =>
    obtain ⟨other, old⟩ := first
    rw [bindAmong] at member
    split at member
    · exact (List.mem_cons.mp member).imp_right (List.mem_cons_of_mem _)
    · rcases List.mem_cons.mp member with rfl | member
      · exact .inr List.mem_cons_self
      · exact (inductionHypothesis member).imp_right (List.mem_cons_of_mem _)

theorem Frame.mem_bindings_bindAll {names : List String} {values : List Value} {frame : Frame}
    {binding : String × Value} (member : binding ∈ (frame.bindAll names values).bindings) :
    binding.2 ∈ values ∨ binding ∈ frame.bindings := by
  induction names generalizing values frame with
  | nil => exact .inr member
  | cons name names inductionHypothesis =>
    cases values with
    | nil => exact .inr member
    | cons value values =>
      rcases inductionHypothesis member with isValue | member
      · exact .inl (List.mem_cons_of_mem _ isValue)
      · rcases mem_bindAmong member with rfl | member
        · exact .inl List.mem_cons_self
        · exact .inr member

theorem Frame.outer_bindAll (names : List String) (values : List Value) (frame : Frame) :
    (frame.bindAll names values).outer = frame.outer := by
  induction names generalizing values frame with
  | nil => rfl
  | cons name names inductionHypothesis =>
    cases values with
    | nil => rfl
    | cons value values => exact inductionHypothesis values (frame.bind name value)

theorem Closure.outer_frameOfCall (closure : Closure) (arguments : List Value) :
    (closure.frameOfCall arguments).outer = some closure.frame :=
  Frame.outer_bindAll closure.parameters arguments ⟨[], some closure.frame⟩

theorem Frame.mem_of_findAmong {bindings : List (String × Value)} {name : String} {value : Value}
    (found : findAmong name bindings = some value) : (name, value) ∈ bindings := by
  induction bindings with
  | nil => exact absurd found.symm (Option.some_ne_none value)
  | cons first rest inductionHypothesis =>
    obtain ⟨other, old⟩ := first
    rw [findAmong] at found
    split at found
    · next same =>
      obtain rfl := Option.some.inj found
      rw [same]
      exact List.mem_cons_self
    · exact List.mem_cons_of_mem _ (inductionHypothesis found)

/-- What a name leads to is bound in the frame itself or found in an older one. -/
theorem Scopes.found_of_get? {scopes : Scopes} {number : Nat} {name : String} {value : Value}
    (found : scopes.get? number name = some value) :
    ∃ frame, scopes.frame? number = some frame ∧
      (frame.find? name = some value ∨
        ∃ outer < number, frame.outer = some outer ∧ scopes.get? outer name = some value) := by
  cases isFrame : scopes.frame? number with
  | none =>
    rw [get?, isFrame] at found
    exact absurd found.symm (Option.some_ne_none value)
  | some frame =>
    rw [get?_of_frame? isFrame, Option.or_eq_some_iff, Option.bind_eq_some_iff] at found
    refine ⟨frame, rfl, found.imp_right ?_⟩
    rintro ⟨-, outer, enclosing, inOuter⟩
    obtain ⟨older, inOuter⟩ := Option.ite_none_right_eq_some.mp inOuter
    exact ⟨outer, older, enclosing, inOuter⟩

/-! ### Invariants -/

/-- Something that is said of values and of the frames in which code is evaluated, given the scopes,
and that evaluation keeps. -/
structure Invariant where
  /-- What is said of a value, apart from the values inside it. -/
  holds : Scopes → Value → Prop
  /-- Which frames have room for code of the given nesting. -/
  room : Scopes → Nat → Nat → Prop
  /-- Which frames anything is said of, by number. Programs get at no others. -/
  covers : Nat → Prop := fun _ => True
  plain {scopes : Scopes} {value : Value} : value.isPlain = true → holds scopes value
  array {scopes : Scopes} {elements : List Value} : holds scopes (.array elements)
  emptyHash {scopes : Scopes} : holds scopes (.hash [])
  insert {scopes : Scopes} {entries : List (Entry Value)} {hashKey : HashKey} {key value : Value} :
    holds scopes (.hash entries) → key.hashKey? = some hashKey →
    holds scopes (.hash (Entry.insert ⟨hashKey, key, value⟩ entries))
  made {scopes : Scopes} {frame identity : Nat} {parameters : List String} {body : Block} :
    room scopes frame (nestingOfStatements body + 1) →
    holds scopes (.function ⟨identity, parameters, body, frame⟩)
  called {scopes : Scopes} {closure : Closure} {frame : Frame} :
    holds scopes (.function closure) → frame.outer = some closure.frame →
    room (scopes.add frame) scopes.size (nestingOfStatements closure.body)
  less {scopes : Scopes} {frame nesting fewer : Nat} : room scopes frame nesting →
    fewer ≤ nesting → room scopes frame fewer
  holds_grown {earlier later : Scopes} {value : Value} : earlier.Grown later →
    holds earlier value → holds later value
  room_grown {earlier later : Scopes} {frame nesting : Nat} : earlier.Grown later →
    room earlier frame nesting → room later frame nesting
  covered {scopes : Scopes} {frame nesting : Nat} : room scopes frame nesting → covers frame := by
    exact fun _ => trivial
  captured {scopes : Scopes} {closure : Closure} : holds scopes (.function closure) →
    covers closure.frame := by exact fun _ => trivial

namespace Invariant

variable (invariant : Invariant)

/-- The invariant holds of a value and of all values inside it. -/
def Good (scopes : Scopes) (value : Value) : Prop :=
  value.Throughout (invariant.holds scopes)

/-- The invariant holds of all values of a list. -/
def GoodAll (scopes : Scopes) (values : List Value) : Prop :=
  ∀ value ∈ values, invariant.Good scopes value

/-- The invariant holds of all values that are bound in frames that it covers, and of these frames.
It covers the frames that enclose them, too. -/
structure Sound (scopes : Scopes) : Prop where
  room {number : Nat} : number < scopes.size → (covered : invariant.covers number := by trivial) →
    invariant.room scopes number 0
  bound {number : Nat} {frame : Frame} : scopes.frame? number = some frame →
    ∀ binding ∈ frame.bindings, (covered : invariant.covers number := by trivial) →
      invariant.Good scopes binding.2
  outer {number outer : Nat} {frame : Frame} : invariant.covers number →
    scopes.frame? number = some frame → frame.outer = some outer → invariant.covers outer := by
    exact fun _ _ _ => trivial

variable {invariant}

section Values

variable {scopes later : Scopes} {value : Value}

theorem good_plain (plain : value.isPlain = true) : invariant.Good scopes value :=
  .ofParts (invariant.plain plain) (Value.parts_of_isPlain plain)

theorem goodAll_pair {other : Value} (good : invariant.Good scopes value)
    (goodOther : invariant.Good scopes other) : invariant.GoodAll scopes [value, other] :=
  List.forall_mem_cons.mpr ⟨good, List.forall_mem_singleton.mpr goodOther⟩

theorem good_madeOf {given : List Value} (made : value.MadeOf given)
    (all : invariant.GoodAll scopes given) : invariant.Good scopes value :=
  made.throughout (fun _ => invariant.plain) (fun _ => invariant.array) all

theorem good_array {elements : List Value} (all : invariant.GoodAll scopes elements) :
    invariant.Good scopes (.array elements) :=
  .intro invariant.array all

theorem good_insert {entries : List (Entry Value)} {hashKey : HashKey} {key : Value}
    (goodHash : invariant.Good scopes (.hash entries)) (usable : key.hashKey? = some hashKey)
    (goodKey : invariant.Good scopes key) (goodValue : invariant.Good scopes value) :
    invariant.Good scopes (.hash (Entry.insert ⟨hashKey, key, value⟩ entries)) := by
  refine .intro (invariant.insert goodHash.self usable) fun part isPart => ?_
  obtain ⟨entry, member, own⟩ := Value.mem_parts_hash.mp isPart
  rcases Entry.mem_insert member with rfl | member
  · rcases own with rfl | rfl
    · exact goodKey
    · exact goodValue
  · exact goodHash.part (Value.mem_parts_hash.mpr ⟨entry, member, own⟩)

theorem Good.grown (good : invariant.Good scopes value) (grown : scopes.Grown later) :
    invariant.Good later value :=
  good.mono fun _ => invariant.holds_grown grown

theorem GoodAll.grown {values : List Value} (all : invariant.GoodAll scopes values)
    (grown : scopes.Grown later) : invariant.GoodAll later values :=
  fun value member => Good.grown (all value member) grown

end Values

namespace Sound

variable {scopes : Scopes}

theorem empty : invariant.Sound Scopes.empty :=
  ⟨fun old _ => absurd old (Nat.not_lt_zero _), fun found _ _ _ => absurd found nofun,
    fun _ found => absurd found nofun⟩

theorem get? (sound : invariant.Sound scopes) {number : Nat} {name : String} {value : Value}
    (covered : invariant.covers number) (found : scopes.get? number name = some value) :
    invariant.Good scopes value := by
  induction number using Nat.strongRecOn with
  | ind number inductionHypothesis =>
    obtain ⟨frame, isFrame, own | ⟨outer, older, isOuter, inOuter⟩⟩ := Scopes.found_of_get? found
    · exact sound.bound isFrame _ (Frame.mem_of_findAmong own) covered
    · exact inductionHypothesis outer older (sound.outer covered isFrame isOuter) inOuter

theorem set (sound : invariant.Sound scopes) (number : Nat) (name : String) {value : Value}
    (good : invariant.Good scopes value) : invariant.Sound (scopes.set number name value) := by
  have grown := scopes.grown_set number name value
  refine ⟨fun {other} old covered => ?_, fun {other frame} found binding member covered => ?_,
    fun {other outer frame} covered found isOuter => ?_⟩
  · rw [Scopes.size_set] at old
    exact invariant.room_grown grown (sound.room old covered)
  · by_cases same : other = number
    · subst same
      rw [Scopes.frame?_set_self] at found
      obtain ⟨old, isOld, rfl⟩ := Option.map_eq_some_iff.mp found
      rcases Frame.mem_bindAmong member with rfl | member
      · exact good.grown grown
      · exact (sound.bound isOld binding member covered).grown grown
    · rw [Scopes.frame?_set_of_ne same] at found
      exact (sound.bound found binding member covered).grown grown
  · by_cases same : other = number
    · subst same
      rw [Scopes.frame?_set_self] at found
      obtain ⟨old, isOld, rfl⟩ := Option.map_eq_some_iff.mp found
      exact sound.outer covered isOld isOuter
    · rw [Scopes.frame?_set_of_ne same] at found
      exact sound.outer covered found isOuter

theorem add (sound : invariant.Sound scopes) {frame : Frame}
    (room : invariant.room (scopes.add frame) scopes.size 0)
    (all : ∀ binding ∈ frame.bindings, invariant.Good scopes binding.2)
    (enclosing : ∀ outer, frame.outer = some outer → invariant.covers outer := by
      exact fun _ _ => trivial) : invariant.Sound (scopes.add frame) := by
  have grown := scopes.grown_add frame
  refine ⟨fun {other} old covered => ?_, fun {other own} found binding member covered => ?_,
    fun {other outer own} covered found isOuter => ?_⟩
  · rw [Scopes.size_add] at old
    by_cases same : other = scopes.size
    · exact same ▸ room
    · exact invariant.room_grown grown (sound.room (by omega) covered)
  · by_cases same : other = scopes.size
    · rw [same, Scopes.frame?_add_size] at found
      obtain rfl := Option.some.inj found
      exact (all binding member).grown grown
    · rw [Scopes.frame?_add_of_ne same] at found
      exact (sound.bound found binding member covered).grown grown
  · by_cases same : other = scopes.size
    · rw [same, Scopes.frame?_add_size] at found
      obtain rfl := Option.some.inj found
      exact enclosing outer isOuter
    · rw [Scopes.frame?_add_of_ne same] at found
      exact sound.outer covered found isOuter

end Sound

end Invariant

end MonkeyLang
