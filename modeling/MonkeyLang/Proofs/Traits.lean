/-
This file carries what is said of values by themselves through a session. A trait
holds of everything that evaluation can make without a hash, and of a hash when
an entry has been inserted if it held before. So if it holds of all values that
can be got at before a session, it holds of all that occur in it.

A function brings a frame with it, and nothing is known of frames that the
session cannot get at. So the invariant says of a function as well that its
frame is one of those that the session owns.
-/

import MonkeyLang.Proofs.Occurrences

namespace MonkeyLang

open Machine

/-- Something that is said of values, and that evaluation keeps. -/
structure Trait (holds : Value → Prop) : Prop where
  plain {value : Value} : value.isPlain = true → holds value
  array {elements : List Value} : holds (.array elements)
  function {closure : Closure} : holds (.function closure)
  emptyHash : holds (.hash [])
  insert {entries : List (Entry Value)} {hashKey : HashKey} {key value : Value} :
    holds (.hash entries) → key.hashKey? = some hashKey →
    holds (.hash (Entry.insert ⟨hashKey, key, value⟩ entries))

/-! ### Frames of a session -/

namespace Scopes

theorem Grown.size_le {earlier later : Scopes} (grown : earlier.Grown later) :
    earlier.size ≤ later.size :=
  Nat.le_of_not_lt fun less => Nat.lt_irrefl _ (grown.lt_size less)

/-- A frame that exists before a session and that it owns can be got at. -/
theorem reaches_of_owns {start : Scopes} {root number : Nat} {frame : Frame}
    (owns : start.Owns root number) (found : start.frame? number = some frame) :
    start.Reaches root number :=
  owns.resolve_right (Nat.not_le.mpr (lt_size_of_frame? found))

end Scopes

/-! ### The invariant -/

/-- The trait holds of every value, and what a function brings with it is a frame that the session
owns. -/
def Invariant.ofTrait {holds : Value → Prop} (trait : Trait holds) (start : Scopes) (root : Nat) :
    Invariant where
  holds scopes value := holds value ∧ ∀ closure, value = .function closure →
    start.Owns root closure.frame ∧ start.size ≤ scopes.size
  room scopes frame _ := start.Owns root frame ∧ start.size ≤ scopes.size
  covers := start.Owns root
  plain {_ value} plain := ⟨trait.plain plain, by cases value <;> simp_all [Value.isPlain]⟩
  array := ⟨trait.array, nofun⟩
  emptyHash := ⟨trait.emptyHash, nofun⟩
  insert before usable := ⟨trait.insert before.1 usable, nofun⟩
  made := by
    rintro scopes frame identity parameters body ⟨owns, old⟩
    refine ⟨trait.function, fun closure same => ?_⟩
    obtain rfl := Value.function.inj same
    exact ⟨owns, old⟩
  called := by
    rintro scopes closure frame ⟨-, owned⟩ -
    obtain ⟨-, old⟩ := owned closure rfl
    exact ⟨.inr old, Nat.le_trans old (scopes.grown_add frame).size_le⟩
  less room _ := room
  holds_grown grown holds := ⟨holds.1, fun closure same =>
    ⟨(holds.2 closure same).1, Nat.le_trans (holds.2 closure same).2 grown.size_le⟩⟩
  room_grown grown room := ⟨room.1, Nat.le_trans room.2 grown.size_le⟩
  covered room := room.1
  captured holds := (holds.2 _ rfl).1

namespace Trait

variable {holds : Value → Prop} (trait : Trait holds) {start : Scopes} {root : Nat}

theorem flat : (Invariant.ofTrait trait start root).Flat :=
  fun _ room => room

theorem room {frame : Nat} (owns : start.Owns root frame) (nesting : Nat) :
    (Invariant.ofTrait trait start root).room start frame nesting :=
  ⟨owns, Nat.le_refl _⟩

/-- If the trait holds of all that can be got at before a session, the invariant holds there. -/
theorem sound (clean : ∀ value, start.Holds root value → holds value) :
    (Invariant.ofTrait trait start root).Sound start where
  room _ owns := trait.room owns 0
  bound found binding member owns := by
    have reaches := Scopes.reaches_of_owns owns found
    refine Value.throughout_of_contains fun inside contains => ?_
    refine ⟨clean inside (.intro reaches found member contains), fun closure same => ?_⟩
    exact ⟨.inl (.captured reaches found member (same ▸ contains)), Nat.le_refl _⟩
  outer owns found isOuter := .inl (.outer (Scopes.reaches_of_owns owns found) found isOuter)

/-! ### Sessions -/

section Sessions

variable {limit : Nat} {programs : List Program} {machine : Machine}
  (clean : ∀ value, machine.scopes.Holds root value → holds value)

include trait clean

/-- A trait of all that can be got at before a session is one of all that occurs in it, and of
everything inside. -/
theorem throughout_of_occurs {value : Value} (occurs : Occurs limit root programs machine value) :
    value.Throughout holds := by
  obtain ⟨scopes, good⟩ := Invariant.good_of_occurs trait.flat (trait.sound clean)
    (trait.room (.inl .root) 0) (fun _ owns => owns) occurs
  exact good.mono fun _ => And.left

/-- It is one of all that can be got at, at every moment. -/
theorem of_held : ∀ moment ∈ ⟨machine, [root]⟩ :: sessionHistory limit root programs machine,
    ∀ value, moment.machine.scopes.Holds root value → holds value := by
  intro moment isMoment value held
  have soundHere := Invariant.sound_always trait.flat (trait.sound clean)
    (trait.room (.inl .root) 0) moment isMoment
  exact (soundHere.held (.inl .root) held).self.1

end Sessions

end Trait

/-- Nothing can be got at before the first program. -/
theorem not_holds_initial (value : Value) : ¬Machine.initial.scopes.Holds rootFrame value := by
  rintro ⟨-, found, member, -⟩
  obtain rfl : _ = rootFrame := Nat.lt_one_iff.mp (Scopes.lt_size_of_frame? found)
  have frame : Machine.initial.scopes.frame? rootFrame = some ⟨[], none⟩ := rfl
  obtain rfl := Option.some.inj (frame.symm.trans found)
  exact absurd member List.not_mem_nil

/-- When the first frame binds one value, nothing can be got at but what is inside it. -/
theorem contains_of_holds {name : String} {bound value : Value}
    (holds : (Machine.initial.withBinding rootFrame name bound).scopes.Holds rootFrame value) :
    bound.Contains value := by
  obtain ⟨-, found, member, contains⟩ := holds
  obtain rfl : _ = rootFrame := Nat.lt_one_iff.mp (Scopes.lt_size_of_frame? found)
  have frame : (Machine.initial.withBinding rootFrame name bound).scopes.frame? rootFrame =
      some ⟨[(name, bound)], none⟩ := rfl
  obtain rfl := Option.some.inj (frame.symm.trans found)
  obtain rfl := List.mem_singleton.mp member
  exact contains

end MonkeyLang
