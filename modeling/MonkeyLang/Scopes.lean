/-
This file holds the scopes of running programs. A frame binds names to values,
and may be enclosed by an older frame. Frames are numbered in the order in
which they were made and are never dropped, so a closure can refer to its frame
by number.

A name is looked up in a frame and then outward through the enclosing ones; it
is always bound in the frame itself. So a binding may shadow one further out,
and never changes it.
-/

import MonkeyLang.Program.Text
import MonkeyLang.Text.Quoted
import MonkeyLang.Value

namespace MonkeyLang

/-! ### Frames -/

/-- One frame: its bindings, and the number of the frame that encloses it. -/
structure Frame where
  bindings : List (String × Value)
  outer : Option Nat
deriving Inhabited

namespace Frame

/-- The value of a name among bindings. -/
def findAmong (name : String) : List (String × Value) → Option Value
  | [] => none
  | (other, value) :: rest => if other = name then some value else findAmong name rest

/-- Binds a name among bindings, in the place of an earlier binding of the same name. -/
def bindAmong (name : String) (value : Value) :
    List (String × Value) → List (String × Value)
  | [] => [(name, value)]
  | (other, old) :: rest =>
    if other = name then (name, value) :: rest else (other, old) :: bindAmong name value rest

/-- The value of a name in the frame itself. -/
def find? (frame : Frame) (name : String) : Option Value :=
  findAmong name frame.bindings

/-- Binds a name in the frame. -/
def bind (frame : Frame) (name : String) (value : Value) : Frame :=
  { frame with bindings := bindAmong name value frame.bindings }

/-- After a binding, the name leads to the new value, and every other name to what it led to
before. -/
theorem find?_bind (frame : Frame) (name wanted : String) (value : Value) :
    (frame.bind name value).find? wanted =
      if name = wanted then some value else frame.find? wanted := by
  simp only [find?, bind]
  induction frame.bindings with
  | nil => rfl
  | cons binding rest inductionHypothesis =>
    obtain ⟨other, old⟩ := binding
    by_cases same : other = name
    · by_cases equal : name = wanted <;> simp [bindAmong, findAmong, same, equal]
    · by_cases equal : other = wanted
      · subst equal
        simp [bindAmong, findAmong, same, Ne.symm same]
      · simp [bindAmong, findAmong, same, equal, inductionHypothesis]

/-- Binds names in the frame, each to the value beside it. Of a name that stands twice, the last
binding holds. -/
def bindAll (frame : Frame) (names : List String) (values : List Value) : Frame :=
  (names.zip values).foldl (fun frame (name, value) => frame.bind name value) frame

/-- The names bound in the frame itself, in the order of their characters. -/
def names (frame : Frame) : List String :=
  (frame.bindings.map Prod.fst).mergeSort

/-- A description of a frame by the names it binds. Values are left out, since a value may hold
the frame. -/
def description (frame : Frame) : String :=
  "Environment \x7b names: [" ++ String.intercalate ", " (frame.names.map Text.quoted)
    ++ "], enclosed: " ++ textOfBool frame.outer.isSome ++ " \x7d"

end Frame

/-! ### Chains of frames -/

/-- All frames made so far, by number. -/
structure Scopes where
  frames : Array Frame
deriving Inhabited

namespace Scopes

/-- No frames. -/
def empty : Scopes :=
  ⟨#[]⟩

/-- Adds a frame. Its number is the number of frames before it. -/
def add (scopes : Scopes) (frame : Frame) : Scopes :=
  ⟨scopes.frames.push frame⟩

/-- The number that the next frame gets. -/
def size (scopes : Scopes) : Nat :=
  scopes.frames.size

/-- The frame with a number. -/
def frame? (scopes : Scopes) (number : Nat) : Option Frame :=
  scopes.frames[number]?

/-- The value of a name in a frame: that of the nearest frame outward that binds the name. An
enclosing frame is older than the frames it encloses, so the search ends. -/
def get? (scopes : Scopes) (number : Nat) (name : String) : Option Value :=
  match scopes.frame? number with
  | none => none
  | some frame =>
    match frame.find? name with
    | some value => some value
    | none =>
      match frame.outer with
      | none => none
      | some outer => if outer < number then scopes.get? outer name else none
termination_by number

/-- Binds a name in a frame. -/
def set (scopes : Scopes) (number : Nat) (name : String) (value : Value) : Scopes :=
  ⟨scopes.frames.modify number fun frame => frame.bind name value⟩

end Scopes

end MonkeyLang
