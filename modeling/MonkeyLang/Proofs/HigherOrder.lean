/-
This file proves that `map`, `reduce` and `sum` can be written in the language
itself, and how many calls they take. The first two make a local function that
calls itself, once for each element of an array and once more at the end, and
hands on what it has made of the elements so far. A call does not end before the
calls inside it, so the last of them is as many calls deep as the array is long.

What one round of such a loop does is said of any state in which the names in
reach lead to the right values. Rounds put together by induction on the array.
What is around a loop takes one call more for each function it is in, and the
parameters `f` need not be known: a loop asks of `f` only what it computes.
-/

import Mathlib.Data.Int.ModEq
import MonkeyLang.Proofs.Evaluation.Budget
import MonkeyLang.Proofs.Sessions

namespace MonkeyLang

open Machine

namespace HigherOrder

/-! ### The functions -/

/-- The block `if (len(arr) == 0) { state } else { iter(rest(arr), step); }`. -/
def roundBody (state : String) (step : Expression) : Block :=
  [.expression (.conditional
    (.binary (.call (.identifier "len") [.identifier "arr"]) .equal (.integer 0))
    [.expression (.identifier state)]
    (some [.expression (.call (.identifier "iter")
      [.call (.identifier "rest") [.identifier "arr"], step])]))]

/-- The block `let iter = fn(arr, state) { ... }; iter(arr, start);`, with a round as the body of
the function. -/
def traversalBody (state : String) (step start : Expression) : Block :=
  [.binding "iter" (.function ["arr", state] (roundBody state step)),
    .expression (.call (.identifier "iter") [.identifier "arr", start])]

/-- The expression `first(arr)`. -/
def firstElement : Expression :=
  .call (.identifier "first") [.identifier "arr"]

/-- The expression `push(accumulated, f(first(arr)))`. -/
def mapStep : Expression :=
  .call (.identifier "push") [.identifier "accumulated", .call (.identifier "f") [firstElement]]

/-- The expression `f(result, first(arr))`. -/
def reduceStep : Expression :=
  .call (.identifier "f") [.identifier "result", firstElement]

/-- The block `x * 2`. -/
def doublingBody : Block :=
  [.expression (.binary (.identifier "x") .multiply (.integer 2))]

/-- The block `a + b`. -/
def additionBody : Block :=
  [.expression (.binary (.identifier "a") .add (.identifier "b"))]

def mapBody : Block :=
  traversalBody "accumulated" mapStep (.array [])

def reduceBody : Block :=
  traversalBody "result" reduceStep (.identifier "initial")

/-- The block `reduce(arr, 0, fn(a, b) { a + b })`. -/
def sumBody : Block :=
  [.expression (.call (.identifier "reduce")
    [.identifier "arr", .integer 0, .function ["a", "b"] additionBody])]

section Closures

variable (identity home : Nat)

/-- The function `fn(x) { x * 2 }`, made in the frame `home`. -/
def doubling : Closure :=
  ⟨identity, ["x"], doublingBody, home⟩

/-- The function `fn(a, b) { a + b }`. -/
def addition : Closure :=
  ⟨identity, ["a", "b"], additionBody, home⟩

/-- The function `fn(arr, f) { let iter = ...; iter(arr, []); }`. -/
def mapFunction : Closure :=
  ⟨identity, ["arr", "f"], mapBody, home⟩

/-- The function `fn(arr, initial, f) { let iter = ...; iter(arr, initial); }`. -/
def reduceFunction : Closure :=
  ⟨identity, ["arr", "initial", "f"], reduceBody, home⟩

/-- The function `fn(arr) { reduce(arr, 0, fn(a, b) { a + b }) }`. -/
def sumFunction : Closure :=
  ⟨identity, ["arr"], sumBody, home⟩

end Closures

/-! ### Builtins in reach -/

/-- The names that the builtins go by. -/
def builtinNames : List String :=
  Builtin.all.map Builtin.name

theorem name_mem_builtinNames (builtin : Builtin) : builtin.name ∈ builtinNames := by
  cases builtin <;> decide

/-- In a frame, no builtin is hidden behind something else of its name. -/
structure Unshadowed (machine : Machine) (frame : Nat) : Prop where
  present : frame < machine.scopes.size
  free : ∀ builtin : Builtin, machine.scopes.get? frame builtin.name = none

namespace Unshadowed

variable {machine later : Machine} {frame limit : Nat}

theorem grown (unshadowed : Unshadowed machine frame) (grows : machine.Grows later) :
    Unshadowed later frame where
  present := Nat.lt_of_lt_of_le unshadowed.present grows.size_le
  free builtin := (grows.get?_eq unshadowed.present builtin.name).trans (unshadowed.free builtin)

theorem inCall {closure : Closure} {arguments : List Value}
    (unshadowed : Unshadowed machine closure.frame)
    (others : ∀ builtin : Builtin, (closure.frameOfCall arguments).find? builtin.name = none) :
    Unshadowed (machine.withFrame (closure.frameOfCall arguments)).entered
      machine.scopes.size where
  present := Scopes.lt_size_add _ _
  free builtin := by
    rw [Closure.get?_of_find?_eq_none unshadowed.present (others builtin)]
    exact unshadowed.free builtin

theorem withBinding {name : String} {value : Value} (unshadowed : Unshadowed machine frame)
    (other : name ∉ builtinNames) :
    Unshadowed (machine.withBinding frame name value) frame where
  present := Nat.lt_of_lt_of_eq unshadowed.present (Scopes.size_set ..).symm
  free builtin := by
    have differs : name ≠ builtin.name := by
      rintro rfl
      exact other (name_mem_builtinNames builtin)
    refine (Scopes.get?_set_self unshadowed.present name builtin.name value).trans ?_
    rw [if_neg differs]
    exact unshadowed.free builtin

theorem initial : Unshadowed Machine.initial rootFrame where
  present := by decide
  free builtin :=
    have found : Machine.initial.scopes.frame? rootFrame = some ⟨[], none⟩ := rfl
    Scopes.get?_of_frame? found builtin.name

theorem ends_identifier (unshadowed : Unshadowed machine frame) (builtin : Builtin) :
    Ends limit (.expression frame (.identifier builtin.name) (.ok (.builtin builtin))) machine
      machine :=
  .builtin (unshadowed.free builtin) (by cases builtin <;> decide)

/-- The call of a builtin that takes one argument and writes nothing. -/
theorem ends_call (unshadowed : Unshadowed machine frame) (builtin : Builtin)
    {argument : Expression} {given value : Value}
    (still : Ends limit (.expression frame argument (.ok given)) machine machine)
    (answers : builtin.call [given] = .ok (.silent value)) :
    Ends limit (.expression frame (.call (.identifier builtin.name) [argument]) (.ok value))
      machine machine :=
  .call (unshadowed.ends_identifier builtin) (.expressions still .noExpressions)
    (ends_builtin answers)

end Unshadowed

/-! ### Definitions -/

/-- The state in which a function has been made and bound to a name. -/
def withDefinition (machine : Machine) (frame : Nat) (name : String) (parameters : List String)
    (body : Block) : Machine :=
  machine.withFunction.withBinding frame name
    (.function (machine.nextFunction parameters body frame))

section Definitions

variable {machine : Machine} {frame limit : Nat} {name : String} {parameters : List String}
  {body : Block}

/-- The function goes by its name, and other names lead to what they did. -/
theorem get?_withDefinition (present : frame < machine.scopes.size) (wanted : String) :
    (withDefinition machine frame name parameters body).scopes.get? frame wanted =
      if name = wanted then some (.function (machine.nextFunction parameters body frame))
      else machine.scopes.get? frame wanted :=
  Scopes.get?_set_self present name wanted _

theorem get?_withDefinition_self (present : frame < machine.scopes.size) :
    (withDefinition machine frame name parameters body).scopes.get? frame name =
      some (.function (machine.nextFunction parameters body frame)) :=
  (get?_withDefinition present name).trans (if_pos rfl)

theorem get?_withDefinition_of_ne (present : frame < machine.scopes.size) {wanted : String}
    (other : name ≠ wanted) :
    (withDefinition machine frame name parameters body).scopes.get? frame wanted =
      machine.scopes.get? frame wanted :=
  (get?_withDefinition present wanted).trans (if_neg other)

theorem Unshadowed.withDefinition (unshadowed : Unshadowed machine frame)
    (other : name ∉ builtinNames) :
    Unshadowed (withDefinition machine frame name parameters body) frame :=
  have made : Unshadowed machine.withFunction frame := ⟨unshadowed.present, unshadowed.free⟩
  made.withBinding other

/-- What stands behind a definition is evaluated where the name is bound. -/
theorem ends_definition {rest : List Statement} {last : Value} {outcome : Except Signal Value}
    {behind : Machine}
    (ends : Ends limit (.statements frame rest .null outcome)
      (withDefinition machine frame name parameters body) behind) :
    Ends limit (.statements frame (.binding name (.function parameters body) :: rest) last outcome)
      machine behind :=
  .statements (.binding .function) ends

end Definitions

/-! ### Rounds -/

/-- Only nothing counts as zero. -/
theorem integerOfCount_eq_zero_iff (count : Nat) :
    Builtin.integerOfCount count = 0 ↔ count = 0 := by
  unfold Builtin.integerOfCount
  split
  · next small =>
    have bound : count < 2 ^ 63 := Nat.lt_of_le_of_lt small (by decide)
    rw [← Int64.toInt_inj, Int64.toInt_ofNat_of_lt bound]
    exact Int.natCast_eq_zero
  · next large =>
    refine ⟨fun same => absurd same (by decide), ?_⟩
    rintro rfl
    exact absurd (Nat.zero_le _) large

/-- A round of a loop, where names lead to what is left of an array, to the state of the loop, to
the loop itself and to the function that is called with each element. -/
structure Round (machine : Machine) (frame : Nat) (state : String) (left : List Value)
    (current loop function : Value) : Prop where
  unshadowed : Unshadowed machine frame
  array : machine.scopes.get? frame "arr" = some (.array left)
  current : machine.scopes.get? frame state = some current
  loop : machine.scopes.get? frame "iter" = some loop
  function : machine.scopes.get? frame "f" = some function

namespace Round

variable {machine : Machine} {frame limit : Nat} {state : String} {left : List Value}
  {first current loop function : Value}

theorem ends_condition (round : Round machine frame state left current loop function) :
    Ends limit (.expression frame
      (.binary (.call (.identifier "len") [.identifier "arr"]) .equal (.integer 0))
      (.ok (.boolean left.isEmpty))) machine machine := by
  have length : Ends limit (.expression frame (.call (.identifier "len") [.identifier "arr"])
      (.ok (.integer (Builtin.integerOfCount left.length)))) machine machine :=
    round.unshadowed.ends_call .len (.bound round.array) rfl
  have same : left.isEmpty = (Builtin.integerOfCount left.length == 0) := by
    rw [Bool.eq_iff_iff, beq_iff_eq, integerOfCount_eq_zero_iff, List.isEmpty_iff_length_eq_zero]
  rw [same]
  exact .binary length .integer

theorem ends_element (round : Round machine frame state (first :: left) current loop function) :
    Ends limit (.expression frame firstElement (.ok first)) machine machine :=
  round.unshadowed.ends_call .first (.bound round.array) rfl

theorem ends_rest (round : Round machine frame state (first :: left) current loop function) :
    Ends limit (.expression frame (.call (.identifier "rest") [.identifier "arr"])
      (.ok (.array left))) machine machine :=
  round.unshadowed.ends_call .rest (.bound round.array) rfl

/-- Where nothing is left, a round yields the state of the loop. -/
theorem takes_last (round : Round machine frame state [] current loop function)
    (step : Expression) :
    machine.Takes limit 0 (.statements frame (roundBody state step) .null) current :=
  .statement .null (.consequence round.ends_condition rfl
    (takes_of_still (.statements (.evaluated (.bound round.current)) .noStatements)))

/-- Otherwise its step is followed by the next round. -/
theorem takes_more (round : Round machine frame state (first :: left) current loop function)
    {step : Expression} {next value : Value} {calls : Nat}
    (stepped : machine.Takes limit 1 (.expression frame step) next)
    (further : ∀ later, machine.Grows later →
      later.Takes limit (calls + 1) (.call loop [.array left, next]) value) :
    machine.Takes limit (calls + 1) (.statements frame (roundBody state step) .null) value := by
  refine .statement .null (.alternative round.ends_condition rfl (.statement .null ?_))
  -- All names are looked up before the step calls anything.
  have takes := Takes.call (.bound round.loop) (.behind round.ends_rest stepped.alone) further
  rwa [Nat.max_eq_right (Nat.le_add_left 1 calls)] at takes

end Round

/-! ### Loops -/

/-- The names that a loop must not give to its state. -/
def reserved : List String :=
  "arr" :: "iter" :: "f" :: builtinNames

/-- A loop that was made in a frame in which it goes by its name. -/
structure Loop (machine : Machine) (closure : Closure) (state : String) (step : Expression)
    (function : Value) : Prop where
  parameters : closure.parameters = ["arr", state]
  body : closure.body = roundBody state step
  ordinary : state ∉ reserved
  unshadowed : Unshadowed machine closure.frame
  itself : machine.scopes.get? closure.frame "iter" = some (.function closure)
  function : machine.scopes.get? closure.frame "f" = some function

section Loops

variable {α β : Type} {ofElement : α → Value} {ofState : β → Value} {next : β → α → β}
  {limit : Nat} {machine later : Machine} {closure : Closure} {state : String} {step : Expression}
  {function : Value}

namespace Loop

theorem grown (isLoop : Loop machine closure state step function) (grows : machine.Grows later) :
    Loop later closure state step function where
  parameters := isLoop.parameters
  body := isLoop.body
  ordinary := isLoop.ordinary
  unshadowed := isLoop.unshadowed.grown grows
  itself := (grows.get?_eq isLoop.unshadowed.present _).trans isLoop.itself
  function := (grows.get?_eq isLoop.unshadowed.present _).trans isLoop.function

theorem ne_of_reserved (isLoop : Loop machine closure state step function) {name : String}
    (isReserved : name ∈ reserved) : state ≠ name :=
  fun same => isLoop.ordinary (same ▸ isReserved)

theorem find? (isLoop : Loop machine closure state step function) (array current : Value)
    (name : String) :
    (closure.frameOfCall [array, current]).find? name =
      if state = name then some current else if "arr" = name then some array else none := by
  rw [Closure.frameOfCall, isLoop.parameters]
  show ((Frame.bind _ "arr" array).bind state current).find? name = _
  rw [Frame.find?_bind, Frame.find?_bind]
  rfl

/-- The frame of a call of the loop is that of a round. -/
theorem round (isLoop : Loop machine closure state step function) (left : List Value)
    (current : Value) :
    Round (machine.withFrame (closure.frameOfCall [.array left, current])).entered
      machine.scopes.size state left current (.function closure) function := by
  have outside {name : String} (isReserved : name ∈ reserved) (other : "arr" ≠ name) :
      (closure.frameOfCall [.array left, current]).find? name = none := by
    rw [isLoop.find?, if_neg (isLoop.ne_of_reserved isReserved), if_neg other]
  have present := isLoop.unshadowed.present
  refine ⟨isLoop.unshadowed.inCall fun builtin => ?_, Closure.get?_of_find? ?_,
    Closure.get?_of_find? ?_, ?_, ?_⟩
  · refine outside ?_ (by cases builtin <;> decide)
    exact List.mem_append_right ["arr", "iter", "f"] (name_mem_builtinNames builtin)
  · rw [isLoop.find?, if_neg (isLoop.ne_of_reserved (by decide)), if_pos rfl]
  · rw [isLoop.find?, if_pos rfl]
  · rw [Closure.get?_of_find?_eq_none present (outside (by decide) (by decide)), isLoop.itself]
  · rw [Closure.get?_of_find?_eq_none present (outside (by decide) (by decide)), isLoop.function]

end Loop

/-- From a state on, what stands in a round for its step takes one call, and takes the state of the
loop on by the first element that is left. -/
def Advances (limit : Nat) (machine : Machine) (state : String) (step : Expression)
    (function : Value) (ofElement : α → Value) (ofState : β → Value) (next : β → α → β) : Prop :=
  ∀ (later : Machine) (frame : Nat) (loop : Value) (current : β) (first : α) (left : List Value),
    machine.Grows later →
    Round later frame state (ofElement first :: left) (ofState current) loop function →
    later.Takes limit 1 (.expression frame step) (ofState (next current first))

theorem Advances.grown
    (advances : Advances limit machine state step function ofElement ofState next)
    (grows : machine.Grows later) :
    Advances limit later state step function ofElement ofState next :=
  fun after frame loop current first left further =>
    advances after frame loop current first left (grows.trans further)

/-- A loop over an array takes one call more than the array has elements, and folds it. Between one
round and the next, the calls of the step leave frames behind. -/
theorem Loop.takes (isLoop : Loop machine closure state step function)
    (advances : Advances limit machine state step function ofElement ofState next)
    (elements : List α) (current : β) (grows : machine.Grows later) :
    later.Takes limit (elements.length + 1)
      (.call (.function closure) [.array (elements.map ofElement), ofState current])
      (ofState (elements.foldl next current)) := by
  -- Each round starts from the state of the loop and in the state that the one before it leads to.
  induction elements generalizing current later with
  | nil =>
    have round := (isLoop.grown grows).round [] (ofState current)
    refine .inCall (congrArg List.length isLoop.parameters) ?_
    rw [isLoop.body]
    exact round.takes_last step
  | cons first elements inductionHypothesis =>
    have round := (isLoop.grown grows).round (ofElement first :: elements.map ofElement)
      (ofState current)
    have growsInside : machine.Grows (later.withFrame (closure.frameOfCall
        [.array (ofElement first :: elements.map ofElement), ofState current])).entered :=
      grows.trans (grows_inCall later _)
    refine .inCall (congrArg List.length isLoop.parameters) ?_
    rw [isLoop.body]
    refine round.takes_more (advances _ _ _ _ _ _ growsInside round) fun after growsAfter => ?_
    exact inductionHypothesis (next current first) (growsInside.trans growsAfter)

end Loops

/-! ### Traversals -/

section Traversals

variable {α β : Type} {ofElement : α → Value} {ofState : β → Value} {next : β → α → β}
  {limit : Nat} {machine : Machine} {closure : Closure} {arguments : List Value} {state : String}
  {step start : Expression} {function : Value}

/-- The state in which a traversal has made its loop, in the frame of its call. -/
def withLoop (machine : Machine) (closure : Closure) (arguments : List Value) (state : String)
    (step : Expression) : Machine :=
  withDefinition (machine.withFrame (closure.frameOfCall arguments)).entered machine.scopes.size
    "iter" ["arr", state] (roundBody state step)

theorem grows_withLoop (machine : Machine) (closure : Closure) (arguments : List Value)
    (state : String) (step : Expression) :
    machine.Grows (withLoop machine closure arguments state step) where
  size_le := by
    refine Nat.le_trans (grows_inCall machine (closure.frameOfCall arguments)).size_le ?_
    exact Nat.le_of_eq (Scopes.size_set ..).symm
  kept number old := by
    refine Eq.trans ?_ ((grows_inCall machine (closure.frameOfCall arguments)).kept number old)
    exact Scopes.frame?_set_of_ne (Nat.ne_of_lt old) _ _

/-- The call of a function that goes through an array with a loop and another function. -/
structure Traversal (machine : Machine) (closure : Closure) (arguments : List Value)
    (state : String) (step start : Expression) (array function : Value) : Prop where
  right : closure.parameters.length = arguments.length
  body : closure.body = traversalBody state step start
  ordinary : state ∉ reserved
  unshadowed : Unshadowed machine closure.frame
  others : ∀ builtin : Builtin, (closure.frameOfCall arguments).find? builtin.name = none
  array : (closure.frameOfCall arguments).find? "arr" = some array
  function : (closure.frameOfCall arguments).find? "f" = some function

namespace Traversal

variable {array : Value}

/-- Arguments still go by their names when the loop has been made. -/
theorem get?_of_find? {name : String} {value : Value} (other : "iter" ≠ name)
    (found : (closure.frameOfCall arguments).find? name = some value) :
    (withLoop machine closure arguments state step).scopes.get? machine.scopes.size name =
      some value :=
  (get?_withDefinition_of_ne (Scopes.lt_size_add ..) other).trans (Closure.get?_of_find? found)

theorem loop (traversal : Traversal machine closure arguments state step start array function) :
    let inside := (machine.withFrame (closure.frameOfCall arguments)).entered
    Loop (withLoop machine closure arguments state step)
      (inside.nextFunction ["arr", state] (roundBody state step) machine.scopes.size) state step
      function := by
  intro inside
  have unshadowed := traversal.unshadowed.inCall traversal.others
  refine ⟨rfl, rfl, traversal.ordinary, unshadowed.withDefinition (by decide), ?_, ?_⟩
  · exact get?_withDefinition_self unshadowed.present
  · exact get?_of_find? (by decide) traversal.function

/-- The call takes two calls more than the array has elements, and folds the array. -/
theorem takes {elements : List α} {initial : β}
    (traversal : Traversal machine closure arguments state step start
      (.array (elements.map ofElement)) function)
    (starts : Ends limit (.expression machine.scopes.size start (.ok (ofState initial)))
      (withLoop machine closure arguments state step)
      (withLoop machine closure arguments state step))
    (advances : Advances limit machine state step function ofElement ofState next) :
    machine.Takes limit (elements.length + 2) (.call (.function closure) arguments)
      (ofState (elements.foldl next initial)) := by
  have isLoop := traversal.loop
  have advances' := advances.grown (grows_withLoop machine closure arguments state step)
  have array : (withLoop machine closure arguments state step).scopes.get? machine.scopes.size
      "arr" = some (.array (elements.map ofElement)) :=
    get?_of_find? (by decide) traversal.array
  have takes := Takes.call (.bound isLoop.itself)
    (takes_of_still (.expressions (.bound array) (.expressions starts .noExpressions)))
    fun later grows => isLoop.takes advances' elements initial grows
  rw [Nat.zero_max] at takes
  obtain ⟨last, ends, -⟩ := takes.statement .null
  refine takes_call traversal.right (?_ : Ends _ _ _ last)
  rw [traversal.body]
  exact ends_definition ends

end Traversal

end Traversals

/-! ### `map`, `reduce` and `sum` -/

section Functions

variable {limit : Nat} {machine : Machine} {function : Value} {home : Nat}

/-- From a state on, a function calls nothing and makes one value of another. -/
def Maps {α γ : Type} (limit : Nat) (machine : Machine) (function : Value) (ofElement : α → Value)
    (ofImage : γ → Value) (image : α → γ) : Prop :=
  ∀ (later : Machine) (element : α), machine.Grows later →
    later.Takes limit 1 (.call function [ofElement element]) (ofImage (image element))

/-- From a state on, a function calls nothing and makes one value of two. -/
def Combines {α β : Type} (limit : Nat) (machine : Machine) (function : Value)
    (ofElement : α → Value) (ofState : β → Value) (next : β → α → β) : Prop :=
  ∀ (later : Machine) (current : β) (element : α), machine.Grows later →
    later.Takes limit 1 (.call function [ofState current, ofElement element])
      (ofState (next current element))

theorem Combines.advances {α β : Type} {ofElement : α → Value} {ofState : β → Value}
    {next : β → α → β} (combines : Combines limit machine function ofElement ofState next) :
    Advances limit machine "result" reduceStep function ofElement ofState next := by
  intro later frame loop current first left grows round
  exact .call (.bound round.function)
    (takes_of_still (.expressions (.bound round.current)
      (.expressions round.ends_element .noExpressions)))
    fun after further => combines after current first (grows.trans further)

/-- The function `reduce` folds an array. -/
theorem takes_reduce {α β : Type} {ofElement : α → Value} {ofState : β → Value} {next : β → α → β}
    (unshadowed : Unshadowed machine home)
    (combines : Combines limit machine function ofElement ofState next) (identity : Nat)
    (elements : List α) (initial : β) :
    machine.Takes limit (elements.length + 2) (.call (.function (reduceFunction identity home))
        [.array (elements.map ofElement), ofState initial, function])
      (ofState (elements.foldl next initial)) := by
  have traversal : Traversal machine (reduceFunction identity home)
      [.array (elements.map ofElement), ofState initial, function] "result" reduceStep
      (.identifier "initial") (.array (elements.map ofElement)) function :=
    ⟨rfl, rfl, by decide, unshadowed, fun builtin => by cases builtin <;> rfl, rfl, rfl⟩
  exact traversal.takes (.bound (Traversal.get?_of_find? (by decide) rfl)) combines.advances

/-- The array of what `map` has made so far. -/
def arrayOf {γ : Type} (ofImage : γ → Value) (images : List γ) : Value :=
  .array (images.map ofImage)

theorem Maps.advances {α γ : Type} {ofElement : α → Value} {ofImage : γ → Value} {image : α → γ}
    (maps : Maps limit machine function ofElement ofImage image) :
    Advances limit machine "accumulated" mapStep function ofElement (arrayOf ofImage)
      fun images element => images ++ [image element] := by
  intro later frame loop images first left grows round
  have mapped : later.Takes limit (max 0 1)
      (.expression frame (.call (.identifier "f") [firstElement])) (ofImage (image first)) :=
    .call (.bound round.function) (takes_of_still (.expressions round.ends_element .noExpressions))
      fun after further => maps after first (grows.trans further)
  have pushed : Builtin.push.call [arrayOf ofImage images, ofImage (image first)] =
      .ok (.silent (arrayOf ofImage (images ++ [image first]))) := by
    rw [arrayOf, arrayOf, List.map_append]
    rfl
  exact .call (round.unshadowed.ends_identifier .push)
    (.behind (.bound round.current) mapped.alone)
    fun after _ => takes_of_still (ends_builtin pushed)

/-- The function `map` yields the array of the images of the elements. -/
theorem takes_map {α γ : Type} {ofElement : α → Value} {ofImage : γ → Value} {image : α → γ}
    (unshadowed : Unshadowed machine home)
    (maps : Maps limit machine function ofElement ofImage image) (identity : Nat)
    (elements : List α) :
    machine.Takes limit (elements.length + 2)
      (.call (.function (mapFunction identity home)) [.array (elements.map ofElement), function])
      (arrayOf ofImage (elements.map image)) := by
  have traversal : Traversal machine (mapFunction identity home)
      [.array (elements.map ofElement), function] "accumulated" mapStep (.array [])
      (.array (elements.map ofElement)) function :=
    ⟨rfl, rfl, by decide, unshadowed, fun builtin => by cases builtin <;> rfl, rfl, rfl⟩
  have all : elements.foldl (fun images element => images ++ [image element]) [] =
      elements.map image := by
    rw [List.foldl_append_eq_append, List.nil_append]
    exact List.map_eq_flatMap.symm
  rw [← all]
  exact traversal.takes (.array .noExpressions) maps.advances

theorem maps_doubling (identity : Nat) :
    Maps limit machine (.function (doubling identity home)) .integer .integer (· * 2) := by
  intro later value _
  exact .inCall rfl (.statement .null
    (takes_of_still (ends_binary (.bound (Closure.get?_of_find? rfl)) .integer rfl)))

theorem combines_addition (identity : Nat) :
    Combines limit machine (.function (addition identity home)) .integer .integer (· + ·) := by
  intro later total value _
  exact .inCall rfl (.statement .null (takes_of_still
    (ends_binary (.bound (Closure.get?_of_find? rfl)) (.bound (Closure.get?_of_find? rfl)) rfl)))

/-- The function `sum` adds up an array of integers. -/
theorem takes_sum {reduceIdentity : Nat} (unshadowed : Unshadowed machine home)
    (bound : machine.scopes.get? home "reduce" =
      some (.function (reduceFunction reduceIdentity home)))
    (identity : Nat) (values : List Int64) :
    machine.Takes limit (values.length + 3)
      (.call (.function (sumFunction identity home)) [.array (values.map .integer)])
      (.integer (values.foldl (· + ·) 0)) := by
  refine .inCall rfl (.statement .null ?_)
  let frame := (sumFunction identity home).frameOfCall [.array (values.map .integer)]
  have around : (machine.withFrame frame).entered.scopes.get? machine.scopes.size "reduce" =
      some (.function (reduceFunction reduceIdentity home)) :=
    (Closure.get?_of_find?_eq_none unshadowed.present rfl).trans bound
  have array : (machine.withFrame frame).entered.scopes.get? machine.scopes.size "arr" =
      some (.array (values.map .integer)) := Closure.get?_of_find? rfl
  rw [← Nat.zero_max (values.length + 2)]
  exact .call (.bound around)
    (.behind (.bound array) (.behind .integer (takes_function ["a", "b"] additionBody).alone))
    fun later grows => takes_reduce (unshadowed.grown ((grows_inCall machine frame).trans grows))
      (combines_addition _) reduceIdentity values 0

end Functions

/-! ### The program -/

/-- The statements `let map = ...; let reduce = ...; let sum = ...;`. -/
def definitions : List Statement :=
  [.binding "map" (.function ["arr", "f"] mapBody),
    .binding "reduce" (.function ["arr", "initial", "f"] reduceBody),
    .binding "sum" (.function ["arr"] sumBody)]

/-- The expression `sum(map(xs, fn(x) { x * 2 }))`. -/
def sumOfDoubles : Expression :=
  .call (.identifier "sum")
    [.call (.identifier "map") [.identifier "xs", .function ["x"] doublingBody]]

/-- In a frame, the functions are bound to their names, and `xs` to an array. -/
structure Defined (machine : Machine) (frame : Nat) (array : Value) : Prop where
  unshadowed : Unshadowed machine frame
  map : ∃ identity, machine.scopes.get? frame "map" = some (.function (mapFunction identity frame))
  reduce : ∃ identity,
    machine.scopes.get? frame "reduce" = some (.function (reduceFunction identity frame))
  sum : ∃ identity, machine.scopes.get? frame "sum" = some (.function (sumFunction identity frame))
  array : machine.scopes.get? frame "xs" = some array

section Program

variable {limit frame : Nat} {machine : Machine} {values : List Int64}

/-- What the doubles of integers add up to. -/
def totalOfDoubles (values : List Int64) : Int64 :=
  (values.map (· * 2)).foldl (· + ·) 0

theorem takes_sumOfDoubles (defined : Defined machine frame (.array (values.map .integer))) :
    machine.Takes limit (values.length + 3) (.expression frame sumOfDoubles)
      (.integer (totalOfDoubles values)) := by
  obtain ⟨mapIdentity, mapBound⟩ := defined.map
  obtain ⟨reduceIdentity, reduceBound⟩ := defined.reduce
  obtain ⟨sumIdentity, sumBound⟩ := defined.sum
  have mapped : machine.Takes limit (max 0 (values.length + 2))
      (.expression frame (.call (.identifier "map")
        [.identifier "xs", .function ["x"] doublingBody]))
      (arrayOf .integer (values.map (· * 2))) :=
    .call (.bound mapBound)
      (.behind (.bound defined.array) (takes_function ["x"] doublingBody).alone)
      fun later grows => takes_map (defined.unshadowed.grown grows) (maps_doubling _) mapIdentity
        values
  have calls : values.length + 3 =
      max (max 0 (values.length + 2)) ((values.map (· * 2)).length + 3) := by
    rw [List.length_map]
    omega
  rw [calls]
  exact .call (.bound sumBound) mapped.alone fun later grows =>
    takes_sum (defined.unshadowed.grown grows)
      ((grows.get?_eq defined.unshadowed.present _).trans reduceBound) sumIdentity _

/-- The state in which the functions have been bound to their names. -/
def withDefinitions (machine : Machine) (frame : Nat) : Machine :=
  let mapped := withDefinition machine frame "map" ["arr", "f"] mapBody
  let reduced := withDefinition mapped frame "reduce" ["arr", "initial", "f"] reduceBody
  withDefinition reduced frame "sum" ["arr"] sumBody

theorem defined_withDefinitions {array : Value} (unshadowed : Unshadowed machine frame)
    (bound : machine.scopes.get? frame "xs" = some array) :
    Defined (withDefinitions machine frame) frame array := by
  let mapped := withDefinition machine frame "map" ["arr", "f"] mapBody
  let reduced := withDefinition mapped frame "reduce" ["arr", "initial", "f"] reduceBody
  have first : Unshadowed mapped frame := unshadowed.withDefinition (by decide)
  have second : Unshadowed reduced frame := first.withDefinition (by decide)
  have third : Unshadowed (withDefinitions machine frame) frame :=
    second.withDefinition (by decide)
  have kept {name : String} (isKept : "reduce" ≠ name ∧ "sum" ≠ name) :
      (withDefinitions machine frame).scopes.get? frame name = mapped.scopes.get? frame name :=
    (get?_withDefinition_of_ne second.present isKept.2).trans
      (get?_withDefinition_of_ne first.present isKept.1)
  refine ⟨third, ⟨machine.functions, ?_⟩, ⟨mapped.functions, ?_⟩, ⟨reduced.functions, ?_⟩, ?_⟩
  · exact (kept (by decide)).trans (get?_withDefinition_self unshadowed.present)
  · exact (get?_withDefinition_of_ne second.present (by decide)).trans
      (get?_withDefinition_self first.present)
  · exact get?_withDefinition_self second.present
  · exact (kept (by decide)).trans
      ((get?_withDefinition_of_ne unshadowed.present (by decide)).trans bound)

/-- The definitions are made, and then the doubles are added up. The array stays as it is. -/
theorem ends_program (limit : Nat) (unshadowed : Unshadowed machine frame)
    (bound : machine.scopes.get? frame "xs" = some (.array (values.map .integer))) :
    ∃ last, Ends limit (.statements frame (definitions ++ [.expression sumOfDoubles]) .null
        (Signal.affording limit (limit - machine.depth) (values.length + 3)
          (.integer (totalOfDoubles values)))) machine last ∧
      last.scopes.get? frame "xs" = some (.array (values.map .integer)) := by
  have defined := defined_withDefinitions unshadowed bound
  obtain ⟨last, ends, grows, -⟩ := (takes_sumOfDoubles defined).statement .null
  refine ⟨last, ends_definition (ends_definition (ends_definition ends)), ?_⟩
  exact (grows.get?_eq defined.unshadowed.present "xs").trans defined.array

end Program

section Source

variable {frame : Nat} {machine : Machine} {values : List Int64}

/-- The definitions as they are written in a source, and what is computed with them. -/
def source : String :=
"let map = fn(arr, f) \x7b
    let iter = fn(arr, accumulated) \x7b
        if (len(arr) == 0) \x7b
            accumulated
        \x7d else \x7b
            iter(rest(arr), push(accumulated, f(first(arr))));
        \x7d
    \x7d;
    iter(arr, []);
\x7d;
let reduce = fn(arr, initial, f) \x7b
    let iter = fn(arr, result) \x7b
        if (len(arr) == 0) \x7b
            result
        \x7d else \x7b
            iter(rest(arr), f(result, first(arr)));
        \x7d
    \x7d;
    iter(arr, initial);
\x7d;
let sum = fn(arr) \x7b reduce(arr, 0, fn(a, b) \x7b a + b \x7d) \x7d;
sum(map(xs, fn(x) \x7b x * 2 \x7d));"

theorem ofSource_ofList (characters : List Char) :
    Parsed.ofSource (String.ofList characters) =
      Parsed.ofTokens ((Lexeme.scan 1 characters []).reverse.map Lexeme.token) := by
  rw [Parsed.ofSource, Token.ofSource, Lexeme.ofSource, String.toList_ofList]

/-- A source is run as its statements are evaluated, outside any call. -/
theorem runSource_of_ends {limit : Nat} {source : String} {statements : List Statement}
    {outcome : Except Signal Value} {last : Machine}
    (parsed : Parsed.ofSource source = ⟨⟨statements⟩, []⟩)
    (ends : Ends limit (.statements frame statements .null outcome) { machine with depth := 0 }
      last) :
    StateT.run (runSource limit frame source) machine = (.ok (endProgram outcome), last) := by
  have clean : (Parsed.ofSource source).diagnostics = [] := congrArg Parsed.diagnostics parsed
  have same : statementsOf source = statements :=
    congrArg (fun parsed : Parsed => parsed.program.statements) parsed
  rw [runSource_of_clean clean, same]
  dsimp only
  rw [show _ = _ from ends.computed]

-- Reading goes through the source character by character.
set_option maxRecDepth 100000 in
theorem ofSource_source :
    Parsed.ofSource source = ⟨⟨definitions ++ [.expression sumOfDoubles]⟩, []⟩ := by
  refine (ofSource_ofList _).trans ?_
  with_unfolding_all rfl

/-- Where `xs` is bound to an array of integers and no builtin is hidden, the source adds up the
doubles of the elements, unless this takes more calls than the limit admits. The array stays as it
is. -/
theorem runSource_source (limit : Nat) (unshadowed : Unshadowed machine frame)
    (bound : machine.scopes.get? frame "xs" = some (.array (values.map .integer))) :
    ∃ last, StateT.run (runSource limit frame source) machine =
        (.ok (endProgram (Signal.affording limit limit (values.length + 3)
          (.integer (totalOfDoubles values)))), last) ∧
      last.scopes.get? frame "xs" = some (.array (values.map .integer)) := by
  have outside : Unshadowed { machine with depth := 0 } frame :=
    ⟨unshadowed.present, unshadowed.free⟩
  obtain ⟨last, ends, kept⟩ := ends_program limit outside bound
  exact ⟨last, runSource_of_ends ofSource_source ends, kept⟩

/-- What the doubles add up to is congruent to what they do in whole numbers. -/
theorem toInt_foldl_modEq (values : List Int64) (total : Int64) :
    ((values.map (· * 2)).foldl (· + ·) total).toInt ≡
      total.toInt + 2 * (values.map Int64.toInt).sum [ZMOD 2 ^ 64] := by
  induction values generalizing total with
  | nil => simp
  | cons value values inductionHypothesis =>
    have congruent (number : Int) : number.bmod (2 ^ 64) ≡ number [ZMOD 2 ^ 64] := Int.bmod_emod
    have doubled : (value * 2).toInt ≡ value.toInt * 2 [ZMOD 2 ^ 64] :=
      Int64.toInt_mul value 2 ▸ congruent _
    have added : (total + value * 2).toInt ≡ total.toInt + value.toInt * 2 [ZMOD 2 ^ 64] :=
      Int64.toInt_add total (value * 2) ▸ (congruent _).trans (doubled.add_left _)
    calc ((values.map (· * 2)).foldl (· + ·) (total + value * 2)).toInt
        ≡ (total + value * 2).toInt + 2 * (values.map Int64.toInt).sum [ZMOD 2 ^ 64] :=
          inductionHypothesis (total + value * 2)
      _ ≡ total.toInt + value.toInt * 2 + 2 * (values.map Int64.toInt).sum [ZMOD 2 ^ 64] :=
          added.add_right _
      _ = total.toInt + 2 * ((value :: values).map Int64.toInt).sum := by
          rw [List.map_cons, List.sum_cons]
          omega

/-- With `map`, `reduce` and `sum` as the source defines them, the doubles of an array of integers
add up to what they do in whole numbers, modulo `2^64`. This takes three calls more than the array
has elements, and where the limit does not admit as many, the program fails for this reason. The
array stays as it is. -/
theorem doubles_add_up (limit : Nat) (values : List Int64) :
    ∃ result last, StateT.run (runSource limit rootFrame source)
        (Machine.initial.withBinding rootFrame "xs" (.array (values.map .integer))) =
          (result, last) ∧
      (values.length + 3 ≤ limit → ∃ total : Int64, result = .ok (.integer total) ∧
        total.toInt ≡ 2 * (values.map Int64.toInt).sum [ZMOD 2 ^ 64]) ∧
      (limit < values.length + 3 →
        result = .ok (.error (Failure.callDepthExceeded limit).message)) ∧
      last.scopes.get? rootFrame "xs" = some (.array (values.map .integer)) := by
  have bound := (Scopes.get?_set_self Unshadowed.initial.present "xs" "xs"
    (.array (values.map .integer))).trans (if_pos rfl)
  obtain ⟨last, ran, kept⟩ :=
    runSource_source limit (Unshadowed.initial.withBinding (by decide)) bound
  refine ⟨_, last, ran, fun enough => ⟨totalOfDoubles values, ?_, ?_⟩, fun tooFew => ?_, kept⟩
  · rw [Signal.affording_of_le enough]
    rfl
  · exact Int.zero_add (2 * _) ▸ toInt_foldl_modEq values 0
  · rw [Signal.affording_of_lt tooFew]
    rfl

/-- Four elements under the limits of seven calls and of six. -/
theorem doubles_add_up_four :
    (∃ (total : Int64) (last : Machine), StateT.run (runSource 7 rootFrame source)
        (Machine.initial.withBinding rootFrame "xs"
          (.array (([1, 2, 3, -4] : List Int64).map .integer))) = (.ok (.integer total), last) ∧
      total.toInt ≡ 4 [ZMOD 2 ^ 64]) ∧
    ∃ last, StateT.run (runSource 6 rootFrame source)
        (Machine.initial.withBinding rootFrame "xs"
          (.array (([1, 2, 3, -4] : List Int64).map .integer))) =
      (.ok (.error (Failure.callDepthExceeded 6).message), last) := by
  constructor
  · obtain ⟨_, last, ran, adds, -, -⟩ := doubles_add_up 7 [1, 2, 3, -4]
    obtain ⟨total, rfl, same⟩ := adds (by decide)
    exact ⟨total, last, ran, same⟩
  · obtain ⟨_, last, ran, -, fails, -⟩ := doubles_add_up 6 [1, 2, 3, -4]
    obtain rfl := fails (by decide)
    exact ⟨last, ran⟩

end Source

end HigherOrder

end MonkeyLang
