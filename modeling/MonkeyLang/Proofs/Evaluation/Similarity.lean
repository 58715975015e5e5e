/-
This file compares values that hold different functions. Two values are similar
when they are built alike and the functions in them are related, place by place.
What relates functions is left open: that they are equal, say, or that they were
made by the same expression.

No operator and no builtin looks into a function. So what they make of similar
values is similar again, or they fail for the same reason, which is never that
too many calls are active.
-/

import Mathlib.Data.List.Forall2
import MonkeyLang.Builtin.Call
import MonkeyLang.Operators

namespace MonkeyLang

/-! ### Similar values -/

/-- Entries with the same hash key, whose keys and values are related. -/
inductive Entry.Similar {α : Type} (values : α → α → Prop) : Entry α → Entry α → Prop
  | intro {hashKey : HashKey} {key key' value value' : α} : values key key' →
      values value value' → Similar values ⟨hashKey, key, value⟩ ⟨hashKey, key', value'⟩

/-- Values that are built alike, and whose functions are related. -/
inductive Value.Similar (functions : Closure → Closure → Prop) : Value → Value → Prop
  | integer (value : Int64) : Similar functions (.integer value) (.integer value)
  | string (text : String) : Similar functions (.string text) (.string text)
  | boolean (value : Bool) : Similar functions (.boolean value) (.boolean value)
  | null : Similar functions .null .null
  | array {elements elements' : List Value} : List.Forall₂ (Similar functions) elements elements' →
      Similar functions (.array elements) (.array elements')
  | hash {entries entries' : List (Entry Value)} :
      List.Forall₂ (Entry.Similar (Similar functions)) entries entries' →
      Similar functions (.hash entries) (.hash entries')
  | function {closure closure' : Closure} : functions closure closure' →
      Similar functions (.function closure) (.function closure')
  | builtin (builtin : Builtin) : Similar functions (.builtin builtin) (.builtin builtin)
  | error (message : String) : Similar functions (.error message) (.error message)

/-- Entries with similar keys and values. -/
abbrev Entry.Alike (functions : Closure → Closure → Prop) : Entry Value → Entry Value → Prop :=
  Entry.Similar (Value.Similar functions)

section Laws

variable {functions others : Closure → Closure → Prop}

mutual

/-- Values stay similar when more functions are related. -/
theorem Value.Similar.mono (more : ∀ closure closure', functions closure closure' →
    others closure closure') : ∀ {value value' : Value},
    value.Similar functions value' → value.Similar others value'
  | _, _, .integer value => .integer value
  | _, _, .string text => .string text
  | _, _, .boolean value => .boolean value
  | _, _, .null => .null
  | _, _, .array elements => .array (forall₂_similar_mono more elements)
  | _, _, .hash entries => .hash (forall₂_alike_mono more entries)
  | _, _, .function related => .function (more _ _ related)
  | _, _, .builtin builtin => .builtin builtin
  | _, _, .error message => .error message

theorem forall₂_similar_mono (more : ∀ closure closure', functions closure closure' →
    others closure closure') : ∀ {values values' : List Value},
    List.Forall₂ (Value.Similar functions) values values' →
    List.Forall₂ (Value.Similar others) values values'
  | _, _, .nil => .nil
  | _, _, .cons first rest => .cons (first.mono more) (forall₂_similar_mono more rest)

theorem forall₂_alike_mono (more : ∀ closure closure', functions closure closure' →
    others closure closure') : ∀ {entries entries' : List (Entry Value)},
    List.Forall₂ (Entry.Alike functions) entries entries' →
    List.Forall₂ (Entry.Alike others) entries entries'
  | _, _, .nil => .nil
  | _, _, .cons (.intro key value) rest =>
    .cons (.intro (key.mono more) (value.mono more)) (forall₂_alike_mono more rest)

end

mutual

/-- A value is similar to itself if every function is related to itself. -/
theorem Value.Similar.refl (own : ∀ closure, functions closure closure) :
    ∀ value : Value, value.Similar functions value
  | .integer value => .integer value
  | .string text => .string text
  | .boolean value => .boolean value
  | .null => .null
  | .array elements => .array (forall₂_similar_refl own elements)
  | .hash entries => .hash (forall₂_alike_refl own entries)
  | .function closure => .function (own closure)
  | .builtin builtin => .builtin builtin
  | .error message => .error message
termination_by structural value => value

theorem forall₂_similar_refl (own : ∀ closure, functions closure closure) :
    ∀ values : List Value, List.Forall₂ (Value.Similar functions) values values
  | [] => .nil
  | value :: rest => .cons (.refl own value) (forall₂_similar_refl own rest)
termination_by structural values => values

theorem forall₂_alike_refl (own : ∀ closure, functions closure closure) :
    ∀ entries : List (Entry Value), List.Forall₂ (Entry.Alike functions) entries entries
  | [] => .nil
  | ⟨_, key, value⟩ :: rest =>
    .cons (.intro (.refl own key) (.refl own value)) (forall₂_alike_refl own rest)
termination_by structural entries => entries

end

mutual

/-- Values whose functions are equal are equal. -/
theorem Value.Similar.eq : ∀ {value value' : Value}, value.Similar Eq value' → value = value'
  | _, _, .integer _ => rfl
  | _, _, .string _ => rfl
  | _, _, .boolean _ => rfl
  | _, _, .null => rfl
  | _, _, .array elements => congrArg Value.array (eq_of_forall₂_similar elements)
  | _, _, .hash entries => congrArg Value.hash (eq_of_forall₂_alike entries)
  | _, _, .function same => congrArg Value.function same
  | _, _, .builtin _ => rfl
  | _, _, .error _ => rfl

theorem eq_of_forall₂_similar : ∀ {values values' : List Value},
    List.Forall₂ (Value.Similar Eq) values values' → values = values'
  | _, _, .nil => rfl
  | _, _, .cons first rest => by rw [first.eq, eq_of_forall₂_similar rest]

theorem eq_of_forall₂_alike : ∀ {entries entries' : List (Entry Value)},
    List.Forall₂ (Entry.Alike Eq) entries entries' → entries = entries'
  | _, _, .nil => rfl
  | _, _, .cons (.intro key value) rest => by rw [key.eq, value.eq, eq_of_forall₂_alike rest]

end

mutual

/-- Similar values have the same text if related functions have. -/
theorem Value.Similar.text_eq (texts : ∀ closure closure', functions closure closure' →
    closure.text = closure'.text) : ∀ {value value' : Value},
    value.Similar functions value' → value.text = value'.text
  | _, _, .integer _ => rfl
  | _, _, .string _ => rfl
  | _, _, .boolean _ => rfl
  | _, _, .null => rfl
  | _, _, .array elements => by rw [Value.text, Value.text, textsOfValues_eq texts elements]
  | _, _, .hash entries => by rw [Value.text, Value.text, textsOfEntries_eq texts entries]
  | _, _, .function related => texts _ _ related
  | _, _, .builtin _ => rfl
  | _, _, .error _ => rfl

theorem textsOfValues_eq (texts : ∀ closure closure', functions closure closure' →
    closure.text = closure'.text) : ∀ {values values' : List Value},
    List.Forall₂ (Value.Similar functions) values values' →
    textsOfValues values = textsOfValues values'
  | _, _, .nil => rfl
  | _, _, .cons first rest => by
    rw [textsOfValues, textsOfValues, first.text_eq texts, textsOfValues_eq texts rest]

theorem textsOfEntries_eq (texts : ∀ closure closure', functions closure closure' →
    closure.text = closure'.text) : ∀ {entries entries' : List (Entry Value)},
    List.Forall₂ (Entry.Alike functions) entries entries' →
    textsOfEntries entries = textsOfEntries entries'
  | _, _, .nil => rfl
  | _, _, .cons (.intro key value) rest => by
    rw [textsOfEntries, textsOfEntries, key.text_eq texts, value.text_eq texts,
      textsOfEntries_eq texts rest]

end

end Laws

/-! ### What operators see of a value -/

namespace Value

/-- Whether a value has neither parts nor functions in it, and operators tell such values apart. -/
def isScalar : Value → Bool
  | integer _ => true
  | string _ => true
  | boolean _ => true
  | _ => false

variable {functions : Closure → Closure → Prop} {value value' : Value}

theorem Similar.eq_of_isScalar (similar : value.Similar functions value')
    (scalar : value.isScalar = true) : value' = value := by
  cases similar with
  | integer | string | boolean => rfl
  | _ => exact absurd scalar Bool.false_ne_true

theorem Similar.isScalar_eq (similar : value.Similar functions value') :
    value.isScalar = value'.isScalar := by
  cases similar <;> rfl

theorem Similar.type_eq (similar : value.Similar functions value') : value.type = value'.type := by
  cases similar <;> rfl

theorem Similar.isTruthy_eq (similar : value.Similar functions value') :
    value.isTruthy = value'.isTruthy := by
  cases similar <;> rfl

theorem Similar.hashKey?_eq (similar : value.Similar functions value') :
    value.hashKey? = value'.hashKey? := by
  cases similar <;> rfl

end Value

/-! ### Agreeing results -/

/-- Whether a failure is that too many calls are active. -/
def Failure.isDepthExceeded : Failure → Bool
  | callDepthExceeded _ => true
  | _ => false

/-- Results that are related, or the same failure. It is none that depends on the active calls. -/
inductive Agree {α β : Type} (results : α → β → Prop) :
    Except Failure α → Except Failure β → Prop
  | ok {result : α} {result' : β} : results result result' →
      Agree results (.ok result) (.ok result')
  | error {failure : Failure} : failure.isDepthExceeded = false →
      Agree results (.error failure) (.error failure)

section Results

variable {functions : Closure → Closure → Prop} {value value' left left' right right' : Value}

theorem Agree.map {α β γ δ : Type} {results : α → β → Prop} {further : γ → δ → Prop}
    {first : α → γ} {second : β → δ} {result : Except Failure α} {result' : Except Failure β}
    (agree : Agree results result result')
    (related : ∀ value value', results value value' → further (first value) (second value')) :
    Agree further (first <$> result) (second <$> result') := by
  cases agree with
  | ok same => exact .ok (related _ _ same)
  | error other => exact .error other

theorem UnaryOperator.agree_apply (operator : UnaryOperator)
    (similar : value.Similar functions value') :
    Agree (Value.Similar functions) (operator.apply value) (operator.apply value') := by
  cases operator with
  | not =>
    rw [apply, apply, similar.isTruthy_eq]
    exact .ok (.boolean _)
  | negate =>
    cases similar with
    | integer value => exact .ok (.integer _)
    | _ => exact .error rfl

/-- What a binary operator makes of two integers is a value that is no function, or a failure. -/
theorem BinaryOperator.agree_applyIntegers (operator : BinaryOperator) (left right : Int64) :
    Agree (Value.Similar functions) (operator.applyIntegers left right)
      (operator.applyIntegers left right) := by
  cases operator with
  | divide =>
    rw [applyIntegers]
    split
    · exact .error rfl
    · exact .ok (.integer _)
  | add | subtract | multiply => exact .ok (.integer _)
  | less | greater | equal | notEqual => exact .ok (.boolean _)

/-- What a binary operator makes of two values is a value that is no function, or a failure. -/
theorem BinaryOperator.agree_apply_self (operator : BinaryOperator) (left right : Value) :
    Agree (Value.Similar functions) (operator.apply left right) (operator.apply left right) := by
  unfold apply
  split
  · exact agree_applyIntegers _ _ _
  · exact .ok (.string _)
  · exact .ok (.boolean _)
  · exact .ok (.boolean _)
  · exact .ok (.boolean _)
  · exact .ok (.boolean _)
  · split
    · exact .error rfl
    · exact .error rfl

/-- Why a binary operator fails on values of types for which it is not defined. -/
def BinaryOperator.refusal (left : ValueType) (operator : BinaryOperator) (right : ValueType) :
    Failure :=
  if left = right then .unknownBinary left operator right else .typeMismatch left operator right

/-- A binary operator is defined for two scalars at most. -/
theorem BinaryOperator.apply_of_composite (operator : BinaryOperator)
    (composite : ¬(left.isScalar = true ∧ right.isScalar = true)) :
    operator.apply left right = .error (refusal left.type operator right.type) := by
  unfold apply refusal
  split
  · exact absurd ⟨rfl, rfl⟩ composite
  · exact absurd ⟨rfl, rfl⟩ composite
  · exact absurd ⟨rfl, rfl⟩ composite
  · exact absurd ⟨rfl, rfl⟩ composite
  · exact absurd ⟨rfl, rfl⟩ composite
  · exact absurd ⟨rfl, rfl⟩ composite
  · split <;> rfl

theorem BinaryOperator.agree_apply (operator : BinaryOperator)
    (similarLeft : left.Similar functions left') (similarRight : right.Similar functions right') :
    Agree (Value.Similar functions) (operator.apply left right)
      (operator.apply left' right') := by
  by_cases scalars : left.isScalar = true ∧ right.isScalar = true
  · rw [similarLeft.eq_of_isScalar scalars.1, similarRight.eq_of_isScalar scalars.2]
    exact operator.agree_apply_self left right
  · have others : ¬(left'.isScalar = true ∧ right'.isScalar = true) := by
      rwa [← similarLeft.isScalar_eq, ← similarRight.isScalar_eq]
    rw [operator.apply_of_composite scalars, operator.apply_of_composite others,
      similarLeft.type_eq, similarRight.type_eq, refusal]
    split
    · exact .error rfl
    · exact .error rfl

/-! ### Agreeing look-ups -/

theorem similar_elementAt {elements elements' : List Value}
    (similar : List.Forall₂ (Value.Similar functions) elements elements') (index : Int) :
    (elementAt elements index).Similar functions (elementAt elements' index) := by
  cases index with
  | negSucc => exact .null
  | ofNat position =>
    show (elements.getD position .null).Similar functions (elements'.getD position .null)
    induction similar generalizing position with
    | nil => exact .null
    | cons first _ inductionHypothesis =>
      cases position with
      | zero => exact first
      | succ position => exact inductionHypothesis position

theorem alike_find? (hashKey : HashKey) {entries entries' : List (Entry Value)}
    (alike : List.Forall₂ (Entry.Alike functions) entries entries') :
    Option.Rel (Entry.Alike functions) (Entry.find? hashKey entries)
      (Entry.find? hashKey entries') := by
  induction alike with
  | nil => exact .none
  | cons first _ inductionHypothesis =>
    cases first with
    | @intro own _ _ _ _ key value =>
      rw [Entry.find?, Entry.find?]
      by_cases same : own = hashKey
      · rw [if_pos same, if_pos same]
        exact .some (.intro key value)
      · rw [if_neg same, if_neg same]
        exact inductionHypothesis

theorem forall₂_alike_insert {new new' : Entry Value} (alikeNew : Entry.Alike functions new new')
    {entries entries' : List (Entry Value)}
    (alike : List.Forall₂ (Entry.Alike functions) entries entries') :
    List.Forall₂ (Entry.Alike functions) (Entry.insert new entries)
      (Entry.insert new' entries') := by
  induction alike with
  | nil => exact .cons alikeNew .nil
  | cons first rest inductionHypothesis =>
    cases alikeNew with
    | @intro wanted _ _ _ _ newKey newValue =>
      cases first with
      | @intro own _ _ _ _ key value =>
        rw [Entry.insert, Entry.insert]
        by_cases same : own = wanted
        · rw [if_pos same, if_pos same]
          exact .cons (.intro newKey newValue) rest
        · rw [if_neg same, if_neg same]
          exact .cons (.intro key value) inductionHypothesis

theorem agree_indexedBy (similarCollection : left.Similar functions left')
    (similarPosition : right.Similar functions right') :
    Agree (Value.Similar functions) (left.indexedBy right) (left'.indexedBy right') := by
  cases similarCollection with
  | array elements =>
    cases similarPosition with
    | integer index => exact .ok (similar_elementAt elements index.toInt)
    | _ => exact .error rfl
  | hash entries =>
    rw [Value.indexedBy, Value.indexedBy, similarPosition.hashKey?_eq]
    cases right'.hashKey? with
    | none =>
      rw [similarPosition.type_eq]
      exact .error rfl
    | some hashKey =>
      have found := alike_find? hashKey entries
      dsimp only
      generalize Entry.find? hashKey _ = entry at found ⊢
      generalize Entry.find? hashKey _ = entry' at found ⊢
      cases found with
      | none => exact .ok .null
      | some alike =>
        cases alike with
        | intro _ value => exact .ok value
  | _ => exact .error rfl

/-! ### Agreeing builtins -/

/-- Answers with similar values that write the same text. -/
structure Reply.Similar (functions : Closure → Closure → Prop) (reply reply' : Reply) : Prop where
  value : reply.value.Similar functions reply'.value
  written : reply.written = reply'.written

namespace Builtin

theorem agree_lengthOf (similar : value.Similar functions value') :
    Agree (Value.Similar functions) (lengthOf value) (lengthOf value') := by
  cases similar with
  | string text => exact .ok (.integer _)
  | array elements =>
    rw [lengthOf, lengthOf, elements.length_eq]
    exact .ok (.integer _)
  | _ => exact .error rfl

theorem agree_elementsOf (builtin : Builtin) (similar : value.Similar functions value') :
    Agree (List.Forall₂ (Value.Similar functions)) (elementsOf builtin value)
      (elementsOf builtin value') := by
  cases similar with
  | array elements => exact .ok elements
  | _ => exact .error rfl

theorem linesOf_eq (texts : ∀ closure closure', functions closure closure' →
    closure.text = closure'.text) {arguments arguments' : List Value}
    (similar : List.Forall₂ (Value.Similar functions) arguments arguments') :
    linesOf arguments = linesOf arguments' := by
  have same : (arguments.map fun argument => argument.text ++ "\n") =
      arguments'.map fun argument => argument.text ++ "\n" := by
    induction similar with
    | nil => rfl
    | cons first _ inductionHypothesis =>
      rw [List.map_cons, List.map_cons, first.text_eq texts, inductionHypothesis]
  rw [linesOf, linesOf, same]

/-- A wrong number of arguments is all that a builtin notices about them. -/
theorem call_of_length_ne {builtin : Builtin} {arity : Nat} {arguments : List Value}
    (takes : builtin.arity? = some arity) (wrong : arguments.length ≠ arity) :
    builtin.call arguments = .error (.builtinArgumentCount arity arguments.length) := by
  unfold call
  split
  · exact absurd (Option.some.inj takes) wrong
  · exact absurd (Option.some.inj takes) wrong
  · exact absurd (Option.some.inj takes) wrong
  · exact absurd (Option.some.inj takes) wrong
  · exact absurd (Option.some.inj takes) wrong
  · exact absurd takes nofun
  · rw [takes]
    rfl

theorem similar_head? {elements elements' : List Value}
    (similar : List.Forall₂ (Value.Similar functions) elements elements') :
    (elements.head?.getD .null).Similar functions (elements'.head?.getD .null) := by
  cases similar with
  | nil => exact .null
  | cons first _ => exact first

theorem similar_getLast? {elements elements' : List Value}
    (similar : List.Forall₂ (Value.Similar functions) elements elements') :
    (elements.getLast?.getD .null).Similar functions (elements'.getLast?.getD .null) := by
  rw [List.getLast?_eq_head?_reverse, List.getLast?_eq_head?_reverse]
  exact similar_head? (List.rel_reverse similar)

theorem similar_restOf {elements elements' : List Value}
    (similar : List.Forall₂ (Value.Similar functions) elements elements') :
    (restOf elements).Similar functions (restOf elements') := by
  cases similar with
  | nil => exact .null
  | cons _ rest => exact .array rest

theorem exists_argument {arguments arguments' : List Value}
    (similar : List.Forall₂ (Value.Similar functions) arguments arguments')
    (one : arguments.length = 1) :
    ∃ argument argument', arguments = [argument] ∧ arguments' = [argument'] ∧
      argument.Similar functions argument' := by
  obtain ⟨argument, rfl⟩ := List.length_eq_one_iff.mp one
  obtain _ | ⟨related, _ | _⟩ := similar
  exact ⟨argument, _, rfl, rfl, related⟩

/-- What a builtin answers to similar arguments is similar, if related functions have the same
text. -/
theorem agree_call (texts : ∀ closure closure', functions closure closure' →
    closure.text = closure'.text) (builtin : Builtin) {arguments arguments' : List Value}
    (similar : List.Forall₂ (Value.Similar functions) arguments arguments') :
    Agree (Reply.Similar functions) (builtin.call arguments) (builtin.call arguments') := by
  cases takes : builtin.arity? with
  | none =>
    cases builtin with
    | puts => exact .ok ⟨.null, linesOf_eq texts similar⟩
    | _ => exact absurd takes nofun
  | some arity =>
    by_cases right : arguments.length = arity
    · cases builtin with
      | len =>
        obtain rfl := Option.some.inj takes
        obtain ⟨argument, argument', rfl, rfl, related⟩ := exists_argument similar right
        exact (agree_lengthOf related).map fun _ _ length => ⟨length, rfl⟩
      | first =>
        obtain rfl := Option.some.inj takes
        obtain ⟨argument, argument', rfl, rfl, related⟩ := exists_argument similar right
        exact (agree_elementsOf first related).map fun _ _ elements =>
          ⟨similar_head? elements, rfl⟩
      | last =>
        obtain rfl := Option.some.inj takes
        obtain ⟨argument, argument', rfl, rfl, related⟩ := exists_argument similar right
        exact (agree_elementsOf last related).map fun _ _ elements =>
          ⟨similar_getLast? elements, rfl⟩
      | rest =>
        obtain rfl := Option.some.inj takes
        obtain ⟨argument, argument', rfl, rfl, related⟩ := exists_argument similar right
        exact (agree_elementsOf rest related).map fun _ _ elements =>
          ⟨similar_restOf elements, rfl⟩
      | push =>
        obtain rfl := Option.some.inj takes
        obtain ⟨array, value, rfl⟩ := List.length_eq_two.mp right
        obtain _ | ⟨relatedArray, _ | ⟨relatedValue, _ | _⟩⟩ := similar
        exact (agree_elementsOf push relatedArray).map fun _ _ elements =>
          ⟨.array (List.rel_append elements (.cons relatedValue .nil)), rfl⟩
      | puts => exact absurd takes nofun
    · have wrong : arguments'.length ≠ arity := similar.length_eq ▸ right
      rw [call_of_length_ne takes right, call_of_length_ne takes wrong, similar.length_eq]
      exact .error rfl

end Builtin

end Results

end MonkeyLang
