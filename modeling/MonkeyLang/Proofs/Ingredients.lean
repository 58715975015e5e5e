/-
This file says what values are made of. A property holds throughout a value if
it holds of the value and of every value inside it. Operators and builtins make
nothing but integers, strings and truth values, and arrays and parts of what
they are given; so whatever holds of all of these throughout holds throughout
what they make.
-/

import MonkeyLang.Builtin.Call
import MonkeyLang.Operators
import MonkeyLang.Proofs.HashLookup

namespace MonkeyLang

/-! ### Values inside values -/

namespace Value

/-- The values directly inside a value. -/
def parts : Value → List Value
  | array elements => elements
  | hash entries => entries.flatMap fun entry => [entry.key, entry.value]
  | _ => []

/-- Whether a value has nothing inside it and refers to nothing. No error is such a value. -/
def isPlain : Value → Bool
  | integer _ => true
  | string _ => true
  | boolean _ => true
  | null => true
  | builtin _ => true
  | _ => false

/-- A property that holds of a value and of every value inside it. -/
inductive Throughout (holds : Value → Prop) : Value → Prop
  | intro {value : Value} : holds value → (∀ part ∈ value.parts, Throughout holds part) →
      Throughout holds value

namespace Throughout

variable {holds others : Value → Prop} {value : Value}

theorem self (throughout : value.Throughout holds) : holds value := by
  cases throughout with
  | intro own _ => exact own

theorem part {inside : Value} (throughout : value.Throughout holds)
    (isPart : inside ∈ value.parts) : inside.Throughout holds := by
  cases throughout with
  | intro _ parts => exact parts inside isPart

theorem mono (more : ∀ value, holds value → others value) (throughout : value.Throughout holds) :
    value.Throughout others := by
  induction throughout with
  | intro own _ inductionHypothesis => exact .intro (more _ own) inductionHypothesis

/-- Nothing is inside a value without parts. -/
theorem ofParts (own : holds value) (none : value.parts = []) : value.Throughout holds := by
  refine .intro own fun inside isPart => ?_
  rw [none] at isPart
  exact absurd isPart List.not_mem_nil

end Throughout

theorem parts_of_isPlain {value : Value} (plain : value.isPlain = true) : value.parts = [] := by
  cases value with
  | integer | string | boolean | null | builtin => rfl
  | _ => exact absurd plain Bool.false_ne_true

theorem mem_parts_hash {inside : Value} {entries : List (Entry Value)} :
    inside ∈ (hash entries).parts ↔
      ∃ entry ∈ entries, inside = entry.key ∨ inside = entry.value := by
  simp [parts]

end Value

/-! ### Values made of others -/

/-- Values that can be made of given ones without making a function or a hash. -/
inductive Value.MadeOf (given : List Value) : Value → Prop
  | plain {value : Value} : value.isPlain = true → MadeOf given value
  | given {value : Value} : value ∈ given → MadeOf given value
  | part {value inside : Value} : value ∈ given → inside ∈ value.parts → MadeOf given inside
  | array {elements : List Value} : (∀ element ∈ elements, MadeOf given element) →
      MadeOf given (.array elements)

/-- What holds throughout the given values holds throughout what is made of them, if it holds of
plain values and of arrays. -/
theorem Value.MadeOf.throughout {holds : Value → Prop} {given : List Value} {value : Value}
    (made : MadeOf given value) (plain : ∀ value : Value, value.isPlain = true → holds value)
    (array : ∀ elements, holds (.array elements))
    (all : ∀ value ∈ given, value.Throughout holds) : value.Throughout holds := by
  induction made with
  | plain isPlain => exact .ofParts (plain _ isPlain) (parts_of_isPlain isPlain)
  | given isGiven => exact all _ isGiven
  | part isGiven isPart => exact (all _ isGiven).part isPart
  | array _ inductionHypothesis => exact .intro (array _) inductionHypothesis

section Operators

variable {left right value result : Value}

theorem UnaryOperator.madeOf_apply {operator : UnaryOperator}
    (yields : operator.apply value = .ok result) : Value.MadeOf [value] result := by
  cases operator with
  | not =>
    obtain rfl := Except.ok.inj yields
    exact .plain rfl
  | negate =>
    cases value with
    | integer =>
      obtain rfl := Except.ok.inj yields
      exact .plain rfl
    | _ => exact absurd yields nofun

theorem BinaryOperator.isPlain_applyIntegers {operator : BinaryOperator} {left right : Int64}
    (yields : operator.applyIntegers left right = .ok result) : result.isPlain = true := by
  cases operator with
  | divide =>
    rw [applyIntegers] at yields
    split at yields
    · exact absurd yields nofun
    · obtain rfl := Except.ok.inj yields
      rfl
  | _ =>
    obtain rfl := Except.ok.inj yields
    rfl

theorem BinaryOperator.madeOf_apply {operator : BinaryOperator}
    (yields : operator.apply left right = .ok result) : Value.MadeOf [left, right] result := by
  refine .plain ?_
  unfold apply at yields
  split at yields
  · exact isPlain_applyIntegers yields
  · obtain rfl := Except.ok.inj yields
    rfl
  · obtain rfl := Except.ok.inj yields
    rfl
  · obtain rfl := Except.ok.inj yields
    rfl
  · obtain rfl := Except.ok.inj yields
    rfl
  · obtain rfl := Except.ok.inj yields
    rfl
  · split at yields <;> exact absurd yields nofun

/-- What is made of some values is made of more. -/
theorem Value.MadeOf.mono {given others : List Value} (made : MadeOf given value)
    (more : given ⊆ others) : MadeOf others value := by
  induction made with
  | plain isPlain => exact .plain isPlain
  | given isGiven => exact .given (more isGiven)
  | part isGiven isPart => exact .part (more isGiven) isPart
  | array _ inductionHypothesis => exact .array inductionHypothesis

/-- An element that need not be there is a part of the array, or `null`. -/
theorem madeOf_getD {elements : List Value} {found : Option Value}
    (member : ∀ element ∈ found, element ∈ elements) :
    Value.MadeOf [.array elements] (found.getD .null) := by
  cases found with
  | none => exact .plain rfl
  | some element => exact .part List.mem_cons_self (member element rfl)

theorem madeOf_elementAt (elements : List Value) (index : Int) :
    Value.MadeOf [.array elements] (elementAt elements index) := by
  cases index with
  | negSucc => exact .plain rfl
  | ofNat position =>
    show Value.MadeOf _ (elements.getD position .null)
    rw [List.getD_eq_getElem?_getD]
    exact madeOf_getD fun element => List.mem_of_getElem?

theorem Value.madeOf_indexedBy (yields : left.indexedBy right = .ok result) :
    MadeOf [left, right] result := by
  unfold indexedBy at yields
  split at yields
  · next elements index =>
    obtain rfl := Except.ok.inj yields
    exact (madeOf_elementAt elements index.toInt).mono (by simp)
  · next entries =>
    split at yields
    · exact absurd yields nofun
    · split at yields
      · obtain rfl := Except.ok.inj yields
        exact .plain rfl
      · next entry found =>
        obtain rfl := Except.ok.inj yields
        obtain ⟨member, -⟩ := Entry.mem_of_find? found
        exact .part List.mem_cons_self (mem_parts_hash.mpr ⟨entry, member, .inr rfl⟩)
  · exact absurd yields nofun

end Operators

/-! ### Builtins -/

namespace Builtin

variable {arguments elements : List Value} {argument : Value} {reply : Reply}

theorem elementsOf_eq_ok {builtin : Builtin} :
    elementsOf builtin argument = .ok elements ↔ argument = .array elements := by
  cases argument <;> simp [elementsOf]

theorem madeOf_lengthOf {result : Value} (yields : lengthOf argument = .ok result) :
    Value.MadeOf [argument] result := by
  cases argument with
  | string | array =>
    obtain rfl := Except.ok.inj yields
    exact .plain rfl
  | _ => exact absurd yields nofun

theorem madeOf_restOf (elements : List Value) :
    Value.MadeOf [.array elements] (restOf elements) := by
  cases elements with
  | nil => exact .plain rfl
  | cons first tail =>
    exact .array fun element member => .part List.mem_cons_self (List.mem_cons_of_mem _ member)

theorem exists_of_map_eq_ok {α β : Type} {further : α → β} {result : Except Failure α} {last : β}
    (yields : further <$> result = .ok last) :
    ∃ first, result = .ok first ∧ further first = last := by
  cases result with
  | error => exact absurd yields nofun
  | ok first => exact ⟨first, rfl, Except.ok.inj yields⟩

/-- A builtin answers with something made of its arguments. -/
theorem madeOf_call {builtin : Builtin} (answers : builtin.call arguments = .ok reply) :
    Value.MadeOf arguments reply.value := by
  unfold call at answers
  split at answers
  · obtain ⟨_, yields, rfl⟩ := exists_of_map_eq_ok answers
    exact madeOf_lengthOf yields
  · obtain ⟨elements, yields, rfl⟩ := exists_of_map_eq_ok answers
    obtain rfl := elementsOf_eq_ok.mp yields
    exact madeOf_getD fun element => List.mem_of_mem_head?
  · obtain ⟨elements, yields, rfl⟩ := exists_of_map_eq_ok answers
    obtain rfl := elementsOf_eq_ok.mp yields
    exact madeOf_getD fun element => List.mem_of_getLast?
  · obtain ⟨elements, yields, rfl⟩ := exists_of_map_eq_ok answers
    obtain rfl := elementsOf_eq_ok.mp yields
    exact madeOf_restOf elements
  · next argument value =>
    obtain ⟨elements, yields, rfl⟩ := exists_of_map_eq_ok answers
    obtain rfl := elementsOf_eq_ok.mp yields
    refine .array fun element member => ?_
    rcases List.mem_append.mp member with old | new
    · exact .part List.mem_cons_self old
    · obtain rfl := List.mem_singleton.mp new
      exact .given (by simp)
  · obtain rfl := Except.ok.inj answers
    exact .plain rfl
  · exact absurd answers nofun

end Builtin

end MonkeyLang
