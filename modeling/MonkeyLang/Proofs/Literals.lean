/-
This file writes values as expressions. Integers but the least one, truth values,
and arrays and hashes of such have a literal: an expression of brackets, signs,
digits and truth values, which evaluates to the value in every state and changes
nothing. A hash comes out with its entries in the same order, since no two have
the same key.

The least integer has none. Its digits are those of a number too great for an
integer, and a minus sign in front of digits is an operator.
-/

import MonkeyLang.Proofs.Evaluation.Rules
import MonkeyLang.Proofs.HashLookup
import MonkeyLang.Value.Equality

namespace MonkeyLang

open Machine

/-! ### Entries with distinct keys -/

namespace Entry

variable {α : Type}

/-- What is inserted with a new hash key comes last. -/
theorem insert_of_new {new : Entry α} {entries : List (Entry α)}
    (isNew : ∀ entry ∈ entries, entry.hashKey ≠ new.hashKey) :
    insert new entries = entries ++ [new] := by
  induction entries with
  | nil => rfl
  | cons first rest inductionHypothesis =>
    obtain ⟨other, others⟩ := List.forall_mem_cons.mp isNew
    rw [insert, if_neg other, inductionHypothesis others, List.cons_append]

end Entry

/-! ### Literals -/

mutual

/-- A value that is built of integers but the least one, truth values, arrays, and hashes of which
no two keys are the same and all are integers or truth values. -/
def Value.Readable : Value → Prop
  | .integer value => value ≠ Int64.minValue
  | .boolean _ => True
  | .array elements => ReadableValues elements
  | .hash entries =>
    (entries.Pairwise fun one other => one.key ≠ other.key) ∧ ReadableEntries entries
  | _ => False
termination_by structural value => value

/-- Values that are all built so. -/
def ReadableValues : List Value → Prop
  | [] => True
  | value :: rest => value.Readable ∧ ReadableValues rest
termination_by structural values => values

/-- Entries whose keys and values are all built so, each with the hash key of its key. -/
def ReadableEntries : List (Entry Value) → Prop
  | [] => True
  | ⟨hashKey, key, value⟩ :: rest =>
    (key.Readable ∧ key.hashKey? = some hashKey) ∧ value.Readable ∧ ReadableEntries rest
termination_by structural entries => entries

end

mutual

/-- The expression that a value is written as. It stands for the value if that is readable. -/
def Value.literal : Value → Expression
  | .integer value =>
    if value < 0 then .unary .negate (.integer (-value)) else .integer value
  | .boolean value => .boolean value
  | .array elements => .array (literalsOfValues elements)
  | .hash entries => .hash (literalsOfEntries entries)
  | _ => default
termination_by structural value => value

/-- The expressions that values are written as. -/
def literalsOfValues : List Value → List Expression
  | [] => []
  | value :: rest => value.literal :: literalsOfValues rest
termination_by structural values => values

/-- The pairs of expressions that entries are written as. -/
def literalsOfEntries : List (Entry Value) → List (Expression × Expression)
  | [] => []
  | ⟨_, key, value⟩ :: rest => (key.literal, value.literal) :: literalsOfEntries rest
termination_by structural entries => entries

end

theorem ReadableEntries.key {entries : List (Entry Value)} (readable : ReadableEntries entries)
    {entry : Entry Value} (member : entry ∈ entries) :
    entry.key.Readable ∧ entry.key.hashKey? = some entry.hashKey := by
  induction entries with
  | nil => exact absurd member List.not_mem_nil
  | cons first rest inductionHypothesis =>
    obtain ⟨first, -, others⟩ := readable
    rcases List.mem_cons.mp member with rfl | member
    · exact first
    · exact inductionHypothesis others member

/-- Keys that are readable and not the same are told apart by their hash keys. -/
theorem ReadableEntries.distinct {entries : List (Entry Value)} (readable : ReadableEntries entries)
    (distinct : entries.Pairwise fun one other => one.key ≠ other.key) :
    Entry.Distinct entries := by
  refine distinct.imp_of_mem fun {one other} isOne isOther differ same => ?_
  obtain ⟨readableKey, own⟩ := readable.key isOne
  obtain ⟨-, others⟩ := readable.key isOther
  rw [← same] at others
  rcases (Value.sameKey_iff_eq _ _).mp ((Value.sameKey_iff own).mpr others) with
    ⟨equal, -⟩ | ⟨text, _, isString, _, _⟩
  · exact differ equal
  · rw [isString] at readableKey
    exact readableKey

/-! ### Values are equal to themselves -/

mutual

theorem Value.same_self : ∀ {value : Value}, value.Readable → value.same value = true
  | .integer value, _ => beq_self_eq_true value
  | .boolean value, _ => beq_self_eq_true value
  | .array _, readable => sameElements_self readable
  | .hash _, ⟨distinct, readable⟩ => by
    rw [Value.same, beq_self_eq_true, Bool.true_and]
    exact sameEntries_self readable fun _ member => (readable.distinct distinct).find?_of_mem member
termination_by structural value => value

theorem sameElements_self : ∀ {values : List Value}, ReadableValues values →
    sameElements values values = true
  | [], _ => rfl
  | _ :: _, ⟨first, rest⟩ =>
    Bool.and_eq_true_iff.mpr ⟨Value.same_self first, sameElements_self rest⟩
termination_by structural values => values

theorem sameEntries_self : ∀ {entries others : List (Entry Value)}, ReadableEntries entries →
    (∀ entry ∈ entries, Entry.find? entry.hashKey others = some entry) →
    sameEntries entries others = true
  | [], _, _, _ => rfl
  | ⟨hashKey, key, value⟩ :: rest, others, ⟨⟨readableKey, _⟩, readableValue, readable⟩, found => by
    obtain ⟨first, foundRest⟩ := List.forall_mem_cons.mp found
    rw [sameEntries, first]
    dsimp only
    rw [Value.same_self readableKey, Value.same_self readableValue,
      sameEntries_self readable foundRest]
    rfl
termination_by structural entries => entries

end

/-! ### Literals evaluate to what they stand for -/

section Evaluation

variable {apply : Application} {frame : Nat} {machine : Machine}

theorem evaluate_literal_integer (value : Int64) :
    ((Value.integer value).literal.evaluate apply frame).on machine =
      (.ok (.integer value), machine) := by
  rw [Value.literal]
  split
  · have negated : UnaryOperator.negate.apply (.integer (-value)) = .ok (.integer value) :=
      congrArg (Except.ok ∘ Value.integer) Int64.neg_neg
    refine (on_bind_ok rfl).trans ?_
    rw [ofExcept_on, negated]
    rfl
  · rfl

mutual

theorem evaluate_literal : ∀ {value : Value}, value.Readable →
    (value.literal.evaluate apply frame).on machine = (.ok value, machine)
  | .integer value, _ => evaluate_literal_integer value
  | .boolean _, _ => rfl
  | .array _, readable => (on_bind_ok (evaluateAll_literals readable)).trans rfl
  | .hash _, ⟨distinct, readable⟩ => evaluatePairs_literals readable (readable.distinct distinct)
termination_by structural value => value

theorem evaluateAll_literals : ∀ {values : List Value}, ReadableValues values →
    (evaluateAll apply frame (literalsOfValues values)).on machine = (.ok values, machine)
  | [], _ => rfl
  | _ :: _, ⟨first, rest⟩ =>
    (on_bind_ok (evaluate_literal first)).trans ((on_bind_ok (evaluateAll_literals rest)).trans rfl)
termination_by structural values => values

/-- Entries are appended to those made so far, as long as all are told apart. -/
theorem evaluatePairs_literals : ∀ {entries before : List (Entry Value)},
    ReadableEntries entries → Entry.Distinct (before ++ entries) →
    (evaluatePairs apply frame (literalsOfEntries entries) before).on machine =
      (.ok (.hash (before ++ entries)), machine)
  | [], before, _, _ => by
    rw [List.append_nil]
    rfl
  | ⟨hashKey, key, value⟩ :: rest, before, ⟨⟨readableKey, usable⟩, readableValue, readable⟩,
      distinct => by
    have isNew : ∀ entry ∈ before, entry.hashKey ≠ hashKey := fun entry member =>
      (List.pairwise_append.mp distinct).2.2 entry member _ List.mem_cons_self
    rw [List.append_cons] at distinct ⊢
    refine (on_bind_ok (evaluate_literal readableKey)).trans ?_
    refine (on_bind_ok (requireHashKey_on_of_some usable)).trans ?_
    refine (on_bind_ok (evaluate_literal readableValue)).trans ?_
    rw [Entry.insert_of_new isNew]
    exact evaluatePairs_literals readable distinct
termination_by structural entries => entries

end

end Evaluation

end MonkeyLang
