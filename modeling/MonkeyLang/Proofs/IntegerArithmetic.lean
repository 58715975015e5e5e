/-
This file proves that arithmetic on integers is arithmetic modulo `2^64`. What a
tree of literals and operations computes is said without machine words: each
operation is carried out on whole numbers, and its result is brought back into
the range of the integers. As long as nothing is divided, this may as well be
done once at the end, since sums, differences and products respect congruence.
A quotient does not, so what it is taken of are the computed values.

The only way to fail is a division whose divisor has been computed to be zero.
Operands come before their operation and left ones before right ones, so the
divisions of a tree have an order, and the first such division in it is the one
that the failure tells of.
-/

import Mathlib.Data.Int.ModEq
import MonkeyLang.Proofs.Evaluation.Rules

namespace MonkeyLang

/-! ### Trees -/

/-- The operations that whole numbers are closed under. -/
inductive RingOperator
  | add
  | subtract
  | multiply

namespace RingOperator

def operator : RingOperator → BinaryOperator
  | add => .add
  | subtract => .subtract
  | multiply => .multiply

/-- What an operation makes of whole numbers. -/
def exact : RingOperator → Int → Int → Int
  | add, left, right => left + right
  | subtract, left, right => left - right
  | multiply, left, right => left * right

end RingOperator

/-- A tree of integer literals, signs and the operations of arithmetic. -/
inductive Arithmetic
  | literal (value : Int64)
  | negated (operand : Arithmetic)
  | combined (left : Arithmetic) (operator : RingOperator) (right : Arithmetic)
  | quotient (dividend divisor : Arithmetic)

namespace Arithmetic

/-- The expression that a tree stands for. -/
def expression : Arithmetic → Expression
  | literal value => .integer value
  | negated operand => .unary .negate operand.expression
  | combined left operator right =>
    .binary left.expression operator.operator right.expression
  | quotient dividend divisor => .binary dividend.expression .divide divisor.expression

/-- The divisions in a tree, each as its dividend and its divisor: those in the operands come before
the operation, and those on the left before those on the right. -/
def divisions : Arithmetic → List (Arithmetic × Arithmetic)
  | literal _ => []
  | negated operand => operand.divisions
  | combined left _ right => left.divisions ++ right.divisions
  | quotient dividend divisor =>
    dividend.divisions ++ (divisor.divisions ++ [(dividend, divisor)])

/-- The value of a tree in whole numbers, unless it divides. -/
def value? : Arithmetic → Option Int
  | literal value => some value.toInt
  | negated operand => operand.value?.map fun value => -value
  | combined left operator right =>
    left.value?.bind fun value => right.value?.map (operator.exact value)
  | quotient _ _ => none

/-- The integer of the language that is congruent to a whole number modulo `2^64`. -/
def wrapped (number : Int) : Int :=
  number.bmod (2 ^ 64)

/-- What a tree computes, where every operation is brought back into the range of integers. A
quotient is truncated toward zero. -/
inductive Computes : Arithmetic → Int → Prop
  | literal (value : Int64) : Computes (.literal value) value.toInt
  | negated {operand : Arithmetic} {value : Int} : Computes operand value →
      Computes (.negated operand) (wrapped (-value))
  | combined {left right : Arithmetic} {operator : RingOperator} {value value' : Int} :
      Computes left value → Computes right value' →
      Computes (.combined left operator right) (wrapped (operator.exact value value'))
  | quotient {dividend divisor : Arithmetic} {value value' : Int} : Computes dividend value →
      Computes divisor value' → value' ≠ 0 →
      Computes (.quotient dividend divisor) (wrapped (value.tdiv value'))

/-- The divisor of a division is computed, and not zero. -/
def Sensible (division : Arithmetic × Arithmetic) : Prop :=
  ∃ value ≠ 0, division.2.Computes value

/-- Of divisions, the first that is not sensible divides a value by zero. -/
def FirstByZero (divisions : List (Arithmetic × Arithmetic)) (value : Int) : Prop :=
  ∃ before dividend divisor behind, divisions = before ++ (dividend, divisor) :: behind ∧
    (∀ division ∈ before, Sensible division) ∧ dividend.Computes value ∧ divisor.Computes 0

/-! ### What is computed -/

theorem Computes.unique {tree : Arithmetic} {value other : Int} (computes : tree.Computes value)
    (isOther : tree.Computes other) : other = value := by
  induction computes generalizing other with
  | literal => cases isOther; rfl
  | negated _ inductionHypothesis =>
    cases isOther with
    | negated operand => rw [inductionHypothesis operand]
  | combined _ _ leftHypothesis rightHypothesis =>
    cases isOther with
    | combined left right => rw [leftHypothesis left, rightHypothesis right]
  | quotient _ _ _ dividendHypothesis divisorHypothesis =>
    cases isOther with
    | quotient dividend divisor => rw [dividendHypothesis dividend, divisorHypothesis divisor]

/-- A tree that computes something has only sensible divisions. -/
theorem Computes.sensible {tree : Arithmetic} {value : Int} (computes : tree.Computes value) :
    ∀ division ∈ tree.divisions, Sensible division := by
  induction computes with
  | literal => exact nofun
  | negated _ inductionHypothesis => exact inductionHypothesis
  | combined _ _ leftHypothesis rightHypothesis =>
    exact List.forall_mem_append.mpr ⟨leftHypothesis, rightHypothesis⟩
  | @quotient _ _ _ value' _ divisor nonzero dividendHypothesis divisorHypothesis =>
    refine List.forall_mem_append.mpr ⟨dividendHypothesis,
      List.forall_mem_append.mpr ⟨divisorHypothesis, List.forall_mem_singleton.mpr ?_⟩⟩
    exact ⟨value', nonzero, divisor⟩

/-- Without divisions a tree has a value in whole numbers, and computes what is congruent to it. -/
theorem Computes.modEq_exact {tree : Arithmetic} {value : Int} (computes : tree.Computes value)
    (none : tree.divisions = []) :
    ∃ number, tree.value? = some number ∧ value ≡ number [ZMOD 2 ^ 64] := by
  have congruent (number : Int) : wrapped number ≡ number [ZMOD 2 ^ 64] := Int.bmod_emod
  induction computes with
  | literal value => exact ⟨value.toInt, rfl, rfl⟩
  | negated _ inductionHypothesis =>
    obtain ⟨number, exact, same⟩ := inductionHypothesis none
    exact ⟨-number, by rw [value?, exact, Option.map_some], (congruent _).trans same.neg⟩
  | @combined _ _ operator _ _ _ _ leftHypothesis rightHypothesis =>
    obtain ⟨noneLeft, noneRight⟩ := List.append_eq_nil_iff.mp none
    obtain ⟨number, exact, same⟩ := leftHypothesis noneLeft
    obtain ⟨number', exact', same'⟩ := rightHypothesis noneRight
    refine ⟨operator.exact number number', ?_, (congruent _).trans ?_⟩
    · rw [value?, exact, exact', Option.bind_some, Option.map_some]
    · cases operator with
      | add => exact same.add same'
      | subtract => exact same.sub same'
      | multiply => exact same.mul same'
  | quotient => exact absurd none (by simp [divisions])

/-! ### The first division by zero -/

namespace FirstByZero

variable {divisions others : List (Arithmetic × Arithmetic)} {value other : Int}

theorem append (first : FirstByZero divisions value) : FirstByZero (divisions ++ others) value := by
  obtain ⟨before, dividend, divisor, behind, rfl, sensible, computes⟩ := first
  exact ⟨before, dividend, divisor, behind ++ others, by simp, sensible, computes⟩

theorem behind (sensible : ∀ division ∈ others, Sensible division)
    (first : FirstByZero divisions value) : FirstByZero (others ++ divisions) value := by
  obtain ⟨before, dividend, divisor, behind, rfl, sensible', computes⟩ := first
  exact ⟨others ++ before, dividend, divisor, behind, by simp,
    List.forall_mem_append.mpr ⟨sensible, sensible'⟩, computes⟩

theorem not_sensible (first : FirstByZero divisions value) :
    ¬∀ division ∈ divisions, Sensible division := by
  obtain ⟨before, dividend, divisor, behind, rfl, -, -, zero⟩ := first
  intro sensible
  obtain ⟨value', nonzero, computes⟩ := sensible (dividend, divisor) (by simp)
  exact nonzero (zero.unique computes)

theorem unique (first : FirstByZero divisions value) (isOther : FirstByZero divisions other) :
    other = value := by
  classical
  have found {number : Int} (first : FirstByZero divisions number) :
      ∃ division, divisions.find? (fun division => ¬Sensible division) = some division ∧
        division.1.Computes number := by
    obtain ⟨before, dividend, divisor, behind, same, sensible, computes, zero⟩ := first
    refine ⟨(dividend, divisor), List.find?_eq_some_iff_append.mpr ⟨?_, before, behind, same, ?_⟩,
      computes⟩
    · refine decide_eq_true fun ⟨value', nonzero, computes⟩ => ?_
      exact nonzero (zero.unique computes)
    · simpa using sensible
  obtain ⟨division, isFirst, computes⟩ := found first
  obtain ⟨division', isFirst', computes'⟩ := found isOther
  obtain rfl := Option.some.inj (isFirst.symm.trans isFirst')
  exact computes.unique computes'

end FirstByZero

/-! ### Evaluation -/

/-- How the evaluation of a tree ends: with what the tree computes, or with the first division by
zero. -/
inductive EndsWith (tree : Arithmetic) : Except Signal Value → Prop
  | value {value : Int64} : tree.Computes value.toInt → EndsWith tree (.ok (.integer value))
  | failure {dividend : Int64} : FirstByZero tree.divisions dividend.toInt →
      EndsWith tree (.error (.failure (.divisionByZero dividend)))

namespace EndsWith

variable {tree : Arithmetic} {outcome : Except Signal Value} (ends : tree.EndsWith outcome)

include ends

theorem ok_iff (result : Value) : outcome = .ok result ↔
    ∃ value : Int64, result = .integer value ∧ tree.Computes value.toInt := by
  cases ends with
  | @value value computes =>
    constructor
    · rintro ⟨⟩
      exact ⟨value, rfl, computes⟩
    · rintro ⟨other, rfl, isOther⟩
      rw [Int64.toInt_inj.mp (computes.unique isOther)]
  | failure first =>
    exact ⟨nofun, fun ⟨_, _, computes⟩ => absurd computes.sensible first.not_sensible⟩

theorem error_iff (signal : Signal) : outcome = .error signal ↔ ∃ dividend : Int64,
    signal = .failure (.divisionByZero dividend) ∧
      FirstByZero tree.divisions dividend.toInt := by
  cases ends with
  | value computes =>
    exact ⟨nofun, fun ⟨_, _, first⟩ => absurd computes.sensible first.not_sensible⟩
  | @failure dividend first =>
    constructor
    · rintro ⟨⟩
      exact ⟨dividend, rfl, first⟩
    · rintro ⟨other, rfl, isOther⟩
      rw [Int64.toInt_inj.mp (first.unique isOther)]

/-- Nothing but a division fails. -/
theorem exists_exact (none : tree.divisions = []) : ∃ number, tree.value? = some number ∧
    ∃ value : Int64, outcome = .ok (.integer value) ∧ value.toInt ≡ number [ZMOD 2 ^ 64] := by
  cases ends with
  | @value value computes =>
    obtain ⟨number, exact, same⟩ := computes.modEq_exact none
    exact ⟨number, exact, value, rfl, same⟩
  | failure first =>
    have sensible : ∀ division ∈ tree.divisions, Sensible division := none ▸ nofun
    exact absurd sensible first.not_sensible

end EndsWith

theorem endsWith_negated {operand : Arithmetic} {value : Int64}
    (computes : operand.Computes value.toInt) :
    EndsWith (.negated operand) (Signal.ofResult (UnaryOperator.negate.apply (.integer value))) :=
  .value (Int64.toInt_neg value ▸ computes.negated)

section Operands

variable {left right : Arithmetic} {value value' : Int64} (computes : left.Computes value.toInt)
  (computes' : right.Computes value'.toInt)

include computes computes'

theorem endsWith_combined (operator : RingOperator) : EndsWith (.combined left operator right)
    (Signal.ofResult (operator.operator.apply (.integer value) (.integer value'))) := by
  have both : Computes (.combined left operator right) _ := computes.combined computes'
  cases operator with
  | add => exact .value (Int64.toInt_add value value' ▸ both)
  | subtract => exact .value (Int64.toInt_sub value value' ▸ both)
  | multiply => exact .value (Int64.toInt_mul value value' ▸ both)

theorem endsWith_quotient : EndsWith (.quotient left right)
    (Signal.ofResult (BinaryOperator.divide.apply (.integer value) (.integer value'))) := by
  show EndsWith _ (Signal.ofResult (if value' = 0 then _ else _))
  by_cases zero : value' = 0
  · rw [if_pos zero]
    subst zero
    have sensible := List.forall_mem_append.mpr ⟨computes.sensible, computes'.sensible⟩
    refine .failure ⟨left.divisions ++ right.divisions, left, right, [], ?_, sensible, computes,
      computes'⟩
    rw [divisions, List.append_assoc]
  · rw [if_neg zero]
    have nonzero : value'.toInt ≠ 0 := fun same => zero (Int64.toInt_inj.mp same)
    exact .value (Int64.toInt_div value value' ▸ computes.quotient computes' nonzero)

end Operands

section Evaluation

variable (apply : Application) (frame : Nat) (machine : Machine)

/-- A tree is evaluated to what it computes, or up to the first division by zero, and nothing else
happens. -/
def Evaluates (tree : Arithmetic) : Prop :=
  ∃ outcome, tree.EndsWith outcome ∧
    (tree.expression.evaluate apply frame).on machine = (outcome, machine)

variable {apply frame machine}

/-- An operation ends as its left operand does if that fails, or else as its right operand does if
that fails, or else with the result of the operator. -/
theorem Evaluates.binary {tree left right : Arithmetic} {operator : BinaryOperator}
    {more : List (Arithmetic × Arithmetic)}
    (same : tree.expression = .binary left.expression operator right.expression)
    (divisions : tree.divisions = left.divisions ++ (right.divisions ++ more))
    (applied : ∀ {value value' : Int64}, left.Computes value.toInt → right.Computes value'.toInt →
      EndsWith tree (Signal.ofResult (operator.apply (.integer value) (.integer value'))))
    (leftEvaluates : Evaluates apply frame machine left)
    (rightEvaluates : Evaluates apply frame machine right) :
    Evaluates apply frame machine tree := by
  obtain ⟨_, leftEnds, leftRun⟩ := leftEvaluates
  obtain ⟨_, rightEnds, rightRun⟩ := rightEvaluates
  rw [Evaluates, same]
  cases leftEnds with
  | failure first => exact ⟨_, .failure (divisions ▸ first.append), on_bind_error leftRun⟩
  | value computes =>
    cases rightEnds with
    | failure first =>
      exact ⟨_, .failure (divisions ▸ first.append.behind computes.sensible),
        (on_bind_ok leftRun).trans (on_bind_error rightRun)⟩
    | value computes' =>
      exact ⟨_, applied computes computes',
        (on_bind_ok leftRun).trans ((on_bind_ok rightRun).trans (ofExcept_on _ _))⟩

theorem evaluates (tree : Arithmetic) : Evaluates apply frame machine tree := by
  induction tree with
  | literal value => exact ⟨_, .value (.literal value), rfl⟩
  | negated operand inductionHypothesis =>
    obtain ⟨_, ends, run⟩ := inductionHypothesis
    cases ends with
    | failure first => exact ⟨_, .failure first, on_bind_error run⟩
    | value computes =>
      exact ⟨_, endsWith_negated computes, (on_bind_ok run).trans (ofExcept_on _ _)⟩
  | combined left operator right leftHypothesis rightHypothesis =>
    have divisions : (combined left operator right).divisions =
        left.divisions ++ (right.divisions ++ []) := by
      rw [List.append_nil]
      rfl
    exact .binary rfl divisions (endsWith_combined · · operator) leftHypothesis rightHypothesis
  | quotient dividend divisor dividendHypothesis divisorHypothesis =>
    exact .binary rfl rfl endsWith_quotient dividendHypothesis divisorHypothesis

/-- Trees of integer literals, signs, sums, differences, products and quotients are evaluated as
follows, whatever the state, which is kept. Without a division, the result is congruent modulo
`2^64` to the value of the tree in whole numbers. With divisions, it is what the tree computes: a
quotient is taken of computed values, truncated toward zero and brought back into range. Evaluation
fails exactly if a division by zero is reached, and then for the first in order. -/
theorem integers_compute_modulo (tree : Arithmetic) (apply : Application) (frame : Nat)
    (machine : Machine) :
    let run := (tree.expression.evaluate apply frame).on machine
    run.2 = machine ∧
      (tree.divisions = [] → ∃ number, tree.value? = some number ∧ ∃ value : Int64,
        run.1 = .ok (.integer value) ∧ value.toInt ≡ number [ZMOD 2 ^ 64]) ∧
      (∀ result, run.1 = .ok result ↔
        ∃ value : Int64, result = .integer value ∧ tree.Computes value.toInt) ∧
      ∀ signal, run.1 = .error signal ↔ ∃ dividend : Int64,
        signal = .failure (.divisionByZero dividend) ∧
          FirstByZero tree.divisions dividend.toInt := by
  intro run
  obtain ⟨outcome, ends, same⟩ : Evaluates apply frame machine tree := evaluates tree
  rw [show run = _ from same]
  exact ⟨rfl, ends.exists_exact, ends.ok_iff, ends.error_iff⟩

/-- The smallest integer, which has no literal. -/
def smallest : Arithmetic :=
  .combined (.negated (.literal 9223372036854775807)) .subtract (.literal 1)

theorem integers_compute_modulo_smallest :
    let run (tree : Arithmetic) :=
      (tree.expression.evaluate (applyAtDepth 0) Machine.rootFrame).on Machine.initial
    smallest.divisions = [] ∧ smallest.value? = some (-9223372036854775808) ∧
      (∃ value : Int64, (run (.negated smallest)).1 = .ok (.integer value) ∧
        value.toInt ≡ 9223372036854775808 [ZMOD 2 ^ 64]) ∧
      (run (.quotient smallest (.negated (.literal 1)))).1 = .ok (.integer Int64.minValue) ∧
      (run (.combined (.quotient (.literal 7) (.literal 0)) .add
        (.quotient smallest (.literal 0)))).1 = .error (.failure (.divisionByZero 7)) := by
  intro run
  have runs (tree : Arithmetic) :=
    integers_compute_modulo tree (applyAtDepth 0) Machine.rootFrame Machine.initial
  have computes : smallest.Computes (-9223372036854775808) :=
    .combined (.negated (.literal 9223372036854775807)) (.literal 1)
  obtain ⟨-, exact, -, -⟩ := runs (.negated smallest)
  obtain ⟨-, -, value, -⟩ := runs (.quotient smallest (.negated (.literal 1)))
  obtain ⟨-, -, -, failure⟩ := runs (.combined (.quotient (.literal 7) (.literal 0)) .add
    (.quotient smallest (.literal 0)))
  obtain ⟨number, isNumber, negated⟩ := exact rfl
  obtain rfl : 9223372036854775808 = number := Option.some.inj isNumber
  refine ⟨rfl, rfl, negated, (value _).mpr ⟨_, rfl, ?_⟩, (failure _).mpr ⟨_, rfl, ?_⟩⟩
  · exact .quotient computes (.negated (.literal 1)) (by decide)
  · exact ⟨[], _, _, _, rfl, nofun, .literal 7, .literal 0⟩

end Evaluation

end Arithmetic

end MonkeyLang
