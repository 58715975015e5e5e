/-
This file takes the bounds off the parser. The parser proper is bounded, so that
it ends for a reason that has nothing to do with the grammar; what is shown here
is that the bounds decide nothing. The equation by which an expression is read
has a solution when no bound is put on the nesting, it has only one, and the
bounded parser is that solution in front of fewer tokens than its bound. And a
loop with more rounds than there are tokens ahead never uses them up: it ends
where its own condition tells it to.

All of it comes down to one fact, that every expression and every statement
leaves a token behind, whether it can be read or not.
-/

import MonkeyLang.Proofs.Parser.Lockstep

namespace MonkeyLang

open MonkeyLang.Parser

/-! ### Equal cursors -/

/-- A parser runs beside itself. -/
theorem lockstep_eq : Lockstep (· = ·) := by
  have lockstep : Lockstep fun cursor cursor' => cursor = cursor' ∧ True :=
    .alone (fun _ => trivial) (fun _ _ => trivial) fun _ _ => trivial
  simpa only [and_true] using lockstep

/-- Outcomes that are alike in front of equal cursors are equal. -/
theorem Alike.eq {α : Type} {taken : Nat} {cursor cursor' : Cursor}
    {outcome outcome' : Except Diagnostic α × Cursor}
    (alike : Alike (· = ·) taken cursor cursor' outcome outcome') : outcome = outcome' := by
  cases alike with
  | ok same => rw [same]
  | @error diagnostic diagnostic' last last' same =>
    obtain ⟨rest, lastLine, diagnostics⟩ := last
    obtain ⟨rest', lastLine', diagnostics'⟩ := last'
    obtain ⟨rfl, rfl, same⟩ := Cursor.mk.inj same
    obtain ⟨rfl, rfl⟩ := Array.push_eq_push.mp same
    rfl

/-! ### Expressions without a bound -/

namespace Parser

/-- A parser that recurs without a bound. Whatever is ahead, it reads an operand and all that
continues it, and reads the expressions inside by itself. Its loops may have any number of rounds
that exceeds the number of tokens ahead. -/
def Unbounded (expression : Precedence → Parser Expression) : Prop :=
  ∀ (floor : Precedence) (bound : Nat) (cursor : Cursor), cursor.rest.length < bound →
    (expression floor).on cursor =
      (operand bound expression >>= continuations bound expression floor bound).on cursor

/-- Reads an expression with a bound that goes by the number of tokens ahead. -/
def unboundedExpression (floor : Precedence) : Parser Expression :=
  ExceptT.mk fun cursor => (expression (cursor.rest.length + 1) floor).on cursor

theorem unboundedExpression_on (floor : Precedence) (cursor : Cursor) :
    (unboundedExpression floor).on cursor =
      (expression (cursor.rest.length + 1) floor).on cursor := by
  rw [unboundedExpression, on_mk]

/-- In front of fewer tokens than the bound, the bound makes no difference. -/
theorem inStep_unboundedExpression {most bound : Nat} (enough : most ≤ bound)
    (floor : Precedence) :
    InStep (· = ·) most 1 (expression bound floor) (unboundedExpression floor) := by
  rintro cursor _ rfl short -
  have less : cursor.rest.length + 1 ≤ bound := Nat.le_trans short enough
  rw [unboundedExpression_on]
  exact inStep_expression lockstep_eq less (Nat.le_refl _) floor cursor cursor rfl
    (Nat.lt_succ_self _) (Nat.lt_succ_self _)

/-- Without a bound, too, related cursors are read alike. -/
theorem inStep_unbounded {related : Cursor → Cursor → Prop} (lockstep : Lockstep related)
    (most : Nat) (floor : Precedence) :
    InStep related most 1 (unboundedExpression floor) (unboundedExpression floor) := by
  intro cursor cursor' isRelated short short'
  have bounded {cursor : Cursor} (short : cursor.rest.length < most) :
      (expression most floor).on cursor = (unboundedExpression floor).on cursor :=
    (inStep_unboundedExpression (Nat.le_refl most) floor cursor cursor rfl short short).eq
  rw [← bounded short, ← bounded short']
  exact inStep_expression lockstep (Nat.le_refl most) (Nat.le_refl most) floor cursor cursor'
    isRelated short short'

theorem unbounded_unboundedExpression : Unbounded unboundedExpression := by
  intro floor bound cursor short
  have steps floor := inStep_unboundedExpression (Nat.le_refl cursor.rest.length) floor
  have alike := inStep_continued lockstep_eq steps (Nat.le_refl _) (Nat.le_of_lt short) floor
    cursor cursor rfl (Nat.lt_succ_self _) (Nat.lt_succ_self _)
  rw [unboundedExpression_on, expression]
  exact alike.eq

/-- Only one parser recurs without a bound. -/
theorem Unbounded.eq {expression : Precedence → Parser Expression}
    (unbounded : Unbounded expression) : expression = unboundedExpression := by
  have same (most : Nat) : ∀ floor,
      InStep (· = ·) most 1 (expression floor) (unboundedExpression floor) := by
    induction most with
    | zero => exact fun _ _ _ _ short => absurd short (Nat.not_lt_zero _)
    | succ most inductionHypothesis =>
      rintro floor cursor _ rfl short -
      rw [unbounded floor (most + 1) cursor short,
        unbounded_unboundedExpression floor (most + 1) cursor short]
      exact inStep_continued lockstep_eq inductionHypothesis (Nat.le_succ most) (Nat.le_succ most)
        floor cursor cursor rfl short short
  refine funext fun floor => eq_of_on fun cursor => ?_
  exact (same (cursor.rest.length + 1) floor cursor cursor rfl (Nat.lt_succ_self _)
    (Nat.lt_succ_self _)).eq

/-! ### Loops -/

/-- With more rounds than there are tokens ahead, no loop ends because its rounds are used up. Each
ends in front of a token that ends it, or fails. -/
structure LoopsEnd (expression : Precedence → Parser Expression) : Prop where
  statements {stops : Kind → Bool} {rounds : Nat} {found : List Statement} {cursor : Cursor} :
    stops .endOfInput = true → cursor.rest.length < rounds →
    stops (headKind (StateT.run (statements expression stops rounds found) cursor).2.terminals) =
      true
  items {rounds : Nat} {found items : List Expression} {cursor last : Cursor} :
    cursor.rest.length < rounds →
    (moreItems (expression .lowest) rounds found).on cursor = (.ok items, last) →
    headKind last.terminals ≠ .comma
  names {rounds : Nat} {found names : List String} {cursor last : Cursor} :
    cursor.rest.length < rounds →
    (moreItems parameter rounds found).on cursor = (.ok names, last) →
    headKind last.terminals ≠ .comma
  pairs {rounds : Nat} {found entries : List (Expression × Expression)} {cursor last : Cursor} :
    cursor.rest.length < rounds →
    (pairs expression rounds found).on cursor = (.ok entries, last) →
    headKind last.terminals = .closeBrace
  continuations {bound rounds : Nat} {floor : Precedence} {left tree : Expression}
    {cursor last : Cursor} : cursor.rest.length < rounds →
    (continuations bound expression floor rounds left).on cursor = (.ok tree, last) →
    Halts floor last.terminals

section Loops

variable {cursor last : Cursor} {rounds : Nat}

/-- A token that is not the end of input is there to be left behind. -/
theorem length_advance_lt (cursor : Cursor) (more : headKind cursor.terminals ≠ .endOfInput) :
    cursor.advance.rest.length < cursor.rest.length := by
  rw [← Cursor.kind_next] at more
  exact Nat.lt_of_succ_le (Nat.le_of_eq (Cursor.length_advance more))

/-- A list goes on behind a comma only. -/
theorem moreItems_ends {α : Type} {item : Parser α} (moves : item.Moves) {found items : List α}
    (enough : cursor.rest.length < rounds)
    (reads : (moreItems item rounds found).on cursor = (.ok items, last)) :
    headKind last.terminals ≠ .comma := by
  induction rounds generalizing cursor found with
  | zero => exact absurd enough (Nat.not_lt_zero _)
  | succ rounds inductionHypothesis =>
    rcases moreItems_succ_on_eq_ok.mp reads with
      ⟨isComma, tree, middle, readTree, readMore⟩ | ⟨noComma, rfl, rfl⟩
    · have less := length_advance_lt cursor (by rw [isComma]; decide)
      have shorter := (moves.kept readTree).2
      exact inductionHypothesis (by omega) readMore
    · exact noComma

variable {expression : Precedence → Parser Expression}

/-- Every statement leaves a token behind, whether it can be read or not. -/
theorem statements_ends
    (steps : ∀ most floor, InStep (· = ·) most 1 (expression floor) (expression floor))
    {stops : Kind → Bool} (ends : stops .endOfInput = true) {found : List Statement}
    (enough : cursor.rest.length < rounds) :
    stops (headKind (StateT.run (statements expression stops rounds found) cursor).2.terminals) =
      true := by
  induction rounds generalizing cursor found with
  | zero => exact absurd enough (Nat.not_lt_zero _)
  | succ rounds inductionHypothesis =>
    rw [run_statements_succ]
    by_cases stop : stops (headKind cursor.terminals) = true
    · rwa [if_pos stop]
    · rw [if_neg stop]
      have more : headKind cursor.terminals ≠ .endOfInput := fun isEnd => stop (isEnd ▸ ends)
      have less := length_advance_lt cursor more
      have alike := inStep_statement lockstep_eq (steps _) cursor cursor rfl enough enough
      rcases outcome : (statement expression).on cursor with ⟨diagnostic | tree, middle⟩
      · rw [outcome] at alike
        cases alike with
        | error _ fewer => exact inductionHypothesis (show middle.rest.length < _ by omega)
      · rw [outcome] at alike
        cases alike with
        | ok _ fewer => exact inductionHypothesis (by omega)

variable (moves : ∀ floor, (expression floor).Moves)

include moves

/-- Every pair has a colon. -/
theorem pairs_ends {found entries : List (Expression × Expression)}
    (enough : cursor.rest.length < rounds)
    (reads : (pairs expression rounds found).on cursor = (.ok entries, last)) :
    headKind last.terminals = .closeBrace := by
  induction rounds generalizing cursor found with
  | zero => exact absurd enough (Nat.not_lt_zero _)
  | succ rounds inductionHypothesis =>
    rcases pairs_succ_on_eq_ok.mp reads with ⟨close, rfl, rfl⟩ |
      ⟨_, key, second, value, third, fourth, readKey, isColon, readValue, ends, readMore⟩
    · exact close
    · have less := length_advance_lt second (by rw [isColon]; decide)
      have shorter := ((moves .lowest).kept readKey).2
      have shorter' := ((moves .lowest).kept readValue).2
      have behind : fourth.rest.length ≤ third.rest.length := by
        rcases ends with ⟨-, rfl⟩ | ⟨-, rfl⟩
        · exact Nat.le_refl _
        · exact third.length_advance_le
      exact inductionHypothesis (by omega) readMore

/-- Every continuation has a token of its own. -/
theorem continuations_ends {bound : Nat} {floor : Precedence} {left tree : Expression}
    (enough : cursor.rest.length < rounds)
    (reads : (continuations bound expression floor rounds left).on cursor = (.ok tree, last)) :
    Halts floor last.terminals := by
  induction rounds generalizing cursor left with
  | zero => exact absurd enough (Nat.not_lt_zero _)
  | succ rounds inductionHypothesis =>
    rcases continuations_succ_on_eq_ok.mp reads with ⟨halts, rfl, rfl⟩ |
      ⟨next, larger, middle, found, -, readLarger, readMore⟩
    · exact halts
    · have less := length_advance_lt cursor (by
        intro isEnd
        rw [isEnd] at found
        exact absurd found nofun)
      have shorter := ((moves_continuation moves bound left next).kept readLarger).2
      exact inductionHypothesis (by omega) readMore

end Loops

theorem loopsEnd_unboundedExpression : LoopsEnd unboundedExpression := by
  have moves floor : (unboundedExpression floor).Moves := by
    intro cursor
    rw [unboundedExpression_on]
    exact moves_expression _ floor cursor
  have steps := inStep_unbounded lockstep_eq
  exact {
    statements := fun ends enough => statements_ends steps ends enough
    items := moreItems_ends (moves .lowest)
    names := moreItems_ends moves_parameter
    pairs := pairs_ends moves
    continuations := continuations_ends moves }

/-! ### Whole programs -/

/-- Without a bound the same program is read, with any number of rounds that exceeds the number of
tokens. -/
theorem run_statements_unboundedExpression {tokens : List Token} {rounds : Nat}
    (enough : tokens.length < rounds) :
    StateT.run (statements unboundedExpression endsProgram rounds []) (Cursor.ofTokens tokens) =
      Parsed.reading tokens := by
  have short : (Cursor.ofTokens tokens).rest.length < tokens.length + 1 := Nat.lt_succ_self _
  have ends : endsProgram .endOfInput = true := rfl
  have alike := inStep_statements lockstep_eq (inStep_unboundedExpression (Nat.le_refl _)) ends
    (Nat.le_refl _) enough [] _ _ rfl short short
  rw [on_lift, on_lift] at alike
  obtain ⟨sameTrees, sameLast⟩ := alike.of_ok
  rw [Parsed.reading]
  exact (Prod.ext sameTrees sameLast).symm

end Parser

/-- From related streams the same program is read, whatever their lengths, and the cursors behind it
are still related. -/
theorem Lockstep.readings {related : Cursor → Cursor → Prop} (lockstep : Lockstep related)
    {tokens tokens' : List Token}
    (start : related (Cursor.ofTokens tokens) (Cursor.ofTokens tokens')) :
    (Parsed.reading tokens).1 = (Parsed.reading tokens').1 ∧
      related (Parsed.reading tokens).2 (Parsed.reading tokens').2 := by
  let most := max tokens.length tokens'.length + 1
  have short : tokens.length < most := Nat.lt_succ_of_le (Nat.le_max_left _ _)
  have short' : tokens'.length < most := Nat.lt_succ_of_le (Nat.le_max_right _ _)
  have ends : endsProgram .endOfInput = true := rfl
  rw [← run_statements_unboundedExpression short, ← run_statements_unboundedExpression short']
  exact (inStep_statements lockstep (inStep_unbounded lockstep most) ends (Nat.le_refl most)
    (Nat.le_refl most) [] _ _ start short short').of_ok

end MonkeyLang
