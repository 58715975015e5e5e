/-
This file opens every construct of the grammar once. For each parser it says
under which circumstances the parser succeeds, in terms of the parsers inside
it and of the kinds of the terminals ahead, and that the parser moves its
cursor. The expressions inside a construct are read by any parser whatsoever
here, as in the definitions themselves.
-/

import MonkeyLang.Proofs.Parser.Steps

namespace MonkeyLang

variable {cursor last : Cursor}

namespace Parser

/-! ### Lists -/

section Lists

variable {α : Type} {item : Parser α}

theorem moreItems_succ_on_eq_ok {bound : Nat} {found items : List α} :
    (moreItems item (bound + 1) found).on cursor = (.ok items, last) ↔
      (headKind cursor.terminals = .comma ∧ ∃ tree middle,
        item.on cursor.advance = (.ok tree, middle) ∧
          (moreItems item bound (tree :: found)).on middle = (.ok items, last)) ∨
      (headKind cursor.terminals ≠ .comma ∧ found.reverse = items ∧ cursor = last) := by
  rw [moreItems, on_lift_bind, run_peek, Cursor.kind_next]
  by_cases comma : headKind cursor.terminals = .comma
  · rw [if_pos comma]
    simp only [on_lift_bind, run_advance, on_bind_eq_ok, comma, true_and,
      ne_eq, not_true_eq_false, false_and, or_false]
  · rw [if_neg comma]
    simp only [on_pure_eq_ok, comma, false_and, ne_eq, not_false_eq_true, true_and,
      false_or]

theorem commaSeparated_on_eq_ok {bound : Nat} {close : Kind} {items : List α} :
    (commaSeparated bound close item).on cursor = (.ok items, last) ↔
      (headKind cursor.terminals = close ∧ [] = items ∧ cursor.advance = last) ∨
      (headKind cursor.terminals ≠ close ∧ ∃ first middle behind,
        item.on cursor = (.ok first, middle) ∧
          (moreItems item bound [first]).on middle = (.ok items, behind) ∧
          headKind behind.terminals = close ∧ behind.advance = last) := by
  rw [commaSeparated, on_lift_bind, run_peek, Cursor.kind_next]
  by_cases closed : headKind cursor.terminals = close
  · rw [if_pos closed]
    simp only [on_lift_bind, run_advance, on_pure_eq_ok, closed, true_and, ne_eq,
      not_true_eq_false, false_and, or_false]
  · rw [if_neg closed]
    simp only [on_bind_eq_ok, on_pure_eq_ok, expect_on_eq_ok, closed, false_and,
      ne_eq, not_false_eq_true, true_and, false_or]
    constructor
    · rintro ⟨first, middle, readsFirst, _, behind, readsMore, _, _, ⟨head, _, rfl⟩, rfl, rfl⟩
      exact ⟨first, middle, behind, readsFirst, readsMore, head, rfl⟩
    · rintro ⟨first, middle, behind, readsFirst, readsMore, head, rfl⟩
      exact ⟨first, middle, readsFirst, _, behind, readsMore, _, _, ⟨head, rfl, rfl⟩, rfl, rfl⟩

theorem moves_moreItems (moves : item.Moves) (bound : Nat) (found : List α) :
    (moreItems item bound found).Moves := by
  induction bound generalizing found with
  | zero => exact moves_pure _
  | succ bound inductionHypothesis =>
    refine moves_peek.bind fun token => ?_
    split
    · exact moves_advance.bind fun _ => moves.bind fun tree => inductionHypothesis _
    · exact moves_pure _

theorem moves_commaSeparated (moves : item.Moves) (bound : Nat) (close : Kind) :
    (commaSeparated bound close item).Moves := by
  refine moves_peek.bind fun token => ?_
  split
  · exact moves_advance.bind fun _ => moves_pure _
  · exact moves.bind fun first => (moves_moreItems moves bound [first]).bind fun items =>
      (moves_expect close).bind fun _ => moves_pure _

end Lists

theorem parameter_on_eq_ok {name : String} :
    parameter.on cursor = (.ok name, last) ↔
      headKind cursor.terminals = .identifier ∧ cursor.next.text = name ∧
        cursor.advance = last := by
  rw [parameter, on_lift_bind, run_take, Cursor.kind_next]
  split <;> simp_all [on_pure_eq_ok, on_throw_ne_ok]

theorem moves_parameter : parameter.Moves := by
  refine moves_take.bind fun token => ?_
  split
  · exact moves_pure _
  · exact moves_throw _

end Parser

/-! ### Statements -/

/-- The cursor behind a semicolon, if there is one ahead. -/
def Cursor.skipSemicolon (cursor : Cursor) : Cursor :=
  if headKind cursor.terminals = .semicolon then cursor.advance else cursor

@[simp] theorem Cursor.diagnostics_skipSemicolon (cursor : Cursor) :
    cursor.skipSemicolon.diagnostics = cursor.diagnostics := by
  unfold skipSemicolon
  split <;> rfl

namespace Parser

theorem run_skip_semicolon : StateT.run (skip .semicolon) cursor = ((), cursor.skipSemicolon) := by
  rw [run_skip, Cursor.kind_next, Cursor.skipSemicolon]

section Constructs

variable {bound : Nat} {expression : Precedence → Parser Expression}

/-- What a statement consists of. The first terminal decides which of the three it is. -/
theorem statement_on_eq_ok {result : Statement} :
    (statement expression).on cursor = (.ok result, last) ↔
      (headKind cursor.terminals = .letWord ∧
        headKind cursor.advance.terminals = .identifier ∧
        headKind cursor.advance.advance.terminals = .assign ∧ ∃ value middle,
          (expression .lowest).on cursor.advance.advance.advance = (.ok value, middle) ∧
            .binding cursor.advance.next.text value = result ∧ middle.skipSemicolon = last) ∨
      (headKind cursor.terminals = .returnWord ∧ ∃ value middle,
        (expression .lowest).on cursor.advance = (.ok value, middle) ∧
          .returning value = result ∧ middle.skipSemicolon = last) ∨
      (headKind cursor.terminals ≠ .letWord ∧ headKind cursor.terminals ≠ .returnWord ∧
        ∃ value middle, (expression .lowest).on cursor = (.ok value, middle) ∧
          .expression value = result ∧ middle.skipSemicolon = last) := by
  rw [statement, on_lift_bind, run_peek, Cursor.kind_next]
  split
  · next head =>
    simp only [head, on_lift_bind, run_advance, on_bind_eq_ok, expect_on_eq_ok,
      run_skip_semicolon, on_pure_eq_ok, true_and, reduceCtorEq, false_and, ne_eq,
      not_true_eq_false, not_false_eq_true, or_false]
    constructor
    · rintro ⟨_, _, ⟨name, rfl, rfl⟩, _, _, ⟨assign, _, rfl⟩, value, middle, reads, same, rfl⟩
      exact ⟨name, assign, value, middle, reads, same, rfl⟩
    · rintro ⟨name, assign, value, middle, reads, same, rfl⟩
      exact ⟨_, _, ⟨name, rfl, rfl⟩, _, _, ⟨assign, rfl, rfl⟩, value, middle, reads, same, rfl⟩
  · next head =>
    simp only [head, on_lift_bind, run_advance, on_bind_eq_ok, run_skip_semicolon,
      on_pure_eq_ok, true_and, reduceCtorEq, false_and, ne_eq, not_true_eq_false,
      not_false_eq_true, or_false, false_or, and_false]
  · next notLet notReturn =>
    simp only [on_lift_bind, on_bind_eq_ok, run_skip_semicolon, on_pure_eq_ok, ne_eq,
      eq_false notLet, eq_false notReturn, false_and, not_false_eq_true, true_and, false_or]

theorem moves_statement (moves : ∀ floor, (expression floor).Moves) :
    (statement expression).Moves := by
  refine moves_peek.bind fun token => ?_
  split
  · exact moves_advance.bind fun _ => (moves_expect _).bind fun name =>
      (moves_expect _).bind fun _ => (moves _).bind fun value =>
        (moves_skip _).bind fun _ => moves_pure _
  · exact moves_advance.bind fun _ => (moves _).bind fun value =>
      (moves_skip _).bind fun _ => moves_pure _
  · exact (moves _).bind fun value => (moves_skip _).bind fun _ => moves_pure _

theorem run_statements_succ {stops : Kind → Bool} {rounds : Nat} {found : List Statement} :
    StateT.run (statements expression stops (rounds + 1) found) cursor =
      if stops (headKind cursor.terminals) then (found.reverse, cursor)
      else match (statement expression).on cursor with
        | (.ok tree, middle) =>
          StateT.run (statements expression stops rounds (tree :: found)) middle
        | (.error diagnostic, middle) =>
          StateT.run (statements expression stops rounds found) (middle.record diagnostic) := by
  rw [statements, run_bind, run_peek, Cursor.kind_next]
  split
  · rfl
  · rw [run_bind, run_attempt]
    rcases (statement expression).on cursor with ⟨_ | tree, middle⟩ <;> rfl

theorem moves_statements (moves : ∀ floor, (expression floor).Moves) (stops : Kind → Bool)
    (rounds : Nat) (found : List Statement) :
    MovesReading (statements expression stops rounds found) := by
  induction rounds generalizing found with
  | zero => exact fun _ => .refl
  | succ rounds inductionHypothesis =>
    intro cursor
    rw [run_statements_succ]
    split
    · exact .refl
    · rcases outcome : (statement expression).on cursor with ⟨diagnostic | tree, middle⟩
      · exact (((moves_statement moves).of_on_eq outcome).record diagnostic).trans
          (inductionHypothesis found _)
      · exact ((moves_statement moves).of_on_eq outcome).trans
          (inductionHypothesis (tree :: found) _)

theorem block_on_eq_ok {body : List Statement} :
    (block bound expression).on cursor = (.ok body, last) ↔
      headKind cursor.terminals = .openBrace ∧ ∃ middle,
        StateT.run (statements expression endsBlock bound []) cursor.advance = (body, middle) ∧
          middle.advance = last := by
  simp only [block, on_bind_eq_ok, expect_on_eq_ok, on_lift_eq_ok, on_pure_eq_ok, run_advance]
  constructor
  · rintro ⟨_, _, ⟨brace, _, rfl⟩, _, middle, reads, _, _, ⟨⟩, rfl, rfl⟩
    exact ⟨brace, middle, reads, rfl⟩
  · rintro ⟨brace, middle, reads, rfl⟩
    exact ⟨_, _, ⟨brace, rfl, rfl⟩, _, middle, reads, _, _, rfl, rfl, rfl⟩

theorem moves_block (moves : ∀ floor, (expression floor).Moves) (bound : Nat) :
    (block bound expression).Moves :=
  (moves_expect _).bind fun _ => (MovesReading.lift (moves_statements moves _ _ _)).bind fun _ =>
    moves_advance.bind fun _ => moves_pure _

/-! ### Operands -/

theorem grouped_on_eq_ok {tree : Expression} :
    (grouped expression).on cursor = (.ok tree, last) ↔
      ∃ middle, (expression .lowest).on cursor = (.ok tree, middle) ∧
        headKind middle.terminals = .closeParen ∧ middle.advance = last := by
  simp only [grouped, on_bind_eq_ok, expect_on_eq_ok, on_pure_eq_ok]
  constructor
  · rintro ⟨_, middle, reads, _, _, ⟨close, _, rfl⟩, rfl, rfl⟩
    exact ⟨middle, reads, close, rfl⟩
  · rintro ⟨middle, reads, close, rfl⟩
    exact ⟨_, middle, reads, _, _, ⟨close, rfl, rfl⟩, rfl, rfl⟩

theorem moves_grouped (moves : ∀ floor, (expression floor).Moves) : (grouped expression).Moves :=
  (moves _).bind fun _ => (moves_expect _).bind fun _ => moves_pure _

theorem conditional_on_eq_ok {tree : Expression} :
    (conditional bound expression).on cursor = (.ok tree, last) ↔
      headKind cursor.terminals = .openParen ∧ ∃ condition second consequence third,
        (grouped expression).on cursor.advance = (.ok condition, second) ∧
        (block bound expression).on second = (.ok consequence, third) ∧
        ((headKind third.terminals = .elseWord ∧ ∃ alternative,
            (block bound expression).on third.advance = (.ok alternative, last) ∧
              .conditional condition consequence (some alternative) = tree) ∨
          (headKind third.terminals ≠ .elseWord ∧
            .conditional condition consequence none = tree ∧ third = last)) := by
  rw [conditional, on_bind_eq_ok]
  simp only [expect_on_eq_ok, on_bind_eq_ok, on_lift_bind, run_peek, Cursor.kind_next]
  constructor
  · rintro ⟨_, _, ⟨paren, _, rfl⟩, condition, second, readsCondition, consequence, third,
      readsConsequence, ends⟩
    refine ⟨paren, condition, second, consequence, third, readsCondition, readsConsequence, ?_⟩
    split at ends
    · next otherwise =>
      simp only [on_lift_bind, run_advance, on_bind_eq_ok, on_pure_eq_ok] at ends
      obtain ⟨alternative, _, readsAlternative, same, rfl⟩ := ends
      exact .inl ⟨otherwise, alternative, readsAlternative, same⟩
    · next otherwise => exact .inr ⟨otherwise, on_pure_eq_ok.mp ends⟩
  · rintro ⟨paren, condition, second, consequence, third, readsCondition, readsConsequence, ends⟩
    refine ⟨_, _, ⟨paren, rfl, rfl⟩, condition, second, readsCondition, consequence, third,
      readsConsequence, ?_⟩
    rcases ends with ⟨otherwise, alternative, readsAlternative, same⟩ | ⟨otherwise, same⟩
    · simp only [if_pos otherwise, on_lift_bind, run_advance, on_bind_eq_ok, on_pure_eq_ok]
      exact ⟨alternative, _, readsAlternative, same, rfl⟩
    · rw [if_neg otherwise]
      exact on_pure_eq_ok.mpr same

theorem moves_conditional (moves : ∀ floor, (expression floor).Moves) (bound : Nat) :
    (conditional bound expression).Moves := by
  refine (moves_expect _).bind fun _ => (moves_grouped moves).bind fun condition =>
    (moves_block moves bound).bind fun consequence => moves_peek.bind fun token => ?_
  split
  · exact moves_advance.bind fun _ => (moves_block moves bound).bind fun _ => moves_pure _
  · exact moves_pure _

theorem function_on_eq_ok {tree : Expression} :
    (function bound expression).on cursor = (.ok tree, last) ↔
      headKind cursor.terminals = .openParen ∧ ∃ parameters second body,
        (commaSeparated bound .closeParen parameter).on cursor.advance =
          (.ok parameters, second) ∧
        (block bound expression).on second = (.ok body, last) ∧
        .function parameters body = tree := by
  simp only [function, on_bind_eq_ok, expect_on_eq_ok, on_pure_eq_ok]
  constructor
  · rintro ⟨_, _, ⟨paren, _, rfl⟩, parameters, second, readsParameters, body, _, readsBody, same,
      rfl⟩
    exact ⟨paren, parameters, second, body, readsParameters, readsBody, same⟩
  · rintro ⟨paren, parameters, second, body, readsParameters, readsBody, same⟩
    exact ⟨_, _, ⟨paren, rfl, rfl⟩, parameters, second, readsParameters, body, _, readsBody, same,
      rfl⟩

theorem moves_function (moves : ∀ floor, (expression floor).Moves) (bound : Nat) :
    (function bound expression).Moves :=
  (moves_expect _).bind fun _ => (moves_commaSeparated moves_parameter _ _).bind fun _ =>
    (moves_block moves bound).bind fun _ => moves_pure _

theorem pairs_succ_on_eq_ok {rounds : Nat} {found result : List (Expression × Expression)} :
    (pairs expression (rounds + 1) found).on cursor = (.ok result, last) ↔
      (headKind cursor.terminals = .closeBrace ∧ found.reverse = result ∧ cursor = last) ∨
      (headKind cursor.terminals ≠ .closeBrace ∧ ∃ key second value third fourth,
        (expression .lowest).on cursor = (.ok key, second) ∧
        headKind second.terminals = .colon ∧
        (expression .lowest).on second.advance = (.ok value, third) ∧
        ((headKind third.terminals = .closeBrace ∧ third = fourth) ∨
          (headKind third.terminals = .comma ∧ third.advance = fourth)) ∧
        (pairs expression rounds ((key, value) :: found)).on fourth = (.ok result, last)) := by
  rw [pairs, on_lift_bind, run_peek, Cursor.kind_next]
  split
  · next close =>
    simp only [on_pure_eq_ok, close, true_and, ne_eq, not_true_eq_false, false_and, or_false]
  · next close =>
    simp only [on_bind_eq_ok, expect_on_eq_ok, on_lift_bind, run_peek, Cursor.kind_next, close,
      false_and, ne_eq, not_false_eq_true, true_and, false_or]
    constructor
    · rintro ⟨key, second, readsKey, _, _, ⟨colon, _, rfl⟩, value, third, readsValue, ends⟩
      refine ⟨key, second, value, third, ?_⟩
      split at ends
      · next more =>
        simp only [on_bind_eq_ok, expect_on_eq_ok] at ends
        obtain ⟨_, _, ⟨comma, _, rfl⟩, readsMore⟩ := ends
        exact ⟨_, readsKey, colon, readsValue, .inr ⟨comma, rfl⟩, readsMore⟩
      · next more =>
        exact ⟨_, readsKey, colon, readsValue, .inl ⟨Decidable.not_not.mp more, rfl⟩, ends⟩
    · rintro ⟨key, second, value, third, fourth, readsKey, colon, readsValue, ends, readsMore⟩
      refine ⟨key, second, readsKey, _, _, ⟨colon, rfl, rfl⟩, value, third, readsValue, ?_⟩
      rcases ends with ⟨more, rfl⟩ | ⟨comma, rfl⟩
      · rw [if_neg (Decidable.not_not.mpr more)]
        exact readsMore
      · rw [if_pos (by rw [comma]; decide)]
        simp only [on_bind_eq_ok, expect_on_eq_ok]
        exact ⟨_, _, ⟨comma, rfl, rfl⟩, readsMore⟩

theorem moves_pairs (moves : ∀ floor, (expression floor).Moves) (rounds : Nat)
    (found : List (Expression × Expression)) : (pairs expression rounds found).Moves := by
  induction rounds generalizing found with
  | zero => exact moves_pure _
  | succ rounds inductionHypothesis =>
    refine moves_peek.bind fun token => ?_
    split
    · exact moves_pure _
    · refine (moves _).bind fun key => (moves_expect _).bind fun _ => (moves _).bind fun value =>
        moves_peek.bind fun token => ?_
      split
      · exact (moves_expect _).bind fun _ => inductionHypothesis _
      · exact inductionHypothesis _

theorem hash_on_eq_ok {tree : Expression} :
    (hash bound expression).on cursor = (.ok tree, last) ↔
      ∃ entries middle, (pairs expression bound []).on cursor = (.ok entries, middle) ∧
        headKind middle.terminals = .closeBrace ∧ .hash entries = tree ∧
        middle.advance = last := by
  simp only [hash, on_bind_eq_ok, expect_on_eq_ok, on_pure_eq_ok]
  constructor
  · rintro ⟨entries, middle, reads, _, _, ⟨close, _, rfl⟩, same, rfl⟩
    exact ⟨entries, middle, reads, close, same, rfl⟩
  · rintro ⟨entries, middle, reads, close, same, rfl⟩
    exact ⟨entries, middle, reads, _, _, ⟨close, rfl, rfl⟩, same, rfl⟩

theorem moves_hash (moves : ∀ floor, (expression floor).Moves) (bound : Nat) :
    (hash bound expression).Moves :=
  (moves_pairs moves _ _).bind fun _ => (moves_expect _).bind fun _ => moves_pure _

theorem moves_operand (moves : ∀ floor, (expression floor).Moves) (bound : Nat) :
    (operand bound expression).Moves := by
  refine moves_take.bind fun token => ?_
  split
  case h_2 =>
    split
    · exact moves_pure _
    · exact moves_throw _
  case h_6 => exact (moves _).bind fun _ => moves_pure _
  case h_7 => exact (moves _).bind fun _ => moves_pure _
  case h_8 => exact moves_grouped moves
  case h_9 => exact moves_conditional moves bound
  case h_10 => exact moves_function moves bound
  case h_11 => exact (moves_commaSeparated (moves _) _ _).bind fun _ => moves_pure _
  case h_12 => exact moves_hash moves bound
  case h_13 => exact moves_throw _
  all_goals exact moves_pure _

/-! ### Continuations -/

theorem moves_continuation (moves : ∀ floor, (expression floor).Moves) (bound : Nat)
    (left : Expression) (next : Continuation) :
    (continuation bound expression left next).Moves := by
  cases next with
  | operation operator => exact (moves _).bind fun _ => moves_pure _
  | call => exact (moves_commaSeparated (moves _) _ _).bind fun _ => moves_pure _
  | index => exact (moves _).bind fun _ => (moves_expect _).bind fun _ => moves_pure _

/-- Nothing ahead continues an expression that is read above the floor. -/
def Halts (floor : Precedence) (terminals : List Terminal) : Prop :=
  ∀ next, Continuation.ofKind? (headKind terminals) = some next → ¬ floor < next.precedence

theorem continuations_succ_on_eq_ok {floor : Precedence} {rounds : Nat}
    {left tree : Expression} :
    (continuations bound expression floor (rounds + 1) left).on cursor = (.ok tree, last) ↔
      (Halts floor cursor.terminals ∧ left = tree ∧ cursor = last) ∨
      ∃ next larger middle, Continuation.ofKind? (headKind cursor.terminals) = some next ∧
        floor < next.precedence ∧
        (continuation bound expression left next).on cursor.advance = (.ok larger, middle) ∧
        (continuations bound expression floor rounds larger).on middle = (.ok tree, last) := by
  rw [continuations, on_lift_bind, run_peek, Cursor.kind_next]
  split
  · next next found =>
    simp only [Halts, found, Option.some.injEq, forall_eq']
    split
    · next tighter =>
      simp only [on_lift_bind, run_advance, on_bind_eq_ok, tighter, not_true_eq_false, false_and,
        false_or]
      constructor
      · rintro ⟨larger, middle, reads, goesOn⟩
        exact ⟨next, larger, middle, rfl, tighter, reads, goesOn⟩
      · rintro ⟨_, larger, middle, rfl, _, reads, goesOn⟩
        exact ⟨larger, middle, reads, goesOn⟩
    · next looser =>
      simp only [on_pure_eq_ok, looser, not_false_eq_true, true_and]
      constructor
      · exact .inl
      · rintro (same | ⟨_, _, _, rfl, tighter, _⟩)
        · exact same
        · exact absurd tighter looser
  · next found => simp [Halts, found, on_pure_eq_ok]

theorem moves_continuations (moves : ∀ floor, (expression floor).Moves) (bound : Nat)
    (floor : Precedence) (rounds : Nat) (left : Expression) :
    (continuations bound expression floor rounds left).Moves := by
  induction rounds generalizing left with
  | zero => exact moves_pure _
  | succ rounds inductionHypothesis =>
    refine moves_peek.bind fun token => ?_
    split
    · split
      · exact moves_advance.bind fun _ => (moves_continuation moves bound left _).bind fun larger =>
          inductionHypothesis larger
      · exact moves_pure _
    · exact moves_pure _

end Constructs

/-! ### Expressions -/

theorem expression_zero_on_ne_ok {floor : Precedence} {tree : Expression} :
    (expression 0 floor).on cursor ≠ (.ok tree, last) := by
  rw [expression, on_lift_bind, run_peek, on_throw]
  simp

theorem expression_succ_on_eq_ok {bound : Nat} {floor : Precedence} {tree : Expression} :
    (expression (bound + 1) floor).on cursor = (.ok tree, last) ↔ ∃ left middle,
      (operand bound (expression bound)).on cursor = (.ok left, middle) ∧
        (continuations bound (expression bound) floor bound left).on middle =
          (.ok tree, last) := by
  rw [expression, on_bind_eq_ok]

theorem moves_expression (bound : Nat) (floor : Precedence) : (expression bound floor).Moves := by
  induction bound generalizing floor with
  | zero => exact moves_peek.bind fun token => moves_throw _
  | succ bound inductionHypothesis =>
    exact (moves_operand inductionHypothesis bound).bind fun left =>
      moves_continuations inductionHypothesis bound floor bound left

end Parser

end MonkeyLang
