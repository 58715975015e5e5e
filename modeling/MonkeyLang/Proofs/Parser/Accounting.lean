/-
This file proves that the parser finishes and that it accounts for its work.
Whatever is ahead, each diagnostic it keeps and each statement it reads is paid
for with a token of its own, and ends of input pay for nothing.

The tally of a cursor is what is left to pay with, together with the diagnostics
already paid for. Leaving a token behind lowers the tally by one, and this one
may be spent on a statement or on a diagnostic. Each parser is given a credit,
what was left behind in front of it and not spent yet, and what it returns is
worth the credit that is handed on. In the middle of a construct the credit is
never used up, since the construct began with a token; so there is always
something to pay a diagnostic with, even where the input ends.
-/

import Mathlib.Algebra.GroupWithZero.Nat
import MonkeyLang.Proofs.Parser.Unbounded

namespace MonkeyLang

open MonkeyLang.Parser

/-! ### Counting statements -/

mutual

/-- How many statements stand in the blocks of an expression. -/
def Expression.statementCount : Expression → Nat
  | .identifier _ => 0
  | .integer _ => 0
  | .string _ => 0
  | .boolean _ => 0
  | .unary _ operand => operand.statementCount
  | .binary left _ right => left.statementCount + right.statementCount
  | .conditional condition consequence none =>
    condition.statementCount + statementCountOfBlock consequence
  | .conditional condition consequence (some alternative) =>
    condition.statementCount +
      (statementCountOfBlock consequence + statementCountOfBlock alternative)
  | .function _ body => statementCountOfBlock body
  | .call callee arguments => callee.statementCount + statementCountOfAll arguments
  | .array elements => statementCountOfAll elements
  | .index collection position => collection.statementCount + position.statementCount
  | .hash pairs => statementCountOfPairs pairs
termination_by structural expression => expression

/-- How many statements stand in the blocks of expressions. -/
def statementCountOfAll : List Expression → Nat
  | [] => 0
  | expression :: rest => expression.statementCount + statementCountOfAll rest
termination_by structural expressions => expressions

/-- How many statements stand in the blocks of the pairs of a hash. -/
def statementCountOfPairs : List (Expression × Expression) → Nat
  | [] => 0
  | (key, value) :: rest =>
    key.statementCount + value.statementCount + statementCountOfPairs rest
termination_by structural pairs => pairs

/-- A statement and how many stand in the blocks inside it. -/
def Statement.statementCount : Statement → Nat
  | .binding _ value => value.statementCount + 1
  | .returning value => value.statementCount + 1
  | .expression value => value.statementCount + 1
termination_by structural statement => statement

/-- How many statements stand in a block, those of the blocks inside it included. -/
def statementCountOfBlock : List Statement → Nat
  | [] => 0
  | statement :: rest => statement.statementCount + statementCountOfBlock rest
termination_by structural statements => statements

end

/-- How many statements there are in a program, those of all its blocks included. -/
def Program.statementCount (program : Program) : Nat :=
  statementCountOfBlock program.statements

theorem statementCountOfAll_eq (trees : List Expression) :
    statementCountOfAll trees = (trees.map Expression.statementCount).sum := by
  induction trees with
  | nil => rfl
  | cons tree trees inductionHypothesis =>
    rw [statementCountOfAll, inductionHypothesis, List.map_cons, List.sum_cons]

theorem statementCountOfPairs_eq (trees : List (Expression × Expression)) :
    statementCountOfPairs trees =
      (trees.map fun pair => pair.1.statementCount + pair.2.statementCount).sum := by
  induction trees with
  | nil => rfl
  | cons tree trees inductionHypothesis =>
    rw [statementCountOfPairs, inductionHypothesis, List.map_cons, List.sum_cons]

theorem statementCountOfBlock_eq (trees : List Statement) :
    statementCountOfBlock trees = (trees.map Statement.statementCount).sum := by
  induction trees with
  | nil => rfl
  | cons tree trees inductionHypothesis =>
    rw [statementCountOfBlock, inductionHypothesis, List.map_cons, List.sum_cons]

/-! ### The tally -/

/-- How many of the tokens are no end of input. -/
def properCount (tokens : List Token) : Nat :=
  tokens.countP fun token => token.kind != .endOfInput

theorem properCount_cons_of_ne {token : Token} (proper : token.kind ≠ .endOfInput)
    (rest : List Token) : properCount (token :: rest) = properCount rest + 1 :=
  List.countP_cons_of_pos (bne_iff_ne.mpr proper)

namespace Cursor

/-- The diagnostics so far, and the tokens ahead that are no end of input. -/
def tally (cursor : Cursor) : Nat :=
  cursor.diagnostics.size + properCount cursor.rest

variable {cursor : Cursor}

theorem tally_record (diagnostic : Diagnostic) :
    (cursor.record diagnostic).tally = cursor.tally + 1 := by
  show (cursor.diagnostics.push diagnostic).size + properCount cursor.rest = _
  rw [Array.size_push, tally, Nat.add_right_comm]

/-- A token that is left behind is gone from the tally. -/
theorem tally_advance (more : cursor.next.kind ≠ .endOfInput) :
    cursor.advance.tally + 1 = cursor.tally := by
  obtain ⟨_ | ⟨token, rest⟩, lastLine, diagnostics⟩ := cursor
  · exact absurd rfl more
  · show diagnostics.size + properCount rest + 1 = diagnostics.size + properCount (token :: rest)
    rw [properCount_cons_of_ne (show token.kind ≠ _ from more), Nat.add_assoc]

theorem tally_advance_le : cursor.advance.tally ≤ cursor.tally :=
  Nat.add_le_add_left (List.Sublist.countP_le (List.tail_sublist _)) _

end Cursor

/-! ### Paying -/

/-- An outcome is paid for. What is left to pay with, and what was read, is worth no more than
there was and the credit; and a diagnostic costs one. -/
inductive Paid {α : Type} (worth : α → Nat) (credit : Nat) (cursor : Cursor) :
    Except Diagnostic α × Cursor → Prop
  | ok {tree : α} {last : Cursor} : last.tally + worth tree ≤ cursor.tally + credit →
      last.rest.length ≤ cursor.rest.length → Paid worth credit cursor (.ok tree, last)
  | error {diagnostic : Diagnostic} {last : Cursor} : last.tally + 1 ≤ cursor.tally + credit →
      last.rest.length ≤ cursor.rest.length → Paid worth credit cursor (.error diagnostic, last)

/-- A parser pays for what it reads and for its diagnostic, given a credit, in front of fewer tokens
than the bound. -/
def Parser.Pays {α : Type} (bound credit : Nat) (worth : α → Nat) (parser : Parser α) : Prop :=
  ∀ cursor : Cursor, cursor.rest.length < bound → Paid worth credit cursor (parser.on cursor)

section Paying

variable {α β : Type} {bound credit : Nat} {worth : α → Nat} {worth' : β → Nat} {cursor : Cursor}

/-- What is paid with less is paid with more, and the difference is handed on. -/
theorem Paid.raise {outcome : Except Diagnostic α × Cursor}
    (paid : Paid worth credit cursor outcome) (more : Nat) :
    Paid (fun tree => worth tree + more) (credit + more) cursor outcome := by
  cases paid with
  | ok enough fewer => exact .ok (by omega) fewer
  | error enough fewer => exact .error (by omega) fewer

/-- A token may be left behind for nothing. -/
theorem Paid.advanced (tree : α) :
    Paid (fun _ => credit) credit cursor (.ok tree, cursor.advance) :=
  .ok (Nat.add_le_add_right Cursor.tally_advance_le _) (Cursor.length_advance_le cursor)

theorem Paid.mono {outcome : Except Diagnostic α × Cursor} {worthLess : α → Nat} {more : Nat}
    (paid : Paid worth credit cursor outcome) (less : ∀ tree, worthLess tree ≤ worth tree)
    (enough : credit ≤ more) : Paid worthLess more cursor outcome := by
  cases paid with
  | @ok tree _ paid fewer => exact .ok (by have := less tree; omega) fewer
  | error paid fewer => exact .error (by omega) fewer

/-- What is paid for farther on is paid for here, if no more is left there to pay with. -/
theorem Paid.after {outcome : Except Diagnostic α × Cursor} {middle : Cursor} {less : Nat}
    (paid : Paid worth credit middle outcome)
    (enough : middle.tally + credit ≤ cursor.tally + less)
    (fewer : middle.rest.length ≤ cursor.rest.length) : Paid worth less cursor outcome := by
  cases paid with
  | ok paid fewer' => exact .ok (Nat.le_trans paid enough) (Nat.le_trans fewer' fewer)
  | error paid fewer' => exact .error (Nat.le_trans paid enough) (Nat.le_trans fewer' fewer)

/-- What is read first is worth the credit for the rest. -/
theorem Paid.bind {parser : Parser α} {next : α → Parser β}
    (first : Paid worth credit cursor (parser.on cursor)) (short : cursor.rest.length < bound)
    (second : ∀ tree, (next tree).Pays bound (worth tree) worth') :
    Paid worth' credit cursor ((parser >>= next).on cursor) := by
  rw [on_bind]
  generalize parser.on cursor = outcome at first
  cases first with
  | ok enough fewer => exact (second _ _ (Nat.lt_of_le_of_lt fewer short)).after enough fewer
  | error enough fewer => exact .error enough fewer

/-- What is paid for behind a token that is there has that token for a credit. -/
theorem Paid.behind {parser : Parser α} (pays : parser.Pays bound 1 worth)
    (more : cursor.next.kind ≠ .endOfInput) (short : cursor.rest.length ≤ bound) :
    Paid worth 0 cursor (parser.on cursor.advance) := by
  have tally := Cursor.tally_advance more
  have length := Cursor.length_advance more
  exact (pays cursor.advance (by omega)).after (by omega) (by omega)

namespace Parser.Pays

theorem pure {tree : α} (enough : worth tree ≤ credit) : Pays bound credit worth (Pure.pure tree) :=
  fun _ _ => .ok (Nat.add_le_add_left enough _) (Nat.le_refl _)

theorem bind {parser : Parser α} {next : α → Parser β} (first : Pays bound credit worth parser)
    (second : ∀ tree, Pays bound (worth tree) worth' (next tree)) :
    Pays bound credit worth' (parser >>= next) :=
  fun cursor short => (first cursor short).bind short second

theorem peek {next : Token → Parser β} (second : ∀ token, Pays bound credit worth' (next token)) :
    Pays bound credit worth' (liftM Parser.peek >>= next) :=
  fun cursor => second cursor.next cursor

theorem afford {parser : Parser α} {more : Nat} (pays : Pays bound credit worth parser)
    (enough : credit ≤ more) : Pays bound more worth parser :=
  fun cursor short => (pays cursor short).mono (fun _ => Nat.le_refl _) enough

theorem advance : Pays bound credit (fun _ => credit) (liftM Parser.advance : Parser Unit) :=
  fun _ _ => .advanced ()

theorem skip (kind : Kind) :
    Pays bound credit (fun _ => credit) (liftM (Parser.skip kind) : Parser Unit) := by
  intro cursor short
  rw [on_lift, run_skip]
  split
  · exact .advanced ()
  · exact .ok (Nat.le_refl _) (Nat.le_refl _)

theorem expect (some : 0 < credit) (kind : Kind) :
    Pays bound credit (fun _ => credit) (Parser.expect kind) := by
  intro cursor short
  rw [expect_on]
  split
  · exact .advanced _
  · exact .error (Nat.add_le_add_left some _) (Nat.le_refl _)

theorem parameter (some : 0 < credit) :
    Pays bound credit (fun _ => credit) Parser.parameter := by
  intro cursor short
  rw [Parser.parameter, on_lift_bind, run_take]
  dsimp only
  split
  · exact .advanced _
  · exact .error (Nat.add_le_add Cursor.tally_advance_le some) (Cursor.length_advance_le cursor)

end Parser.Pays

end Paying

/-! ### Lists -/

namespace Parser

section Lists

variable {α : Type} {most credit : Nat} {item : Parser α} {count : α → Nat}
  (steps : ∀ {credit}, 0 < credit → item.Pays most credit fun tree => count tree + credit)
  (some : 0 < credit)

include steps some

theorem pays_moreItems (rounds : Nat) (found : List α) :
    (moreItems item rounds found).Pays most ((found.map count).sum + credit)
      fun items => (items.map count).sum + credit := by
  have done (found : List α) : (pure found.reverse : Parser (List α)).Pays most
      ((found.map count).sum + credit) fun items => (items.map count).sum + credit :=
    .pure (Nat.le_of_eq (by rw [List.map_reverse, List.sum_reverse]))
  induction rounds generalizing found with
  | zero => exact done found
  | succ rounds inductionHypothesis =>
    refine .peek fun token => ?_
    split
    · refine Pays.advance.bind fun _ => (steps (Nat.add_pos_right _ some)).bind fun tree =>
        (inductionHypothesis (tree :: found)).afford (Nat.le_of_eq ?_)
      rw [List.map_cons, List.sum_cons, Nat.add_assoc]
    · exact done found

theorem pays_commaSeparated (bound : Nat) (close : Kind) :
    (commaSeparated bound close item).Pays most credit
      fun items => (items.map count).sum + credit := by
  refine .peek fun token => ?_
  split
  · exact Pays.advance.bind fun _ => .pure (by simp)
  · exact (steps some).bind fun first =>
      ((pays_moreItems steps some bound [first]).afford (by simp)).bind fun items =>
        (Pays.expect (Nat.add_pos_right _ some) close).bind fun _ => .pure (Nat.le_refl _)

end Lists

end Parser

/-! ### Statements -/

/-- What the diagnostic costs where an operand is missing. It is paid for by the token that stands
there instead; only where the input ends there is none. -/
def Cursor.fee (cursor : Cursor) : Nat :=
  if cursor.next.kind = .endOfInput then 1 else 0

/-- A parser for expressions that leaves one token behind for every statement and diagnostic inside,
and one more. -/
def Parser.Solvent (bound : Nat) (expression : Precedence → Parser Expression) : Prop :=
  ∀ (floor : Precedence) (cursor : Cursor), cursor.rest.length < bound →
    Paid (fun tree => tree.statementCount + 1) cursor.fee cursor ((expression floor).on cursor)

theorem Cursor.tally_advance_fee (cursor : Cursor) :
    cursor.advance.tally + 1 ≤ cursor.tally + cursor.fee := by
  unfold fee
  split
  · exact Nat.add_le_add_right tally_advance_le 1
  · next more => exact Nat.le_of_eq (tally_advance more)

theorem Cursor.fee_le (cursor : Cursor) : cursor.fee ≤ 1 := by
  unfold fee
  split <;> decide

namespace Parser

section Constructs

variable {most : Nat} {expression : Precedence → Parser Expression}
  (solvent : Solvent most expression)

include solvent

/-- Where something has been left behind already, the next operand may be missing. -/
theorem Solvent.pays (floor : Precedence) {credit : Nat} (some : 0 < credit) :
    (expression floor).Pays most credit fun tree => tree.statementCount + credit := by
  obtain ⟨credit, rfl⟩ := Nat.exists_eq_add_of_lt some
  intro cursor short
  have enough := cursor.fee_le
  exact ((solvent floor cursor short).raise credit).mono (fun _ => by omega) (by omega)

/-- A statement has a token of its own. -/
theorem paid_statement {cursor : Cursor} (more : cursor.next.kind ≠ .endOfInput)
    (short : cursor.rest.length < most) :
    Paid Statement.statementCount 0 cursor ((statement expression).on cursor) := by
  have one : 0 < 1 := Nat.one_pos
  rw [statement, on_lift_bind, run_peek]
  dsimp only
  split
  · rw [on_lift_bind, run_advance]
    refine .behind ?_ more (Nat.le_of_lt short)
    exact (Pays.expect one _).bind fun _ => (Pays.expect one _).bind fun _ =>
      (solvent.pays _ one).bind fun value => (Pays.skip _).bind fun _ => .pure (Nat.le_refl _)
  · rw [on_lift_bind, run_advance]
    refine .behind ?_ more (Nat.le_of_lt short)
    exact (solvent.pays _ one).bind fun value => (Pays.skip _).bind fun _ => .pure (Nat.le_refl _)
  · have free : cursor.fee = 0 := if_neg more
    exact (free ▸ solvent .lowest cursor short).bind short fun value =>
      (Pays.skip _).bind fun _ => .pure (Nat.le_refl _)

/-- Each round of statements costs a token that is no end of input. -/
theorem pays_statements {stops : Kind → Bool} (ends : stops .endOfInput = true) (rounds : Nat)
    (found : List Statement) (credit : Nat) :
    (liftM (statements expression stops rounds found) : Parser (List Statement)).Pays most
      (statementCountOfBlock found + credit) fun body => statementCountOfBlock body + credit := by
  have done (found : List Statement) (cursor : Cursor) :
      Paid (fun body => statementCountOfBlock body + credit) (statementCountOfBlock found + credit)
        cursor (.ok found.reverse, cursor) := by
    refine .ok (Nat.le_of_eq ?_) (Nat.le_refl _)
    rw [statementCountOfBlock_eq, statementCountOfBlock_eq, List.map_reverse, List.sum_reverse]
  induction rounds generalizing found with
  | zero => exact fun cursor _ => done found cursor
  | succ rounds inductionHypothesis =>
    intro cursor short
    rw [on_lift, run_statements_succ, ← Cursor.kind_next]
    by_cases stop : stops cursor.next.kind = true
    · rw [if_pos stop]
      exact done found cursor
    · rw [if_neg stop]
      have more : cursor.next.kind ≠ .endOfInput := fun isEnd => stop (isEnd ▸ ends)
      have paid := paid_statement solvent more short
      generalize (statement expression).on cursor = outcome at paid
      cases paid with
      | @ok tree last enough fewer =>
        have goesOn := inductionHypothesis (tree :: found) last (Nat.lt_of_le_of_lt fewer short)
        refine goesOn.after ?_ fewer
        rw [statementCountOfBlock]
        omega
      | @error diagnostic last enough fewer =>
        have goesOn := inductionHypothesis found (last.record diagnostic)
          (Nat.lt_of_le_of_lt fewer short)
        refine goesOn.after ?_ fewer
        rw [Cursor.tally_record]
        omega

section Operands

variable {credit : Nat} (some : 0 < credit) (bound : Nat)

include some

theorem pays_block :
    (block bound expression).Pays most credit fun body => statementCountOfBlock body + credit :=
  (Pays.expect some _).bind fun _ =>
    ((pays_statements solvent rfl bound [] credit).afford
      (Nat.le_of_eq (Nat.zero_add credit))).bind fun _ =>
        Pays.advance.bind fun _ => .pure (Nat.le_refl _)

/-! ### Operands -/

theorem pays_grouped :
    (grouped expression).Pays most credit fun tree => tree.statementCount + credit :=
  (solvent.pays _ some).bind fun _ =>
    (Pays.expect (Nat.add_pos_right _ some) _).bind fun _ => .pure (Nat.le_refl _)

theorem pays_conditional :
    (conditional bound expression).Pays most credit fun tree => tree.statementCount + credit := by
  refine (Pays.expect some _).bind fun _ => (pays_grouped solvent some).bind fun condition =>
    (pays_block solvent (Nat.add_pos_right _ some) bound).bind fun consequence =>
      .peek fun token => ?_
  split
  · refine Pays.advance.bind fun _ =>
      (pays_block solvent (Nat.add_pos_right _ (Nat.add_pos_right _ some)) bound).bind
        fun alternative => .pure ?_
    simp only [Expression.statementCount]
    omega
  · refine .pure ?_
    simp only [Expression.statementCount]
    omega

theorem pays_function :
    (function bound expression).Pays most credit fun tree => tree.statementCount + credit := by
  have names {credit : Nat} (some : 0 < credit) :
      parameter.Pays most credit fun _ => 0 + credit :=
    fun cursor short => (Pays.parameter some cursor short).mono
      (fun _ => Nat.le_of_eq (Nat.zero_add _)) (Nat.le_refl _)
  refine (Pays.expect some _).bind fun _ => (pays_commaSeparated names some bound _).bind
    fun parameters => (pays_block solvent (Nat.add_pos_right _ some) bound).bind
      fun body => .pure ?_
  rw [Expression.statementCount]
  omega

theorem pays_pairs (rounds : Nat) (found : List (Expression × Expression)) :
    (pairs expression rounds found).Pays most (statementCountOfPairs found + credit)
      fun entries => statementCountOfPairs entries + credit := by
  have done (found : List (Expression × Expression)) :
      (pure found.reverse : Parser (List (Expression × Expression))).Pays most
        (statementCountOfPairs found + credit)
        fun entries => statementCountOfPairs entries + credit := by
    refine .pure (Nat.le_of_eq ?_)
    rw [statementCountOfPairs_eq, statementCountOfPairs_eq, List.map_reverse, List.sum_reverse]
  induction rounds generalizing found with
  | zero => exact done found
  | succ rounds inductionHypothesis =>
    have still (more : Nat) : 0 < more + (statementCountOfPairs found + credit) :=
      Nat.add_pos_right _ (Nat.add_pos_right _ some)
    refine .peek fun token => ?_
    split
    · exact done found
    · refine (solvent.pays _ (Nat.add_pos_right _ some)).bind fun key =>
        (Pays.expect (still _) _).bind fun _ => (solvent.pays _ (still _)).bind fun value =>
          .peek fun token => ?_
      have goesOn := (inductionHypothesis ((key, value) :: found)).afford (by
        rw [statementCountOfPairs]
        omega : _ ≤ value.statementCount +
          (key.statementCount + (statementCountOfPairs found + credit)))
      split
      · exact (Pays.expect (Nat.add_pos_right _ (still _)) _).bind fun _ => goesOn
      · exact goesOn

theorem pays_hash :
    (hash bound expression).Pays most credit fun tree => tree.statementCount + credit := by
  refine ((pays_pairs solvent some bound []).afford (Nat.le_of_eq (Nat.zero_add credit))).bind
    fun entries => (Pays.expect (Nat.add_pos_right _ some) _).bind fun _ =>
      .pure (Nat.le_of_eq ?_)
  rw [Expression.statementCount]

end Operands

/-- An operand leaves its first token behind, whatever it is. -/
theorem paid_operand {cursor : Cursor} (bound : Nat) (short : cursor.rest.length < most + 1) :
    Paid (fun tree => tree.statementCount + 1) cursor.fee cursor
      ((operand bound expression).on cursor) := by
  have one : 0 < 1 := Nat.one_pos
  have failed (diagnostic : Diagnostic) :
      Paid (fun tree : Expression => tree.statementCount + 1) cursor.fee cursor
        ((throw diagnostic : Parser Expression).on cursor.advance) :=
    .error cursor.tally_advance_fee (Cursor.length_advance_le cursor)
  have behind {parser : Parser Expression}
      (pays : parser.Pays most 1 fun tree => tree.statementCount + 1)
      (more : cursor.next.kind ≠ .endOfInput) :
      Paid (fun tree => tree.statementCount + 1) cursor.fee cursor (parser.on cursor.advance) :=
    (Paid.behind pays more (Nat.le_of_lt_succ short)).mono (fun _ => Nat.le_refl _)
      (Nat.zero_le _)
  rw [operand, on_lift_bind, run_take]
  dsimp only
  generalize isKind : cursor.next.kind = kind
  split
  case h_1 => exact behind (.pure (Nat.le_refl _)) (by rw [isKind]; decide)
  case h_2 =>
    split
    · exact behind (.pure (Nat.le_refl _)) (by rw [isKind]; decide)
    · exact failed _
  case h_3 => exact behind (.pure (Nat.le_refl _)) (by rw [isKind]; decide)
  case h_4 => exact behind (.pure (Nat.le_refl _)) (by rw [isKind]; decide)
  case h_5 => exact behind (.pure (Nat.le_refl _)) (by rw [isKind]; decide)
  case h_6 =>
    exact behind ((solvent.pays _ one).bind fun _ => .pure (Nat.le_refl _))
      (by rw [isKind]; decide)
  case h_7 =>
    exact behind ((solvent.pays _ one).bind fun _ => .pure (Nat.le_refl _))
      (by rw [isKind]; decide)
  case h_8 => exact behind (pays_grouped solvent one) (by rw [isKind]; decide)
  case h_9 => exact behind (pays_conditional solvent one bound) (by rw [isKind]; decide)
  case h_10 => exact behind (pays_function solvent one bound) (by rw [isKind]; decide)
  case h_11 =>
    refine behind ((pays_commaSeparated (solvent.pays _) one bound _).bind fun elements =>
      .pure (Nat.le_of_eq ?_)) (by rw [isKind]; decide)
    rw [Expression.statementCount, statementCountOfAll_eq]
  case h_12 => exact behind (pays_hash solvent one bound) (by rw [isKind]; decide)
  case h_13 => exact failed _

/-! ### Continuations -/

section Continuations

variable {credit : Nat} (some : 0 < credit) (bound : Nat)

include some

theorem pays_continuation (left : Expression) (next : Continuation) :
    (continuation bound expression left next).Pays most (left.statementCount + credit)
      fun tree => tree.statementCount + credit := by
  have still : 0 < left.statementCount + credit := Nat.add_pos_right _ some
  cases next with
  | operation operator =>
    refine (solvent.pays _ still).bind fun right => .pure ?_
    rw [Expression.statementCount]
    omega
  | call =>
    refine (pays_commaSeparated (solvent.pays _) still bound _).bind fun arguments => .pure ?_
    rw [Expression.statementCount, statementCountOfAll_eq]
    omega
  | index =>
    refine (solvent.pays _ still).bind fun position =>
      (Pays.expect (Nat.add_pos_right _ still) _).bind fun _ => .pure ?_
    rw [Expression.statementCount]
    omega

theorem pays_continuations (floor : Precedence) (rounds : Nat) (left : Expression) :
    (continuations bound expression floor rounds left).Pays most (left.statementCount + credit)
      fun tree => tree.statementCount + credit := by
  induction rounds generalizing left with
  | zero => exact .pure (Nat.le_refl _)
  | succ rounds inductionHypothesis =>
    refine .peek fun token => ?_
    split
    · split
      · exact Pays.advance.bind fun _ =>
          (pays_continuation solvent some bound left _).bind fun larger =>
            inductionHypothesis larger
      · exact .pure (Nat.le_refl _)
    · exact .pure (Nat.le_refl _)

end Continuations

end Constructs

/-! ### Expressions -/

theorem solvent_expression (bound : Nat) : Solvent bound (expression bound) := by
  induction bound with
  | zero => exact fun _ _ short => absurd short (Nat.not_lt_zero _)
  | succ bound inductionHypothesis =>
    intro floor cursor short
    have enough := Nat.le_refl bound
    have alike := inStep_operand lockstep_eq (inStep_expression lockstep_eq enough enough) enough
      enough cursor cursor rfl short short
    have paid := paid_operand inductionHypothesis bound short
    rw [expression, on_bind]
    generalize (operand bound (expression bound)).on cursor = outcome at alike paid
    cases paid with
    | @ok left middle less =>
      cases alike with
      | ok _ fewer =>
        have goesOn := pays_continuations inductionHypothesis Nat.one_pos bound floor bound left
        exact (goesOn middle (by omega)).after less (by omega)
    | error less fewer => exact .error less fewer

/-! ### Whole programs -/

theorem tally_reading (tokens : List Token) :
    (Parsed.reading tokens).2.tally + statementCountOfBlock (Parsed.reading tokens).1 ≤
      properCount tokens := by
  have ends : endsProgram .endOfInput = true := rfl
  have paid : Paid (fun body => statementCountOfBlock body + 0) (0 + 0) (Cursor.ofTokens tokens)
      (.ok (Parsed.reading tokens).1, (Parsed.reading tokens).2) :=
    pays_statements (solvent_expression (tokens.length + 1)) ends (tokens.length + 1) [] 0
      (Cursor.ofTokens tokens) (Nat.lt_succ_self _)
  have start : (Cursor.ofTokens tokens).tally = properCount tokens := Nat.zero_add _
  cases paid with
  | ok enough => rwa [start] at enough

end Parser

/-- The parser finishes, and it accounts for its work. One parser recurs without any bound on the
nesting, and none of its loops ends because its rounds are used up. It reads every stream of tokens
up to an end of input, to the program and the diagnostics that the bounded parser yields. These
diagnostics and the statements in all blocks of the program are together no more than the tokens of
the stream that are no end of input. -/
theorem parsing_finishes (tokens : List Token) :
    ∃ expression last, Parser.Unbounded expression ∧
      (∀ other, Parser.Unbounded other → other = expression) ∧ Parser.LoopsEnd expression ∧
      (∀ rounds, tokens.length < rounds →
        StateT.run (statements expression endsProgram rounds []) (Cursor.ofTokens tokens) =
          ((Parsed.ofTokens tokens).program.statements, last)) ∧
      last.next.kind = .endOfInput ∧
      (Parsed.ofTokens tokens).diagnostics = last.diagnostics.toList ∧
      (Parsed.ofTokens tokens).diagnostics.length +
        (Parsed.ofTokens tokens).program.statementCount ≤ properCount tokens := by
  have loops := loopsEnd_unboundedExpression
  refine ⟨unboundedExpression, (Parsed.reading tokens).2, unbounded_unboundedExpression,
    fun _ => Unbounded.eq, loops, fun _ => run_statements_unboundedExpression, ?_, rfl, ?_⟩
  · have enough := Nat.lt_succ_self tokens.length
    have ends : endsProgram .endOfInput = true := rfl
    rw [Cursor.kind_next, ← run_statements_unboundedExpression enough]
    exact eq_of_beq (loops.statements ends enough)
  · refine Nat.le_trans (Nat.add_le_add_right ?_ _) (tally_reading tokens)
    rw [Parsed.ofTokens_eq, Array.length_toList]
    exact Nat.le_add_right _ _

end MonkeyLang
