/-
This file runs two parsers side by side. Of a token, a parser asks no more than
the kind and, unless it is the end of input, the text; so two cursors that agree
on these now and behind every step are read alike, and the parsers yield the same
trees or fail together. What else two such cursors have in common is said by a
relation, of which only a few things must be shown.

The two parsers may be given different bounds, as long as neither runs out
before the tokens do. To see this the induction counts the tokens that are left:
every expression and every statement leaves at least one behind.
-/

import MonkeyLang.Proofs.Parser.Soundness

namespace MonkeyLang

open MonkeyLang.Parser

/-! ### What a diagnostic says -/

namespace Diagnostic

/-- The diagnostic for the same reason on another line. -/
def onLine (line : Nat) : Diagnostic → Diagnostic
  | unexpected expected found _ => unexpected expected found line
  | noOperand found _ => noOperand found line
  | invalidInteger text _ => invalidInteger text line

/-- Two diagnostics differ in their lines at most. -/
def SameButLine (first second : Diagnostic) : Prop :=
  first.onLine second.line = second

/-- A diagnostic is about a token: it tells the line of the token, and its kind or its text. -/
def PointsAt (token : Token) : Diagnostic → Prop
  | unexpected _ found line => found = token.kind ∧ line = token.line
  | noOperand found line => found = token.kind ∧ line = token.line
  | invalidInteger text line => token.kind = .integer ∧ text = token.text ∧ line = token.line

theorem SameButLine.eq {first second : Diagnostic} (same : first.SameButLine second)
    (line : first.line = second.line) : first = second := by
  rw [SameButLine, ← line] at same
  rw [← same]
  cases first <;> rfl

theorem PointsAt.line_eq {token : Token} {diagnostic : Diagnostic}
    (points : diagnostic.PointsAt token) : diagnostic.line = token.line := by
  cases diagnostic with
  | unexpected | noOperand => exact points.2
  | invalidInteger => exact points.2.2

end Diagnostic

/-! ### Cursors in lockstep -/

/-- Cursors so related agree on what the next token is, and they are still related when both leave
it behind or keep a diagnostic about it. -/
structure Lockstep (related : Cursor → Cursor → Prop) : Prop where
  kind {cursor cursor' : Cursor} : related cursor cursor' →
    cursor'.next.kind = cursor.next.kind
  text {cursor cursor' : Cursor} : related cursor cursor' → cursor.next.kind ≠ .endOfInput →
    cursor'.next.text = cursor.next.text
  advance {cursor cursor' : Cursor} : related cursor cursor' →
    related cursor.advance cursor'.advance
  /-- The token stays unread. -/
  missed {cursor cursor' : Cursor} {diagnostic diagnostic' : Diagnostic} :
    related cursor cursor' → diagnostic.PointsAt cursor.next →
    diagnostic'.PointsAt cursor'.next → diagnostic.SameButLine diagnostic' →
    related (cursor.record diagnostic) (cursor'.record diagnostic')
  /-- The token is left behind. -/
  refused {cursor cursor' : Cursor} {diagnostic diagnostic' : Diagnostic} :
    related cursor cursor' → diagnostic.PointsAt cursor.next →
    diagnostic'.PointsAt cursor'.next → diagnostic.SameButLine diagnostic' →
    related (cursor.advance.record diagnostic) (cursor'.advance.record diagnostic')

/-- A parser that runs beside itself. What holds of its cursor still holds when a token is left
behind and when a diagnostic is kept. -/
theorem Lockstep.alone {holds : Cursor → Prop}
    (advance : ∀ {cursor : Cursor}, holds cursor → holds cursor.advance)
    (missed : ∀ {cursor : Cursor} {diagnostic : Diagnostic}, holds cursor →
      diagnostic.PointsAt cursor.next → holds (cursor.record diagnostic))
    (refused : ∀ {cursor : Cursor} {diagnostic : Diagnostic}, holds cursor →
      diagnostic.PointsAt cursor.next → holds (cursor.advance.record diagnostic)) :
    Lockstep fun cursor cursor' => cursor = cursor' ∧ holds cursor where
  kind := by
    rintro cursor _ ⟨rfl, -⟩
    rfl
  text := by
    rintro cursor _ ⟨rfl, -⟩ -
    rfl
  advance := by
    rintro cursor _ ⟨rfl, held⟩
    exact ⟨rfl, advance held⟩
  missed := by
    rintro cursor _ diagnostic diagnostic' ⟨rfl, held⟩ points points' same
    obtain rfl := same.eq (points.line_eq.trans points'.line_eq.symm)
    exact ⟨rfl, missed held points⟩
  refused := by
    rintro cursor _ diagnostic diagnostic' ⟨rfl, held⟩ points points' same
    obtain rfl := same.eq (points.line_eq.trans points'.line_eq.symm)
    exact ⟨rfl, refused held points⟩

/-- Two outcomes are the same tree or both a failure, in front of cursors that are related once
the diagnostics of a failure have been kept. So many tokens at least were left behind, if there
were any. -/
inductive Alike {α : Type} (related : Cursor → Cursor → Prop) (taken : Nat)
    (cursor cursor' : Cursor) : Except Diagnostic α × Cursor → Except Diagnostic α × Cursor → Prop
  | ok {tree : α} {last last' : Cursor} : related last last' →
      last.rest.length + taken ≤ cursor.rest.length →
      last'.rest.length + taken ≤ cursor'.rest.length →
      Alike related taken cursor cursor' (.ok tree, last) (.ok tree, last')
  | error {diagnostic diagnostic' : Diagnostic} {last last' : Cursor} :
      related (last.record diagnostic) (last'.record diagnostic') →
      last.rest.length ≤ cursor.rest.length - taken →
      last'.rest.length ≤ cursor'.rest.length - taken →
      Alike related taken cursor cursor' (.error diagnostic, last) (.error diagnostic', last')

/-- Two parsers have like outcomes in front of related cursors with fewer tokens than the bound. -/
def Parser.InStep {α : Type} (related : Cursor → Cursor → Prop) (bound taken : Nat)
    (parser parser' : Parser α) : Prop :=
  ∀ cursor cursor', related cursor cursor' → cursor.rest.length < bound →
    cursor'.rest.length < bound →
    Alike related taken cursor cursor' (parser.on cursor) (parser'.on cursor')

theorem Cursor.length_advance_le (cursor : Cursor) :
    cursor.advance.rest.length ≤ cursor.rest.length := by
  rw [length_rest_advance]
  exact Nat.sub_le _ _

/-- Where something is ahead, one token fewer is ahead behind it. -/
theorem Cursor.length_advance {cursor : Cursor} (more : cursor.next.kind ≠ .endOfInput) :
    cursor.advance.rest.length + 1 = cursor.rest.length := by
  rw [kind_next] at more
  obtain ⟨terminal, rest, ahead, -⟩ := exists_cons_of_headKind rfl more
  have length := congrArg List.length ahead
  rw [length_terminals, List.length_cons] at length
  rw [length_rest_advance]
  omega

section Steps

variable {α β : Type} {related : Cursor → Cursor → Prop} {bound taken : Nat}
  {cursor cursor' : Cursor}

theorem Alike.weaken {outcome outcome' : Except Diagnostic α × Cursor}
    (alike : Alike related taken cursor cursor' outcome outcome') :
    Alike related 0 cursor cursor' outcome outcome' := by
  cases alike with
  | ok isRelated fewer fewer' =>
    exact .ok isRelated (Nat.le_trans (Nat.le_add_right _ _) fewer)
      (Nat.le_trans (Nat.le_add_right _ _) fewer')
  | error isRelated fewer fewer' =>
    exact .error isRelated (Nat.le_trans fewer (Nat.sub_le _ _))
      (Nat.le_trans fewer' (Nat.sub_le _ _))

theorem Alike.of_ok {tree tree' : α} {last last' : Cursor}
    (alike : Alike related taken cursor cursor' (.ok tree, last) (.ok tree', last')) :
    tree = tree' ∧ related last last' := by
  cases alike with
  | ok isRelated => exact ⟨rfl, isRelated⟩

/-- What is alike in front of fewer tokens is alike. -/
theorem Alike.further {outcome outcome' : Except Diagnostic α × Cursor} {middle middle' : Cursor}
    (alike : Alike related 0 middle middle' outcome outcome')
    (fewer : middle.rest.length ≤ cursor.rest.length)
    (fewer' : middle'.rest.length ≤ cursor'.rest.length) :
    Alike related 0 cursor cursor' outcome outcome' := by
  cases alike with
  | ok isRelated less less' =>
    exact .ok isRelated (Nat.le_trans less fewer) (Nat.le_trans less' fewer')
  | error isRelated less less' =>
    exact .error isRelated (Nat.le_trans less fewer) (Nat.le_trans less' fewer')

namespace Parser.InStep

theorem mono {parser parser' : Parser α} {least : Nat}
    (inStep : InStep related bound taken parser parser') (less : least ≤ bound) :
    InStep related least taken parser parser' :=
  fun cursor cursor' isRelated short short' =>
    inStep cursor cursor' isRelated (Nat.lt_of_lt_of_le short less)
      (Nat.lt_of_lt_of_le short' less)

theorem weaken {parser parser' : Parser α} (inStep : InStep related bound taken parser parser') :
    InStep related bound 0 parser parser' :=
  fun cursor cursor' isRelated short short' =>
    (inStep cursor cursor' isRelated short short').weaken

theorem pure (tree : α) : InStep related bound 0 (Pure.pure tree) (Pure.pure tree) :=
  fun _ _ isRelated _ _ => .ok isRelated (Nat.le_refl _) (Nat.le_refl _)

/-- What is read behind something else has fewer tokens ahead. -/
theorem bind {parser parser' : Parser α} {next next' : α → Parser β}
    (first : InStep related bound taken parser parser')
    (second : ∀ tree, InStep related (bound - taken) 0 (next tree) (next' tree)) :
    InStep related bound taken (parser >>= next) (parser' >>= next') := by
  intro cursor cursor' isRelated short short'
  rw [on_bind, on_bind]
  have alike := first cursor cursor' isRelated short short'
  generalize parser.on cursor = outcome, parser'.on cursor' = outcome' at alike
  cases alike with
  | @ok tree last last' isRelated fewer fewer' =>
    have alike := second tree last last' isRelated (by omega) (by omega)
    dsimp only
    generalize (next tree).on last = outcome, (next' tree).on last' = outcome' at alike
    cases alike with
    | ok isRelated less less' => exact .ok isRelated (by omega) (by omega)
    | error isRelated less less' => exact .error isRelated (by omega) (by omega)
  | error isRelated fewer fewer' => exact .error isRelated fewer fewer'

variable (lockstep : Lockstep related)

include lockstep

/-- What is done about the next token depends on its kind. -/
theorem peek {next next' : Token → Parser β}
    (second : ∀ token token', token'.kind = token.kind →
      InStep related bound taken (next token) (next' token')) :
    InStep related bound taken (liftM Parser.peek >>= next) (liftM Parser.peek >>= next') :=
  fun cursor cursor' isRelated =>
    second cursor.next cursor'.next (lockstep.kind isRelated) cursor cursor' isRelated

theorem advance :
    InStep related bound 0 (liftM Parser.advance : Parser Unit) (liftM Parser.advance) :=
  fun cursor cursor' isRelated _ _ =>
    .ok (lockstep.advance isRelated) cursor.length_advance_le cursor'.length_advance_le

/-- What is read behind a token that is there takes that token too. -/
theorem behind {parser parser' : Parser α} (inStep : InStep related bound 0 parser parser')
    (isRelated : related cursor cursor') (more : cursor.next.kind ≠ .endOfInput)
    (short : cursor.rest.length ≤ bound) (short' : cursor'.rest.length ≤ bound) :
    Alike related 1 cursor cursor' (parser.on cursor.advance) (parser'.on cursor'.advance) := by
  have length := Cursor.length_advance more
  have length' := Cursor.length_advance (lockstep.kind isRelated ▸ more)
  have alike := inStep _ _ (lockstep.advance isRelated) (by omega) (by omega)
  generalize parser.on cursor.advance = outcome, parser'.on cursor'.advance = outcome' at alike
  cases alike with
  | ok isRelated fewer fewer' => exact .ok isRelated (by omega) (by omega)
  | error isRelated fewer fewer' => exact .error isRelated (by omega) (by omega)

theorem skip (kind : Kind) :
    InStep related bound 0 (liftM (Parser.skip kind) : Parser Unit)
      (liftM (Parser.skip kind)) := by
  intro cursor cursor' isRelated short short'
  rw [on_lift, on_lift, run_skip, run_skip, lockstep.kind isRelated]
  split
  · exact advance lockstep cursor cursor' isRelated short short'
  · exact .ok isRelated (Nat.le_refl _) (Nat.le_refl _)

/-- Only the text of the token that was required is of use, and not that of the end of input. -/
theorem expect {kind : Kind} {next next' : Token → Parser β}
    (second : ∀ token token', (kind ≠ .endOfInput → token'.text = token.text) →
      InStep related bound 0 (next token) (next' token')) :
    InStep related bound 0 (Parser.expect kind >>= next) (Parser.expect kind >>= next') := by
  intro cursor cursor' isRelated short short'
  have sameKind := lockstep.kind isRelated
  rw [on_bind, on_bind, expect_on, expect_on, sameKind]
  by_cases found : cursor.next.kind = kind
  · rw [if_pos found, if_pos found]
    have inStep := (advance lockstep).bind fun _ =>
      second _ _ fun noEnd => lockstep.text isRelated (found ▸ noEnd)
    exact inStep cursor cursor' isRelated short short'
  · rw [if_neg found, if_neg found]
    refine .error (lockstep.missed isRelated ?_ ?_ rfl) (Nat.le_refl _) (Nat.le_refl _)
    · exact ⟨rfl, rfl⟩
    · exact ⟨sameKind.symm, rfl⟩

theorem parameter : InStep related bound 0 Parser.parameter Parser.parameter := by
  intro cursor cursor' isRelated short short'
  have sameKind := lockstep.kind isRelated
  have fewer := cursor.length_advance_le
  have fewer' := cursor'.length_advance_le
  rw [Parser.parameter, on_lift_bind, on_lift_bind, run_take, run_take, sameKind]
  dsimp only
  by_cases found : cursor.next.kind = .identifier
  · rw [if_pos found, if_pos found, lockstep.text isRelated (by rw [found]; decide)]
    exact .ok (lockstep.advance isRelated) fewer fewer'
  · rw [if_neg found, if_neg found]
    refine .error (lockstep.refused isRelated ?_ ?_ rfl) fewer fewer'
    · exact ⟨rfl, rfl⟩
    · exact ⟨sameKind.symm, rfl⟩

end Parser.InStep

end Steps

/-! ### Lists -/

namespace Parser

section Constructs

variable {α : Type} {related : Cursor → Cursor → Prop} (lockstep : Lockstep related) {most : Nat}

include lockstep

section Lists

variable {item item' : Parser α} (steps : InStep related most 0 item item')

include steps

theorem inStep_moreItems {rounds rounds' : Nat} (enough : most ≤ rounds)
    (enough' : most ≤ rounds') (found : List α) :
    InStep related most 0 (moreItems item rounds found) (moreItems item' rounds' found) := by
  induction most generalizing rounds rounds' found with
  | zero => exact fun _ _ _ short => absurd short (Nat.not_lt_zero _)
  | succ most inductionHypothesis =>
    obtain ⟨rounds, rfl⟩ := Nat.exists_eq_add_of_lt enough
    obtain ⟨rounds', rfl⟩ := Nat.exists_eq_add_of_lt enough'
    intro cursor cursor' isRelated short short'
    have sameKind := lockstep.kind isRelated
    rw [moreItems, moreItems, on_lift_bind, on_lift_bind, run_peek, run_peek]
    dsimp only
    rw [sameKind]
    by_cases isComma : cursor.next.kind = .comma
    · have more : cursor.next.kind ≠ .endOfInput := by rw [isComma]; decide
      have steps' := steps.mono (Nat.le_succ most)
      have behind := steps'.bind fun tree =>
        inductionHypothesis steps' (Nat.le_add_right most rounds) (Nat.le_add_right most rounds')
          (tree :: found)
      rw [if_pos isComma, if_pos isComma, on_lift_bind, on_lift_bind, run_advance, run_advance]
      exact (behind.behind lockstep isRelated more (Nat.le_of_lt_succ short)
        (Nat.le_of_lt_succ short')).weaken
    · rw [if_neg isComma, if_neg isComma]
      exact .ok isRelated (Nat.le_refl _) (Nat.le_refl _)

theorem inStep_commaSeparated {bound bound' : Nat} (enough : most ≤ bound)
    (enough' : most ≤ bound') (close : Kind) :
    InStep related most 0 (commaSeparated bound close item)
      (commaSeparated bound' close item') := by
  refine .peek lockstep fun token token' sameKind => ?_
  rw [sameKind]
  split
  · exact (InStep.advance lockstep).bind fun _ => .pure []
  · exact steps.bind fun first =>
      (inStep_moreItems lockstep steps enough enough' [first]).bind fun items =>
        .expect lockstep fun _ _ _ => .pure items

end Lists

variable {expression expression' : Precedence → Parser Expression}
  (steps : ∀ floor, InStep related most 1 (expression floor) (expression' floor))

include steps

/-! ### Statements -/

theorem inStep_statement :
    InStep related most 1 (statement expression) (statement expression') := by
  intro cursor cursor' isRelated short short'
  have sameKind := lockstep.kind isRelated
  have value := (steps .lowest).weaken
  rw [statement, statement, on_lift_bind, on_lift_bind, run_peek, run_peek]
  dsimp only
  rw [sameKind]
  -- A keyword is behind the next cursor, and everything else is read from there.
  have behind {parser parser' : Parser Statement} (inStep : InStep related most 0 parser parser')
      (more : cursor.next.kind ≠ .endOfInput) :
      Alike related 1 cursor cursor' (parser.on cursor.advance) (parser'.on cursor'.advance) :=
    inStep.behind lockstep isRelated more (Nat.le_of_lt short) (Nat.le_of_lt short')
  split
  · next isLet =>
    rw [on_lift_bind, on_lift_bind, run_advance, run_advance]
    refine behind (.expect lockstep fun name name' sameText => .expect lockstep fun _ _ _ =>
      value.bind fun tree => (InStep.skip lockstep _).bind fun _ => ?_) (by rw [isLet]; decide)
    rw [sameText (by decide)]
    exact .pure _
  · next isReturn =>
    rw [on_lift_bind, on_lift_bind, run_advance, run_advance]
    exact behind (value.bind fun tree => (InStep.skip lockstep _).bind fun _ => .pure _)
      (by rw [isReturn]; decide)
  · exact (steps .lowest).bind (fun tree => (InStep.skip lockstep _).bind fun _ => .pure _)
      cursor cursor' isRelated short short'

/-- Statements go on as long as a token is there for each, so the end of input must stop them. -/
theorem inStep_statements {stops : Kind → Bool} (ends : stops .endOfInput = true)
    {rounds rounds' : Nat} (enough : most ≤ rounds) (enough' : most ≤ rounds')
    (found : List Statement) :
    InStep related most 0 (liftM (statements expression stops rounds found) : Parser _)
      (liftM (statements expression' stops rounds' found)) := by
  induction most generalizing rounds rounds' found with
  | zero => exact fun _ _ _ short => absurd short (Nat.not_lt_zero _)
  | succ most inductionHypothesis =>
    obtain ⟨rounds, rfl⟩ := Nat.exists_eq_add_of_lt enough
    obtain ⟨rounds', rfl⟩ := Nat.exists_eq_add_of_lt enough'
    intro cursor cursor' isRelated short short'
    have sameKind := lockstep.kind isRelated
    rw [on_lift, on_lift, run_statements_succ, run_statements_succ, ← Cursor.kind_next,
      ← Cursor.kind_next, sameKind]
    by_cases stop : stops cursor.next.kind = true
    · rw [if_pos stop, if_pos stop]
      exact .ok isRelated (Nat.le_refl _) (Nat.le_refl _)
    · rw [if_neg stop, if_neg stop]
      have more : cursor.next.kind ≠ .endOfInput := fun isEnd => stop (isEnd ▸ ends)
      have length := Cursor.length_advance more
      have length' := Cursor.length_advance (sameKind ▸ more)
      have alike := inStep_statement lockstep steps cursor cursor' isRelated short short'
      have goesOn (found : List Statement) {last last' : Cursor} (isRelated : related last last')
          (fewer : last.rest.length < cursor.rest.length)
          (fewer' : last'.rest.length < cursor'.rest.length) :=
        (inductionHypothesis (fun floor => (steps floor).mono (Nat.le_succ most))
          (Nat.le_add_right most rounds) (Nat.le_add_right most rounds') found last last'
          isRelated (by omega) (by omega)).further (Nat.le_of_lt fewer) (Nat.le_of_lt fewer')
      generalize (statement expression).on cursor = outcome,
        (statement expression').on cursor' = outcome' at alike
      cases alike with
      | @ok tree _ _ isRelated fewer fewer' => exact goesOn (tree :: found) isRelated fewer fewer'
      | @error diagnostic diagnostic' last last' isRelated fewer fewer' =>
        have left : (last.record diagnostic).rest.length < cursor.rest.length := by
          show last.rest.length < _
          omega
        have left' : (last'.record diagnostic').rest.length < cursor'.rest.length := by
          show last'.rest.length < _
          omega
        exact goesOn found isRelated left left'

theorem inStep_block {bound bound' : Nat} (enough : most ≤ bound) (enough' : most ≤ bound') :
    InStep related most 0 (block bound expression) (block bound' expression') :=
  .expect lockstep fun _ _ _ =>
    (inStep_statements lockstep steps rfl enough enough' []).bind fun body =>
      (InStep.advance lockstep).bind fun _ => .pure body

/-! ### Operands -/

theorem inStep_grouped :
    InStep related most 0 (grouped expression) (grouped expression') :=
  (steps .lowest).weaken.bind fun tree => .expect lockstep fun _ _ _ => .pure tree

theorem inStep_conditional {bound bound' : Nat} (enough : most ≤ bound)
    (enough' : most ≤ bound') :
    InStep related most 0 (conditional bound expression) (conditional bound' expression') := by
  refine .expect lockstep fun _ _ _ => (inStep_grouped lockstep steps).bind fun condition =>
    (inStep_block lockstep steps enough enough').bind fun consequence =>
      .peek lockstep fun token token' sameKind => ?_
  rw [sameKind]
  split
  · exact (InStep.advance lockstep).bind fun _ =>
      (inStep_block lockstep steps enough enough').bind fun _ => .pure _
  · exact .pure _

theorem inStep_function {bound bound' : Nat} (enough : most ≤ bound) (enough' : most ≤ bound') :
    InStep related most 0 (function bound expression) (function bound' expression') :=
  .expect lockstep fun _ _ _ =>
    (inStep_commaSeparated lockstep (InStep.parameter lockstep) enough enough' _).bind fun _ =>
      (inStep_block lockstep steps enough enough').bind fun _ => .pure _

theorem inStep_pairs {rounds rounds' : Nat} (enough : most ≤ rounds) (enough' : most ≤ rounds')
    (found : List (Expression × Expression)) :
    InStep related most 0 (pairs expression rounds found) (pairs expression' rounds' found) := by
  induction most generalizing rounds rounds' found with
  | zero => exact fun _ _ _ short => absurd short (Nat.not_lt_zero _)
  | succ most inductionHypothesis =>
    obtain ⟨rounds, rfl⟩ := Nat.exists_eq_add_of_lt enough
    obtain ⟨rounds', rfl⟩ := Nat.exists_eq_add_of_lt enough'
    have steps' floor := (steps floor).mono (Nat.le_succ most)
    have goesOn found :=
      inductionHypothesis steps' (Nat.le_add_right most rounds) (Nat.le_add_right most rounds')
        found
    refine .peek lockstep fun token token' sameKind => ?_
    rw [sameKind]
    split
    · exact .pure _
    · refine ((steps .lowest).bind fun key => .expect lockstep fun _ _ _ =>
        (steps' .lowest).weaken.bind fun value =>
          .peek lockstep fun token token' sameKind => ?_).weaken
      rw [sameKind]
      split
      · exact .expect lockstep fun _ _ _ => goesOn _
      · exact goesOn _

theorem inStep_hash {bound bound' : Nat} (enough : most ≤ bound) (enough' : most ≤ bound') :
    InStep related most 0 (hash bound expression) (hash bound' expression') :=
  (inStep_pairs lockstep steps enough enough' []).bind fun _ =>
    .expect lockstep fun _ _ _ => .pure _

/-- An operand leaves its first token behind whatever it is, so one token more may be ahead. -/
theorem inStep_operand {bound bound' : Nat} (enough : most ≤ bound) (enough' : most ≤ bound') :
    InStep related (most + 1) 1 (operand bound expression) (operand bound' expression') := by
  intro cursor cursor' isRelated short short'
  have sameKind := lockstep.kind isRelated
  have length := Cursor.length_rest_advance cursor
  have length' := Cursor.length_rest_advance cursor'
  have sameText := lockstep.text isRelated
  rw [operand, operand, on_lift_bind, on_lift_bind, run_take, run_take]
  dsimp only
  rw [sameKind]
  have failed {diagnostic diagnostic' : Diagnostic} (points : diagnostic.PointsAt cursor.next)
      (points' : diagnostic'.PointsAt cursor'.next) (same : diagnostic.SameButLine diagnostic') :
      Alike related 1 cursor cursor'
        ((throw diagnostic : Parser Expression).on cursor.advance)
        ((throw diagnostic' : Parser Expression).on cursor'.advance) :=
    .error (lockstep.refused isRelated points points' same) (by omega) (by omega)
  have behind {parser parser' : Parser Expression} (inStep : InStep related most 0 parser parser')
      (more : cursor.next.kind ≠ .endOfInput) :
      Alike related 1 cursor cursor' (parser.on cursor.advance) (parser'.on cursor'.advance) :=
    inStep.behind lockstep isRelated more (Nat.le_of_lt_succ short) (Nat.le_of_lt_succ short')
  generalize isKind : cursor.next.kind = kind at sameText
  split
  case h_1 =>
    rw [sameText (by decide)]
    exact behind (.pure _) (by rw [isKind]; decide)
  case h_2 =>
    rw [sameText (by decide)]
    split
    · exact behind (.pure _) (by rw [isKind]; decide)
    · exact failed ⟨isKind, rfl, rfl⟩
        ⟨sameKind.trans isKind, (sameText (by decide)).symm, rfl⟩ rfl
  case h_3 =>
    rw [sameText (by decide)]
    exact behind (.pure _) (by rw [isKind]; decide)
  case h_4 => exact behind (.pure _) (by rw [isKind]; decide)
  case h_5 => exact behind (.pure _) (by rw [isKind]; decide)
  case h_6 =>
    exact behind ((steps .unary).weaken.bind fun _ => .pure _) (by rw [isKind]; decide)
  case h_7 =>
    exact behind ((steps .unary).weaken.bind fun _ => .pure _) (by rw [isKind]; decide)
  case h_8 => exact behind (inStep_grouped lockstep steps) (by rw [isKind]; decide)
  case h_9 =>
    exact behind (inStep_conditional lockstep steps enough enough') (by rw [isKind]; decide)
  case h_10 =>
    exact behind (inStep_function lockstep steps enough enough') (by rw [isKind]; decide)
  case h_11 =>
    exact behind ((inStep_commaSeparated lockstep (steps .lowest).weaken enough enough' _).bind
      fun _ => .pure _) (by rw [isKind]; decide)
  case h_12 => exact behind (inStep_hash lockstep steps enough enough') (by rw [isKind]; decide)
  case h_13 => exact failed ⟨isKind.symm, rfl⟩ ⟨(sameKind.trans isKind).symm, rfl⟩ rfl

/-! ### Continuations -/

theorem inStep_continuation {bound bound' : Nat} (enough : most ≤ bound)
    (enough' : most ≤ bound') (left : Expression) (next : Continuation) :
    InStep related most 0 (continuation bound expression left next)
      (continuation bound' expression' left next) := by
  cases next with
  | operation operator => exact (steps _).weaken.bind fun _ => .pure _
  | call =>
    exact (inStep_commaSeparated lockstep (steps .lowest).weaken enough enough' _).bind fun _ =>
      .pure _
  | index => exact (steps _).weaken.bind fun _ => .expect lockstep fun _ _ _ => .pure _

theorem inStep_continuations {bound bound' : Nat} (enough : most ≤ bound)
    (enough' : most ≤ bound') {rounds rounds' : Nat} (enoughRounds : most ≤ rounds)
    (enoughRounds' : most ≤ rounds') (floor : Precedence) (left : Expression) :
    InStep related most 0 (continuations bound expression floor rounds left)
      (continuations bound' expression' floor rounds' left) := by
  induction most generalizing rounds rounds' left with
  | zero => exact fun _ _ _ short => absurd short (Nat.not_lt_zero _)
  | succ most inductionHypothesis =>
    obtain ⟨rounds, rfl⟩ := Nat.exists_eq_add_of_lt enoughRounds
    obtain ⟨rounds', rfl⟩ := Nat.exists_eq_add_of_lt enoughRounds'
    have steps' floor := (steps floor).mono (Nat.le_succ most)
    have less := Nat.le_of_succ_le enough
    have less' := Nat.le_of_succ_le enough'
    intro cursor cursor' isRelated short short'
    have sameKind := lockstep.kind isRelated
    rw [continuations, continuations, on_lift_bind, on_lift_bind, run_peek, run_peek]
    dsimp only
    rw [sameKind]
    split
    · next next found =>
      have more : cursor.next.kind ≠ .endOfInput := by
        intro isEnd
        rw [isEnd] at found
        cases found
      split
      · rw [on_lift_bind, on_lift_bind, run_advance, run_advance]
        have behind := (inStep_continuation lockstep steps' less less' left next).bind
          fun larger => inductionHypothesis steps' less less' (Nat.le_add_right most rounds)
            (Nat.le_add_right most rounds') larger
        exact (behind.behind lockstep isRelated more (Nat.le_of_lt_succ short)
          (Nat.le_of_lt_succ short')).weaken
      · exact .ok isRelated (Nat.le_refl _) (Nat.le_refl _)
    · exact .ok isRelated (Nat.le_refl _) (Nat.le_refl _)

/-- An expression is an operand and all that continues it. The operand leaves a token behind, so the
expressions inside have fewer tokens ahead. -/
theorem inStep_continued {bound bound' : Nat} (enough : most ≤ bound) (enough' : most ≤ bound')
    (floor : Precedence) :
    InStep related (most + 1) 1
      (operand bound expression >>= continuations bound expression floor bound)
      (operand bound' expression' >>= continuations bound' expression' floor bound') :=
  (inStep_operand lockstep steps enough enough').bind fun left =>
    inStep_continuations lockstep steps enough enough' enough enough' floor left

end Constructs

/-! ### Expressions -/

/-- Whatever their bounds, two parsers read related cursors alike, if the bounds exceed the number
of tokens ahead. -/
theorem inStep_expression {related : Cursor → Cursor → Prop} (lockstep : Lockstep related)
    {most bound bound' : Nat} (enough : most ≤ bound) (enough' : most ≤ bound')
    (floor : Precedence) :
    InStep related most 1 (expression bound floor) (expression bound' floor) := by
  induction most generalizing bound bound' floor with
  | zero => exact fun _ _ _ short => absurd short (Nat.not_lt_zero _)
  | succ most inductionHypothesis =>
    obtain ⟨bound, rfl⟩ := Nat.exists_eq_add_of_lt enough
    obtain ⟨bound', rfl⟩ := Nat.exists_eq_add_of_lt enough'
    have less := Nat.le_add_right most bound
    have less' := Nat.le_add_right most bound'
    rw [expression, expression]
    exact inStep_continued lockstep (inductionHypothesis less less') less less' floor

end Parser

/-! ### Whole programs -/

/-- Reads a program from a stream of tokens and keeps the cursor behind it. -/
def Parsed.reading (tokens : List Token) : List Statement × Cursor :=
  StateT.run (statements (expression (tokens.length + 1)) endsProgram (tokens.length + 1) [])
    (Cursor.ofTokens tokens)

theorem Parsed.ofTokens_eq (tokens : List Token) :
    ofTokens tokens = ⟨⟨(reading tokens).1⟩, (reading tokens).2.diagnostics.toList⟩ := rfl

/-- From related streams the same program is read, and the cursors behind it are still related. -/
theorem Lockstep.reading {related : Cursor → Cursor → Prop} (lockstep : Lockstep related)
    {tokens tokens' : List Token} (length : tokens.length = tokens'.length)
    (start : related (Cursor.ofTokens tokens) (Cursor.ofTokens tokens')) :
    (Parsed.reading tokens).1 = (Parsed.reading tokens').1 ∧
      related (Parsed.reading tokens).2 (Parsed.reading tokens').2 := by
  have short : tokens.length < tokens.length + 1 := Nat.lt_succ_self _
  have short' : tokens'.length < tokens.length + 1 := length ▸ short
  have enough := Nat.le_refl (tokens.length + 1)
  have enough' : tokens.length + 1 ≤ tokens'.length + 1 := Nat.succ_le_succ (Nat.le_of_eq length)
  have ends : endsProgram .endOfInput = true := rfl
  exact (inStep_statements lockstep (inStep_expression lockstep enough enough') ends enough enough'
    [] _ _ start short short').of_ok

end MonkeyLang
