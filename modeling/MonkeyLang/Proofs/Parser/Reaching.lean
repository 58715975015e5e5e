/-
This file follows the parser to the places it comes to. A program is read by
loops over statements, one for the program and one for each block; a statement
is read by parsers one behind another and one inside another. The first of them
that fails makes the statement fail, with the same diagnostic and at the same
token. Then the innermost loop leaves the statement out, keeps the diagnostic and
goes on, and nothing that is read later takes the diagnostic away.

It is the other way round as well: every diagnostic of a program is that of a
statement which some loop has left out.
-/

import MonkeyLang.Proofs.Parser.Lockstep

namespace MonkeyLang

namespace Parser

/-! ### Parsers inside others -/

/-- In front of a cursor, a parser comes to a goal in front of a target: the parts before the goal
have succeeded, and the goal is the very next part. All parts do nothing to their cursor but move
it. What a parser only attempts is no part of it. -/
inductive ComesTo {β : Type} (goal : Parser β) (target : Cursor) :
    {α : Type} → Parser α → Cursor → Prop
  | here : ComesTo goal target goal target
  | first {α γ : Type} {parser : Parser α} {next : α → Parser γ} {cursor : Cursor} :
      (∀ tree, (next tree).Moves) → ComesTo goal target parser cursor →
      ComesTo goal target (parser >>= next) cursor
  | behind {α γ : Type} {parser : Parser α} {next : α → Parser γ} {tree : α}
      {cursor middle : Cursor} : parser.Moves → parser.on cursor = (.ok tree, middle) →
      ComesTo goal target (next tree) middle → ComesTo goal target (parser >>= next) cursor

namespace ComesTo

variable {α β γ : Type} {goal : Parser β} {parser : Parser α} {target cursor : Cursor}

theorem trans {between : Parser γ} {middle : Cursor} (comes : ComesTo goal target between middle)
    (further : ComesTo between middle parser cursor) : ComesTo goal target parser cursor := by
  induction further with
  | here => exact comes
  | first moves _ inductionHypothesis => exact .first moves inductionHypothesis
  | behind moves reads _ inductionHypothesis => exact .behind moves reads inductionHypothesis

/-- A parser fails as its part does. -/
theorem fails (comes : ComesTo goal target parser cursor) {diagnostic : Diagnostic} {last : Cursor}
    (failed : goal.on target = (.error diagnostic, last)) :
    parser.on cursor = (.error diagnostic, last) := by
  induction comes with
  | here => exact failed
  | first _ _ inductionHypothesis => rw [on_bind, inductionHypothesis]
  | behind _ reads _ inductionHypothesis =>
    rw [on_bind, reads]
    exact inductionHypothesis

/-- Tokens may have been left behind on the way to the part. -/
theorem moves_target (comes : ComesTo goal target parser cursor) : cursor.Moves target := by
  induction comes with
  | here => exact .refl
  | first _ _ inductionHypothesis => exact inductionHypothesis
  | behind moves reads _ inductionHypothesis =>
    exact (moves.of_on_eq reads).trans inductionHypothesis

/-- From where the part ends, the parser goes on to its own end. -/
theorem moves_end (comes : ComesTo goal target parser cursor) :
    (goal.on target).2.Moves (parser.on cursor).2 := by
  induction comes with
  | here => exact .refl
  | @first _ _ parser next cursor moves _ inductionHypothesis =>
    rw [on_bind]
    rcases outcome : parser.on cursor with ⟨_ | tree, middle⟩
    · rwa [outcome] at inductionHypothesis
    · rw [outcome] at inductionHypothesis
      exact inductionHypothesis.trans (moves tree middle)
  | behind _ reads _ inductionHypothesis =>
    rw [on_bind, reads]
    exact inductionHypothesis

end ComesTo

/-! ### Loops over statements -/

/-- A loop over statements between two of its rounds. -/
structure Loop where
  /-- How deeply the expressions may nest. -/
  bound : Nat
  /-- The kinds that end the loop. -/
  stops : Kind → Bool
  /-- How many rounds are left. -/
  rounds : Nat
  /-- The statements found so far, latest first. -/
  found : List Statement
  cursor : Cursor

namespace Loop

/-- The loop over the statements of a program. -/
def ofTokens (tokens : List Token) : Loop :=
  ⟨tokens.length + 1, endsProgram, tokens.length + 1, [], Cursor.ofTokens tokens⟩

/-- The loop over the statements of a block, behind its opening brace. -/
def ofBlock (bound : Nat) (cursor : Cursor) : Loop :=
  ⟨bound, endsBlock, bound, [], cursor.advance⟩

variable (loop : Loop)

/-- What the loop yields, and the cursor behind it. -/
def run : List Statement × Cursor :=
  StateT.run (statements (expression loop.bound) loop.stops loop.rounds loop.found) loop.cursor

/-- The loop has another round. -/
structure GoesOn : Prop where
  more : loop.rounds ≠ 0
  unstopped : loop.stops loop.cursor.next.kind = false

/-- What comes of the statement of the round. -/
def outcome : Except Diagnostic Statement × Cursor :=
  (statement (expression loop.bound)).on loop.cursor

/-- The loop behind a statement that has been read. -/
def withStatement (tree : Statement) (last : Cursor) : Loop :=
  { loop with rounds := loop.rounds - 1, found := tree :: loop.found, cursor := last }

/-- The loop behind a statement that has been left out. -/
def withoutStatement (diagnostic : Diagnostic) (last : Cursor) : Loop :=
  { loop with rounds := loop.rounds - 1, cursor := last.record diagnostic }

variable {loop : Loop} {tokens : List Token} {diagnostic : Diagnostic} {last : Cursor}

theorem moves_run (loop : Loop) : loop.cursor.Moves loop.run.2 :=
  moves_statements (moves_expression _) _ _ _ _

theorem run_of_goesOn (goesOn : loop.GoesOn) :
    loop.run = match loop.outcome with
      | (.ok tree, last) => (loop.withStatement tree last).run
      | (.error diagnostic, last) => (loop.withoutStatement diagnostic last).run := by
  obtain ⟨bound, stops, rounds, found, cursor⟩ := loop
  obtain ⟨rounds, rfl⟩ := Nat.exists_eq_succ_of_ne_zero goesOn.more
  have unstopped : ¬ stops (headKind cursor.terminals) = true := by
    rw [← Cursor.kind_next, Bool.not_eq_true]
    exact goesOn.unstopped
  exact run_statements_succ.trans (if_neg unstopped)

theorem run_of_not_goesOn (ends : ¬ loop.GoesOn) :
    loop.run = (loop.found.reverse, loop.cursor) := by
  obtain ⟨bound, stops, rounds, found, cursor⟩ := loop
  cases rounds with
  | zero => rfl
  | succ rounds =>
    have stop : stops (headKind cursor.terminals) = true := by
      rw [← Cursor.kind_next]
      exact eq_true_of_ne_false fun unstopped => ends ⟨Nat.succ_ne_zero rounds, unstopped⟩
    exact run_statements_succ.trans (if_pos stop)

theorem run_withStatement (goesOn : loop.GoesOn) {tree : Statement}
    (reads : loop.outcome = (.ok tree, last)) : loop.run = (loop.withStatement tree last).run := by
  rw [run_of_goesOn goesOn, reads]

theorem run_withoutStatement (goesOn : loop.GoesOn)
    (fails : loop.outcome = (.error diagnostic, last)) :
    loop.run = (loop.withoutStatement diagnostic last).run := by
  rw [run_of_goesOn goesOn, fails]

/-- From where its next statement ends, the loop goes on to its own end. -/
theorem moves_end (goesOn : loop.GoesOn) : loop.outcome.2.Moves loop.run.2 := by
  rcases outcome : loop.outcome with ⟨diagnostic | tree, last⟩
  · rw [run_withoutStatement goesOn outcome]
    exact (Cursor.Moves.refl.record diagnostic).trans
      (loop.withoutStatement diagnostic last).moves_run
  · rw [run_withStatement goesOn outcome]
    exact (loop.withStatement tree last).moves_run

/-- A loop that a program is read with, somewhere between its first round and its last. -/
inductive Underway (tokens : List Token) : Loop → Prop
  | program : Underway tokens (ofTokens tokens)
  | read {loop : Loop} {tree : Statement} {last : Cursor} : Underway tokens loop → loop.GoesOn →
      loop.outcome = (.ok tree, last) → Underway tokens (loop.withStatement tree last)
  | leftOut {loop : Loop} {diagnostic : Diagnostic} {last : Cursor} : Underway tokens loop →
      loop.GoesOn → loop.outcome = (.error diagnostic, last) →
      Underway tokens (loop.withoutStatement diagnostic last)
  /-- A statement of another loop has come to a block. -/
  | block {loop : Loop} {bound : Nat} {cursor : Cursor} : Underway tokens loop → loop.GoesOn →
      ComesTo (Parser.block bound (expression bound)) cursor (statement (expression loop.bound))
        loop.cursor →
      cursor.next.kind = .openBrace → Underway tokens (ofBlock bound cursor)

/-- A block ends behind the token that its loop ends at. -/
theorem block_on {bound : Nat} {cursor : Cursor} (opened : cursor.next.kind = .openBrace) :
    (Parser.block bound (expression bound)).on cursor =
      (.ok (ofBlock bound cursor).run.1, (ofBlock bound cursor).run.2.advance) :=
  block_on_eq_ok.mpr ⟨Cursor.kind_next cursor ▸ opened, _, rfl, rfl⟩

namespace Underway

/-- The tokens ahead of a loop are the last ones of the stream. -/
theorem moves_start (underway : Underway tokens loop) :
    (Cursor.ofTokens tokens).Moves loop.cursor := by
  induction underway with
  | program => exact .refl
  | read _ _ reads inductionHypothesis =>
    exact inductionHypothesis.trans ((moves_statement (moves_expression _)).of_on_eq reads)
  | leftOut _ _ fails inductionHypothesis =>
    exact inductionHypothesis.trans
      (((moves_statement (moves_expression _)).of_on_eq fails).record _)
  | block _ _ comes _ inductionHypothesis =>
    exact inductionHypothesis.trans (comes.moves_target.advance)

/-- From where a loop ends, the program is read to its end. -/
theorem moves_reading (underway : Underway tokens loop) :
    loop.run.2.Moves (Parsed.reading tokens).2 := by
  induction underway with
  | program => exact .refl
  | read _ goesOn reads inductionHypothesis => rwa [← run_withStatement goesOn reads]
  | leftOut _ goesOn fails inductionHypothesis => rwa [← run_withoutStatement goesOn fails]
  | block _ goesOn comes opened inductionHypothesis =>
    have ends := comes.moves_end
    rw [block_on opened] at ends
    exact (Cursor.Moves.refl.advance.trans ends).trans
      ((moves_end goesOn).trans inductionHypothesis)

end Underway

end Loop

/-! ### Integers as operands -/

section Operands

variable {expression : Precedence → Parser Expression} {cursor : Cursor}

/-- An integer token is left behind, whether a number can be read of it or not. -/
theorem operand_on_of_integer (bound : Nat) (isInteger : cursor.next.kind = .integer) :
    (operand bound expression).on cursor =
      (match Decimal.int64? cursor.next.text with
        | some value => .ok (.integer value)
        | none => .error (.invalidInteger cursor.next.text cursor.next.line), cursor.advance) := by
  rw [operand, on_lift_bind, run_take]
  dsimp only
  rw [isInteger]
  dsimp only
  cases Decimal.int64? cursor.next.text <;> rfl

theorem operand_on_number (bound : Nat) (isInteger : cursor.next.kind = .integer) {value : Int64}
    (number : Decimal.int64? cursor.next.text = some value) :
    (operand bound expression).on cursor = (.ok (.integer value), cursor.advance) := by
  rw [operand_on_of_integer bound isInteger, number]

theorem operand_on_refused (bound : Nat) (isInteger : cursor.next.kind = .integer)
    (refused : Decimal.int64? cursor.next.text = none) :
    (operand bound expression).on cursor =
      (.error (.invalidInteger cursor.next.text cursor.next.line), cursor.advance) := by
  rw [operand_on_of_integer bound isInteger, refused]

end Operands

/-! ### Diagnostics of a program -/

/-- A program is read without a statement that fails with the diagnostic. -/
def LeavesOut (tokens : List Token) (diagnostic : Diagnostic) : Prop :=
  ∃ (loop : Loop) (last : Cursor), loop.Underway tokens ∧ loop.GoesOn ∧
    loop.outcome = (.error diagnostic, last)

/-- The diagnostic of a statement that is left out is kept to the end. -/
theorem LeavesOut.mem_diagnostics {tokens : List Token} {diagnostic : Diagnostic}
    (leavesOut : LeavesOut tokens diagnostic) :
    diagnostic ∈ (Parsed.ofTokens tokens).diagnostics := by
  obtain ⟨loop, last, underway, goesOn, fails⟩ := leavesOut
  have moves := underway.moves_reading
  rw [Loop.run_withoutStatement goesOn fails] at moves
  have kept := ((loop.withoutStatement diagnostic last).moves_run.trans moves).mem_diagnostics
    Array.mem_push_self
  rw [Parsed.ofTokens_eq]
  exact Array.mem_toList_iff.mpr kept

/-- In the reading of a program, some statement comes to a parser in front of a cursor. -/
def Reaches {α : Type} (tokens : List Token) (parser : Parser α) (cursor : Cursor) : Prop :=
  ∃ loop : Loop, loop.Underway tokens ∧ loop.GoesOn ∧
    ComesTo parser cursor (statement (expression loop.bound)) loop.cursor

/-- A parser comes to an operand that is refused: an integer with the given text, on the given line,
of which no number can be read. -/
def ComesToRefusal {α : Type} (parser : Parser α) (cursor : Cursor) (text : String) (line : Nat) :
    Prop :=
  ∃ (bound : Nat) (target : Cursor),
    ComesTo (operand bound (expression bound)) target parser cursor ∧
      target.next = ⟨.integer, text, line⟩ ∧ Decimal.int64? text = none

section Accounting

variable {α β : Type} {tokens : List Token} {parser : Parser α} {next : α → Parser β}
  {cursor : Cursor} {text : String} {line : Nat}

theorem Reaches.within (reaches : Reaches tokens parser cursor) {part : Parser β} {target : Cursor}
    (comes : ComesTo part target parser cursor) : Reaches tokens part target := by
  obtain ⟨loop, underway, goesOn, further⟩ := reaches
  exact ⟨loop, underway, goesOn, comes.trans further⟩

theorem ComesToRefusal.within {part : Parser β} {target : Cursor}
    (refusal : ComesToRefusal part target text line)
    (comes : ComesTo part target parser cursor) : ComesToRefusal parser cursor text line := by
  obtain ⟨bound, inner, further, isNext, refused⟩ := refusal
  exact ⟨bound, inner, further.trans comes, isNext, refused⟩

/-- Where the reading of a program comes to the parser in front of the cursor, the diagnostics that
the parser keeps are those of statements that are left out; and it gives up an integer only if it
comes to an operand that is refused. -/
structure AccountsAt (tokens : List Token) (parser : Parser α) (cursor : Cursor) : Prop where
  kept : Reaches tokens parser cursor → ∀ diagnostic ∈ (parser.on cursor).2.diagnostics,
    diagnostic ∈ cursor.diagnostics ∨ LeavesOut tokens diagnostic
  thrown {text : String} {line : Nat} {last : Cursor} :
    parser.on cursor = (.error (.invalidInteger text line), last) →
      ComesToRefusal parser cursor text line

/-- A parser that only moves its cursor, and accounts for what is wrong wherever it is used. -/
structure Accounts (tokens : List Token) (parser : Parser α) : Prop where
  moves : parser.Moves
  accounts : ∀ cursor, AccountsAt tokens parser cursor

theorem AccountsAt.bind (first : AccountsAt tokens parser cursor) (moves : parser.Moves)
    (movesNext : ∀ tree, (next tree).Moves)
    (second : ∀ tree middle, parser.on cursor = (.ok tree, middle) →
      AccountsAt tokens (next tree) middle) :
    AccountsAt tokens (parser >>= next) cursor := by
  have comes : ComesTo parser cursor (parser >>= next) cursor := .first movesNext .here
  rcases outcome : parser.on cursor with ⟨diagnostic | tree, middle⟩
  · have same : (parser >>= next).on cursor = (.error diagnostic, middle) := comes.fails outcome
    refine ⟨fun reaches => ?_, fun fails => ?_⟩
    · have kept := first.kept (reaches.within comes)
      rw [outcome] at kept
      rwa [same]
    · rw [same] at fails
      obtain ⟨⟨rfl⟩, rfl⟩ := Prod.mk.inj fails
      exact (first.thrown outcome).within comes
  · have comesBehind : ComesTo (next tree) middle (parser >>= next) cursor :=
      .behind moves outcome .here
    have same : (parser >>= next).on cursor = (next tree).on middle := by rw [on_bind, outcome]
    refine ⟨fun reaches diagnostic member => ?_, fun fails => ?_⟩
    · rw [same] at member
      rcases (second tree middle outcome).kept (reaches.within comesBehind) diagnostic member with
        earlier | leavesOut
      · have kept := first.kept (reaches.within comes) diagnostic
        rw [outcome] at kept
        exact kept earlier
      · exact .inr leavesOut
    · rw [same] at fails
      exact ((second tree middle outcome).thrown fails).within comesBehind

/-- Taking a token keeps no diagnostic. -/
theorem AccountsAt.behindTake {next : Token → Parser α}
    (second : AccountsAt tokens (next cursor.next) cursor.advance) :
    AccountsAt tokens (liftM take >>= next) cursor := by
  have comes : ComesTo (next cursor.next) cursor.advance (liftM take >>= next) cursor :=
    .behind moves_take rfl .here
  have same : (liftM take >>= next).on cursor = (next cursor.next).on cursor.advance := on_lift_bind
  refine ⟨fun reaches => ?_, fun fails => ?_⟩
  · rw [same]
    exact second.kept (reaches.within comes)
  · rw [same] at fails
    exact (second.thrown fails).within comes

namespace Accounts

theorem bind (first : Accounts tokens parser) (second : ∀ tree, Accounts tokens (next tree)) :
    Accounts tokens (parser >>= next) where
  moves := first.moves.bind fun tree => (second tree).moves
  accounts cursor := (first.accounts cursor).bind first.moves (fun tree => (second tree).moves)
    fun tree middle _ => (second tree).accounts middle

/-- A parser that keeps no diagnostics and gives up no integers has nothing to account for. -/
theorem of_quiet (moves : parser.Moves)
    (quiet : ∀ cursor, (parser.on cursor).2.diagnostics = cursor.diagnostics)
    (noInteger : ∀ cursor text line last,
      parser.on cursor ≠ (.error (.invalidInteger text line), last)) :
    Accounts tokens parser where
  moves := moves
  accounts cursor :=
    ⟨fun _ _ member => .inl (quiet cursor ▸ member), fun fails => (noInteger _ _ _ _ fails).elim⟩

theorem pure (tree : α) : Accounts tokens (Pure.pure tree : Parser α) :=
  .of_quiet (moves_pure tree) (fun _ => rfl) fun _ _ _ _ => nofun

theorem throw {diagnostic : Diagnostic}
    (noInteger : ∀ text line, diagnostic ≠ .invalidInteger text line) :
    Accounts tokens (MonadExcept.throw diagnostic : Parser α) := by
  refine .of_quiet (moves_throw diagnostic) (fun _ => rfl) fun _ text line _ same => ?_
  exact noInteger text line (Except.error.inj (Prod.mk.inj same).1)

theorem peek : Accounts tokens (liftM Parser.peek : Parser Token) :=
  .of_quiet moves_peek (fun _ => rfl) fun _ _ _ _ => nofun

theorem advance : Accounts tokens (liftM Parser.advance : Parser Unit) :=
  .of_quiet moves_advance (fun _ => rfl) fun _ _ _ _ => nofun

theorem take : Accounts tokens (liftM Parser.take : Parser Token) :=
  .of_quiet moves_take (fun _ => rfl) fun _ _ _ _ => nofun

theorem skip (kind : Kind) : Accounts tokens (liftM (Parser.skip kind) : Parser Unit) := by
  refine .of_quiet (moves_skip kind) (fun cursor => ?_) fun cursor _ _ _ => nofun
  rw [on_lift, run_skip]
  split <;> rfl

theorem expect (kind : Kind) : Accounts tokens (Parser.expect kind) := by
  refine .of_quiet (moves_expect kind) (fun cursor => ?_) fun cursor text line last => ?_
  · rw [expect_on]
    split <;> rfl
  · rw [expect_on]
    split <;> simp

end Accounts

end Accounting

/-! ### Lists and statements account for what is wrong -/

section Constructs

variable {α : Type} {tokens : List Token} {bound : Nat}

section Lists

variable {item : Parser α} (all : Accounts tokens item)

include all

theorem accounts_moreItems (rounds : Nat) (found : List α) :
    Accounts tokens (moreItems item rounds found) := by
  induction rounds generalizing found with
  | zero => exact .pure _
  | succ rounds inductionHypothesis =>
    refine .bind .peek fun token => ?_
    split
    · exact .bind .advance fun _ => all.bind fun tree => inductionHypothesis (tree :: found)
    · exact .pure _

theorem accounts_commaSeparated (close : Kind) :
    Accounts tokens (commaSeparated bound close item) := by
  refine .bind .peek fun token => ?_
  split
  · exact .bind .advance fun _ => .pure []
  · exact all.bind fun first => (accounts_moreItems all bound [first]).bind fun items =>
      .bind (.expect close) fun _ => .pure items

end Lists

theorem accounts_parameter : Accounts tokens parameter := by
  refine .bind .take fun token => ?_
  split
  · exact .pure _
  · exact .throw fun _ _ => nofun

variable (all : ∀ floor, Accounts tokens (expression bound floor))

include all

theorem accounts_statement : Accounts tokens (statement (expression bound)) := by
  refine .bind .peek fun token => ?_
  split
  · exact .bind .advance fun _ => .bind (.expect _) fun name => .bind (.expect _) fun _ =>
      (all _).bind fun value => .bind (.skip _) fun _ => .pure _
  · exact .bind .advance fun _ => (all _).bind fun value => .bind (.skip _) fun _ => .pure _
  · exact (all _).bind fun value => .bind (.skip _) fun _ => .pure _

/-- What a loop keeps is what its statements keep, and their own diagnostics. -/
theorem kept_loop {loop : Loop} (underway : loop.Underway tokens) (same : loop.bound = bound)
    {diagnostic : Diagnostic} (kept : diagnostic ∈ loop.run.2.diagnostics) :
    diagnostic ∈ loop.cursor.diagnostics ∨ LeavesOut tokens diagnostic := by
  -- The loop behind the first statement is under way as well, and has a round less.
  induction count : loop.rounds generalizing loop with
  | zero =>
    have ends : ¬ loop.GoesOn := fun goesOn => goesOn.more count
    rw [Loop.run_of_not_goesOn ends] at kept
    exact .inl kept
  | succ rounds inductionHypothesis =>
    obtain rfl := same
    by_cases goesOn : loop.GoesOn
    · have fewer : loop.rounds - 1 = rounds := by rw [count, Nat.add_sub_cancel]
      have statement : ∀ diagnostic ∈ loop.outcome.2.diagnostics,
          diagnostic ∈ loop.cursor.diagnostics ∨ LeavesOut tokens diagnostic :=
        ((accounts_statement all).accounts loop.cursor).kept ⟨loop, underway, goesOn, .here⟩
      rcases outcome : loop.outcome with ⟨left | tree, last⟩
      · rw [Loop.run_withoutStatement goesOn outcome] at kept
        rw [outcome] at statement
        rcases inductionHypothesis (underway.leftOut goesOn outcome) rfl kept fewer with
          earlier | leavesOut
        · rcases Array.mem_push.mp earlier with earlier | rfl
          · exact statement diagnostic earlier
          · exact .inr ⟨loop, last, underway, goesOn, outcome⟩
        · exact .inr leavesOut
      · rw [Loop.run_withStatement goesOn outcome] at kept
        rw [outcome] at statement
        rcases inductionHypothesis (underway.read goesOn outcome) rfl kept fewer with
          earlier | leavesOut
        · exact statement diagnostic earlier
        · exact .inr leavesOut
    · rw [Loop.run_of_not_goesOn goesOn] at kept
      exact .inl kept

theorem accounts_block : Accounts tokens (block bound (expression bound)) := by
  refine ⟨moves_block (moves_expression bound) bound, fun cursor => ?_⟩
  by_cases opened : cursor.next.kind = .openBrace
  · refine ⟨?_, fun fails => ?_⟩
    · rintro ⟨loop, underway, goesOn, comes⟩ diagnostic kept
      rw [Loop.block_on opened] at kept
      exact kept_loop all (underway.block goesOn comes opened) rfl kept
    · rw [Loop.block_on opened] at fails
      cases fails
  · have fails : (block bound (expression bound)).on cursor =
        (.error (.unexpected .openBrace cursor.next.kind cursor.next.line), cursor) := by
      rw [block, on_bind, expect_on, if_neg opened]
    refine ⟨fun _ diagnostic kept => ?_, fun fails' => ?_⟩
    · rw [fails] at kept
      exact .inl kept
    · rw [fails] at fails'
      cases fails'

/-! ### Expressions account for what is wrong -/

theorem accounts_grouped : Accounts tokens (grouped (expression bound)) :=
  (all _).bind fun _ => .bind (.expect _) fun _ => .pure _

theorem accounts_conditional : Accounts tokens (conditional bound (expression bound)) := by
  refine .bind (.expect _) fun _ => (accounts_grouped all).bind fun condition =>
    (accounts_block all).bind fun consequence => .bind .peek fun token => ?_
  split
  · exact .bind .advance fun _ => (accounts_block all).bind fun _ => .pure _
  · exact .pure _

theorem accounts_function : Accounts tokens (function bound (expression bound)) :=
  .bind (.expect _) fun _ => (accounts_commaSeparated accounts_parameter _).bind fun _ =>
    (accounts_block all).bind fun _ => .pure _

theorem accounts_pairs (rounds : Nat) (found : List (Expression × Expression)) :
    Accounts tokens (pairs (expression bound) rounds found) := by
  induction rounds generalizing found with
  | zero => exact .pure _
  | succ rounds inductionHypothesis =>
    refine .bind .peek fun token => ?_
    split
    · exact .pure _
    · refine (all _).bind fun key => .bind (.expect _) fun _ => (all _).bind fun value =>
        .bind .peek fun token => ?_
      split
      · exact .bind (.expect _) fun _ => inductionHypothesis _
      · exact inductionHypothesis _

theorem accounts_hash : Accounts tokens (hash bound (expression bound)) :=
  (accounts_pairs all _ _).bind fun _ => .bind (.expect _) fun _ => .pure _

/-- Only an operand gives up an integer, and then it is refused itself. -/
theorem accounts_operand : Accounts tokens (operand bound (expression bound)) := by
  refine ⟨moves_operand (moves_expression bound) bound, fun cursor => ?_⟩
  by_cases refused : cursor.next.kind = .integer ∧ Decimal.int64? cursor.next.text = none
  · have fails : (operand bound (expression bound)).on cursor = _ :=
      operand_on_refused bound refused.1 refused.2
    refine ⟨fun _ diagnostic kept => ?_, fun fails' => ?_⟩
    · rw [fails] at kept
      exact .inl kept
    · rw [fails] at fails'
      obtain ⟨rfl, rfl⟩ := Diagnostic.invalidInteger.inj (Except.error.inj (Prod.mk.inj fails').1)
      exact ⟨bound, cursor, .here, by rw [← refused.1], refused.2⟩
  · refine .behindTake (Accounts.accounts ?_ cursor.advance)
    split
    case h_2 isInteger =>
      split
      · exact .pure _
      · next noNumber => exact absurd ⟨isInteger, noNumber⟩ refused
    case h_6 => exact (all _).bind fun _ => .pure _
    case h_7 => exact (all _).bind fun _ => .pure _
    case h_8 => exact accounts_grouped all
    case h_9 => exact accounts_conditional all
    case h_10 => exact accounts_function all
    case h_11 => exact (accounts_commaSeparated (all _) _).bind fun _ => .pure _
    case h_12 => exact accounts_hash all
    case h_13 => exact .throw fun _ _ => nofun
    all_goals exact .pure _

/-! ### Continuations account for what is wrong -/

theorem accounts_continuation (left : Expression) (next : Continuation) :
    Accounts tokens (continuation bound (expression bound) left next) := by
  cases next with
  | operation operator => exact (all _).bind fun _ => .pure _
  | call => exact (accounts_commaSeparated (all _) _).bind fun _ => .pure _
  | index => exact (all _).bind fun _ => .bind (.expect _) fun _ => .pure _

theorem accounts_continuations (floor : Precedence) (rounds : Nat) (left : Expression) :
    Accounts tokens (continuations bound (expression bound) floor rounds left) := by
  induction rounds generalizing left with
  | zero => exact .pure _
  | succ rounds inductionHypothesis =>
    refine .bind .peek fun token => ?_
    split
    · split
      · exact .bind .advance fun _ => (accounts_continuation all left _).bind fun larger =>
          inductionHypothesis larger
      · exact .pure _
    · exact .pure _

end Constructs

theorem accounts_expression (tokens : List Token) (bound : Nat) (floor : Precedence) :
    Accounts tokens (expression bound floor) := by
  induction bound generalizing floor with
  | zero => exact .bind .peek fun token => .throw fun _ _ => nofun
  | succ bound inductionHypothesis =>
    exact (accounts_operand inductionHypothesis).bind fun left =>
      accounts_continuations inductionHypothesis floor bound left

/-- The diagnostics of a program are those of the statements that it is read without. -/
theorem mem_diagnostics_iff {tokens : List Token} {diagnostic : Diagnostic} :
    diagnostic ∈ (Parsed.ofTokens tokens).diagnostics ↔ LeavesOut tokens diagnostic := by
  refine ⟨fun member => ?_, LeavesOut.mem_diagnostics⟩
  rw [Parsed.ofTokens_eq] at member
  have kept : diagnostic ∈ (Loop.ofTokens tokens).run.2.diagnostics :=
    Array.mem_toList_iff.mp member
  rcases kept_loop (accounts_expression tokens _) .program rfl kept with earlier | leavesOut
  · exact absurd earlier (Array.not_mem_empty _)
  · exact leavesOut

end Parser

end MonkeyLang
