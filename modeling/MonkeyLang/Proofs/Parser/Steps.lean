/-
This file says what the steps of a parser do to its cursor: one equation for
the outcome of each step in front of a cursor.

Two views of a cursor recur. Its terminals are the tokens ahead without their
lines; they alone decide what a parser reads. And one cursor moves to another
when nothing happened on the way but leaving tokens behind and keeping
diagnostics; every parser of the grammar moves its cursor, whatever it finds.
-/

import MonkeyLang.Parser.Grammar
import MonkeyLang.Proofs.Running

namespace MonkeyLang

/-! ### Terminals -/

/-- A terminal of the grammar: a token without its line. -/
structure Terminal where
  kind : Kind
  text : String
deriving DecidableEq, Repr, Inhabited

/-- The terminal that a token is an occurrence of. -/
def Token.terminal (token : Token) : Terminal :=
  ⟨token.kind, token.text⟩

/-- The kind of the first terminal. Behind the last terminal the input ends. -/
def headKind : List Terminal → Kind
  | [] => .endOfInput
  | terminal :: _ => terminal.kind

@[simp] theorem headKind_nil : headKind [] = .endOfInput := rfl

@[simp] theorem headKind_cons (terminal : Terminal) (rest : List Terminal) :
    headKind (terminal :: rest) = terminal.kind := rfl

/-- A kind other than the end of input is the kind of a terminal that is there. -/
theorem exists_cons_of_headKind {terminals : List Terminal} {kind : Kind}
    (head : headKind terminals = kind) (more : kind ≠ .endOfInput) :
    ∃ terminal rest, terminals = terminal :: rest ∧ terminal.kind = kind := by
  cases terminals with
  | nil => exact absurd head.symm more
  | cons terminal rest => exact ⟨terminal, rest, rfl, head⟩

namespace Cursor

/-- The terminals that are still to be read. -/
def terminals (cursor : Cursor) : List Terminal :=
  cursor.rest.map Token.terminal

/-- The cursor that keeps one more diagnostic. -/
def record (cursor : Cursor) (diagnostic : Diagnostic) : Cursor :=
  { cursor with diagnostics := cursor.diagnostics.push diagnostic }

@[simp] theorem length_terminals (cursor : Cursor) :
    cursor.terminals.length = cursor.rest.length :=
  List.length_map Token.terminal

@[simp] theorem terminals_advance (cursor : Cursor) :
    cursor.advance.terminals = cursor.terminals.tail := by
  simp only [terminals, advance, List.map_tail]

@[simp] theorem diagnostics_advance (cursor : Cursor) :
    cursor.advance.diagnostics = cursor.diagnostics := rfl

@[simp] theorem length_rest_advance (cursor : Cursor) :
    cursor.advance.rest.length = cursor.rest.length - 1 :=
  List.length_tail

@[simp] theorem kind_next (cursor : Cursor) : cursor.next.kind = headKind cursor.terminals := by
  unfold next terminals
  cases cursor.rest <;> rfl

/-- The next token is an occurrence of the first terminal. -/
theorem text_next {cursor : Cursor} {terminal : Terminal} {rest : List Terminal}
    (ahead : cursor.terminals = terminal :: rest) : cursor.next.text = terminal.text := by
  unfold next
  unfold terminals at ahead
  cases tokens : cursor.rest with
  | nil => simp [tokens] at ahead
  | cons token others =>
    rw [tokens, List.map_cons] at ahead
    exact congrArg Terminal.text (List.cons.inj ahead).1

/-- What is no end of input is a token that is there. -/
theorem head?_rest (cursor : Cursor) (more : cursor.next.kind ≠ .endOfInput) :
    cursor.rest.head? = some cursor.next := by
  unfold next at more ⊢
  cases tokens : cursor.rest with
  | nil => exact absurd (by rw [tokens]) more
  | cons => rfl

/-! ### Moves -/

/-- One cursor moves to another by leaving tokens behind and keeping diagnostics. -/
inductive Moves (start : Cursor) : Cursor → Prop
  | refl : Moves start start
  | advance {cursor : Cursor} : Moves start cursor → Moves start cursor.advance
  | record {cursor : Cursor} (diagnostic : Diagnostic) :
      Moves start cursor → Moves start (cursor.record diagnostic)

theorem Moves.trans {first second third : Cursor} (left : Moves first second)
    (right : Moves second third) : Moves first third := by
  induction right with
  | refl => exact left
  | advance _ inductionHypothesis => exact inductionHypothesis.advance
  | record diagnostic _ inductionHypothesis => exact inductionHypothesis.record diagnostic

/-- No diagnostic is ever lost. -/
theorem Moves.diagnostics_le {start cursor : Cursor} (moves : Moves start cursor) :
    start.diagnostics.size ≤ cursor.diagnostics.size := by
  induction moves with
  | refl => exact Nat.le_refl _
  | advance _ inductionHypothesis => exact inductionHypothesis
  | record diagnostic _ inductionHypothesis =>
    rw [Cursor.record, Array.size_push]
    exact Nat.le_succ_of_le inductionHypothesis

/-- A diagnostic that has been kept stays. -/
theorem Moves.mem_diagnostics {start cursor : Cursor} (moves : Moves start cursor)
    {diagnostic : Diagnostic} (kept : diagnostic ∈ start.diagnostics) :
    diagnostic ∈ cursor.diagnostics := by
  induction moves with
  | refl => exact kept
  | advance _ inductionHypothesis => exact inductionHypothesis
  | record other _ inductionHypothesis => exact Array.mem_push_of_mem other inductionHypothesis

/-- No token is ever put back. -/
theorem Moves.rest_suffix {start cursor : Cursor} (moves : Moves start cursor) :
    cursor.rest <:+ start.rest := by
  induction moves with
  | refl => exact List.suffix_refl _
  | advance _ inductionHypothesis => exact (List.tail_suffix _).trans inductionHypothesis
  | record _ _ inductionHypothesis => exact inductionHypothesis

theorem Moves.length_rest_le {start cursor : Cursor} (moves : Moves start cursor) :
    cursor.rest.length ≤ start.rest.length :=
  moves.rest_suffix.length_le

theorem Moves.lastLine_eq {start cursor : Cursor} (moves : Moves start cursor) :
    cursor.lastLine = start.lastLine := by
  induction moves with
  | refl => rfl
  | advance _ inductionHypothesis => exact inductionHypothesis
  | record _ _ inductionHypothesis => exact inductionHypothesis

end Cursor

namespace Parser

/-! ### The steps -/

section Steps

variable {α : Type} {cursor last : Cursor}

@[simp] theorem run_peek : StateT.run peek cursor = (cursor.next, cursor) := rfl

@[simp] theorem run_advance : StateT.run advance cursor = ((), cursor.advance) := rfl

@[simp] theorem run_take : StateT.run take cursor = (cursor.next, cursor.advance) := rfl

@[simp] theorem run_skip (kind : Kind) :
    StateT.run (skip kind) cursor =
      ((), if cursor.next.kind = kind then cursor.advance else cursor) := by
  rw [skip, run_bind, run_peek]
  split <;> rfl

@[simp] theorem run_attempt (parser : Parser α) :
    StateT.run (attempt parser) cursor =
      match parser.on cursor with
      | (.ok tree, middle) => (some tree, middle)
      | (.error diagnostic, middle) => (none, middle.record diagnostic) := by
  rw [attempt, run_bind]
  show _ = match StateT.run (ExceptT.run parser) cursor with
    | (.ok tree, middle) => (some tree, middle)
    | (.error diagnostic, middle) => (none, middle.record diagnostic)
  rcases StateT.run (ExceptT.run parser) cursor with ⟨_ | tree, middle⟩ <;> rfl

theorem expect_on (kind : Kind) :
    (expect kind).on cursor =
      if cursor.next.kind = kind then (.ok cursor.next, cursor.advance)
      else (.error (.unexpected kind cursor.next.kind cursor.next.line), cursor) := by
  rw [expect, on_lift_bind, run_peek]
  split <;> rfl

theorem expect_on_eq_ok {kind : Kind} {token : Token} :
    (expect kind).on cursor = (.ok token, last) ↔
      headKind cursor.terminals = kind ∧ cursor.next = token ∧ cursor.advance = last := by
  rw [expect_on, Cursor.kind_next]
  split <;> simp_all

end Steps

/-! ### Every step moves the cursor -/

/-- A reading that does nothing to its cursor but move it. -/
def MovesReading {α : Type} (reading : Reading α) : Prop :=
  ∀ cursor : Cursor, cursor.Moves (StateT.run reading cursor).2

/-- A parser that does nothing to its cursor but move it, whether it succeeds or fails. -/
def Moves {α : Type} (parser : Parser α) : Prop :=
  ∀ cursor : Cursor, cursor.Moves (parser.on cursor).2

section Moving

variable {α β : Type}

/-- What an outcome says about the cursor behind it. -/
theorem Moves.of_on_eq {parser : Parser α} (moves : parser.Moves) {cursor last : Cursor}
    {outcome : Except Diagnostic α} (reads : parser.on cursor = (outcome, last)) :
    cursor.Moves last := by
  have moved := moves cursor
  rwa [reads] at moved

/-- Behind a parser that moves its cursor there are no fewer diagnostics and no more tokens. -/
theorem Moves.kept {parser : Parser α} (moves : parser.Moves) {cursor last : Cursor}
    {outcome : Except Diagnostic α} (reads : parser.on cursor = (outcome, last)) :
    cursor.diagnostics.size ≤ last.diagnostics.size ∧ last.rest.length ≤ cursor.rest.length :=
  ⟨(moves.of_on_eq reads).diagnostics_le, (moves.of_on_eq reads).length_rest_le⟩

theorem MovesReading.kept {reading : Reading α} (moves : MovesReading reading)
    {cursor last : Cursor} {tree : α} (reads : StateT.run reading cursor = (tree, last)) :
    cursor.diagnostics.size ≤ last.diagnostics.size ∧ last.rest.length ≤ cursor.rest.length := by
  have moved := moves cursor
  rw [reads] at moved
  exact ⟨moved.diagnostics_le, moved.length_rest_le⟩

theorem moves_pure (tree : α) : (pure tree : Parser α).Moves :=
  fun _ => .refl

theorem moves_throw (diagnostic : Diagnostic) : (throw diagnostic : Parser α).Moves :=
  fun _ => .refl

theorem Moves.bind {parser : Parser α} {next : α → Parser β} (first : parser.Moves)
    (second : ∀ tree, (next tree).Moves) : (parser >>= next).Moves := by
  intro cursor
  rw [on_bind]
  rcases outcome : parser.on cursor with ⟨_ | tree, middle⟩
  · exact first.of_on_eq outcome
  · exact (first.of_on_eq outcome).trans (second tree middle)

theorem MovesReading.lift {reading : Reading α} (moves : MovesReading reading) :
    (liftM reading : Parser α).Moves :=
  fun cursor => moves cursor

theorem moves_peek : (liftM peek : Parser Token).Moves :=
  fun _ => .refl

theorem moves_advance : (liftM advance : Parser Unit).Moves :=
  fun _ => .advance .refl

theorem moves_take : (liftM take : Parser Token).Moves :=
  fun _ => .advance .refl

theorem moves_skip (kind : Kind) : (liftM (skip kind) : Parser Unit).Moves := by
  intro cursor
  rw [on_lift, run_skip]
  split
  · exact .advance .refl
  · exact .refl

theorem moves_expect (kind : Kind) : (expect kind).Moves := by
  intro cursor
  rw [expect_on]
  split
  · exact .advance .refl
  · exact .refl

/-- A failed attempt leaves its diagnostic behind. -/
theorem Moves.attempt {parser : Parser α} (moves : parser.Moves) :
    MovesReading (attempt parser) := by
  intro cursor
  rw [run_attempt]
  rcases outcome : parser.on cursor with ⟨diagnostic | tree, middle⟩
  · exact (moves.of_on_eq outcome).record diagnostic
  · exact moves.of_on_eq outcome

end Moving

end Parser

end MonkeyLang
