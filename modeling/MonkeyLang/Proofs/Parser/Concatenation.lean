/-
This file proves that a program can be cut in two behind a finished statement.
Tokens that read cleanly by themselves, have as many opening as closing braces
and end with a semicolon are read in front of all other tokens as they are by
themselves; and what stands behind them is read as if nothing stood before it,
however broken it is.

That nothing of what comes behind is looked at has been shown for terminals with
an end of input behind them, and a stream that simply stops is read as if one
followed. The other half is about the parser alone: when the statements in front
are read, the cursor is that in front of the other stream, and what has been
found so far is only put in front of what is found from there on.
-/

import MonkeyLang.Proofs.Parser.Locality
import MonkeyLang.Proofs.Parser.Stopping

namespace MonkeyLang

open MonkeyLang.Parser

/-! ### Statements in front -/

/-- What has been found so far is put in front of what is found from there on. -/
theorem Parser.run_statements_found {expression : Precedence → Parser Expression}
    {stops : Kind → Bool} (rounds : Nat) (found : List Statement) (cursor : Cursor) :
    StateT.run (statements expression stops rounds found) cursor =
      let run := StateT.run (statements expression stops rounds []) cursor
      (found.reverse ++ run.1, run.2) := by
  induction rounds generalizing found cursor with
  | zero => exact Prod.ext (List.append_nil _).symm rfl
  | succ rounds inductionHypothesis =>
    rw [run_statements_succ, run_statements_succ]
    by_cases stop : stops (headKind cursor.terminals) = true
    · rw [if_pos stop, if_pos stop]
      exact Prod.ext (List.append_nil _).symm rfl
    · rw [if_neg stop, if_neg stop]
      rcases (statement expression).on cursor with ⟨_ | tree, middle⟩
      · exact inductionHypothesis found _
      · dsimp only at inductionHypothesis ⊢
        rw [inductionHypothesis (tree :: found), inductionHypothesis [tree], List.reverse_cons,
          List.append_assoc]
        rfl

/-- Any bounds that exceed the number of tokens are as good as those a program is read with. -/
theorem Parser.run_statements_ofTokens {tokens : List Token} {bound rounds : Nat}
    (enough : tokens.length < bound) (enoughRounds : tokens.length < rounds)
    (found : List Statement) :
    StateT.run (statements (expression bound) endsProgram rounds found) (Cursor.ofTokens tokens) =
      (found.reverse ++ (Parsed.reading tokens).1, (Parsed.reading tokens).2) := by
  have short : (Cursor.ofTokens tokens).rest.length < tokens.length + 1 := Nat.lt_succ_self _
  have alike := inStep_statements lockstep_eq (inStep_expression lockstep_eq enough (Nat.le_refl _))
    (rfl : endsProgram .endOfInput = true) enoughRounds (Nat.le_refl _) [] _ _ rfl short short
  rw [on_lift, on_lift] at alike
  obtain ⟨sameTrees, sameLast⟩ := alike.of_ok
  rw [run_statements_found]
  exact Prod.ext (congrArg (found.reverse ++ ·) sameTrees) sameLast

/-- Statements that the relation reads one behind another are read by the parser, without a
diagnostic, and then it goes on with what is behind them. -/
theorem ReadsInTurn.run {trees : List Statement} {terminals rest : List Terminal}
    (reads : ReadsInTurn trees terminals rest) {cursor : Cursor}
    (ahead : cursor.terminals = terminals) :
    ∃ last : Cursor, last.terminals = rest ∧ cursor.Moves last ∧
      last.diagnostics = cursor.diagnostics ∧
      ∀ bound rounds found, cursor.rest.length < bound → cursor.rest.length < rounds →
        ∃ fewer, last.rest.length < fewer ∧
          StateT.run (statements (Parser.expression bound) endsProgram rounds found) cursor =
            StateT.run (statements (Parser.expression bound) endsProgram fewer
              (trees.reverse ++ found)) last := by
  induction reads generalizing cursor with
  | nothing =>
    exact ⟨cursor, ahead, .refl, rfl, fun _ rounds _ _ enough => ⟨rounds, enough, rfl⟩⟩
  | @next tree trees _ _ _ goesOn statement _ inductionHypothesis =>
    obtain ⟨middle, leaves, clean, readStatement⟩ := statement.parsed ahead
    have shorter := statement.shorter ahead leaves
    obtain ⟨last, left, moves, clean', readOthers⟩ := inductionHypothesis leaves
    have moved : cursor.Moves middle :=
      (moves_statement (moves_expression _)).of_on_eq (readStatement _ (Nat.lt_succ_self _))
    refine ⟨last, left, moved.trans moves, clean'.trans clean, fun bound rounds found enough
      enoughRounds => ?_⟩
    obtain ⟨rounds, rfl⟩ := Nat.exists_eq_add_of_lt enoughRounds
    simp only [Phrase.least] at shorter
    obtain ⟨fewer, enoughFewer, same⟩ :=
      readOthers bound (cursor.rest.length + rounds) (tree :: found) (by omega) (by omega)
    refine ⟨fewer, enoughFewer, ?_⟩
    rw [run_statements_succ, ahead, goesOn, readStatement bound enough, List.reverse_cons,
      List.append_assoc]
    exact same

/-! ### Streams behind one another -/

/-- Tokens that are done where they end: they read cleanly, have as many opening as closing braces,
and the last of them is a semicolon. -/
structure Finished (tokens : List Token) : Prop where
  clean : (Parsed.ofTokens tokens).diagnostics = []
  balanced : (tokens.map Token.kind).count .openBrace = (tokens.map Token.kind).count .closeBrace
  semicolon : (tokens.map Token.kind).getLast? = some .semicolon

section Streams

variable {tokens more : List Token}

theorem Finished.terminated (finished : Finished tokens)
    (noEnd : ∀ token ∈ tokens, token.kind ≠ .endOfInput) :
    Terminated (tokens.map Token.terminal) := by
  have kinds : (tokens.map Token.terminal).map Terminal.kind = tokens.map Token.kind := by
    rw [List.map_map]
    rfl
  have noEnd' : ∀ terminal ∈ tokens.map Token.terminal, terminal.kind ≠ .endOfInput :=
    List.forall_mem_map.mpr noEnd
  refine ⟨noEnd', ?_, ?_⟩
  · rw [weight_eq_count noEnd', kinds, finished.balanced, Int.sub_self]
  · have isSemicolon := finished.semicolon
    rw [← kinds, List.getLast?_map] at isSemicolon
    exact Option.map_eq_some_iff.mp isSemicolon

/-- Finished tokens are read in front of everything as they are by themselves. -/
theorem Finished.inTurn (finished : Finished tokens)
    (noEnd : ∀ token ∈ tokens, token.kind ≠ .endOfInput) (terminals : List Terminal) :
    ReadsInTurn (Parsed.ofTokens tokens).program.statements
      (tokens.map Token.terminal ++ terminals) terminals := by
  have terminated := finished.terminated noEnd
  have parsed : Parsed.ofTokens (tokens ++ [(Cursor.ofTokens tokens).endOfInput ""]) =
      ⟨⟨(Parsed.ofTokens tokens).program.statements⟩, []⟩ := by
    rw [← finished.clean]
    exact (Cursor.padded_ofTokens tokens [""]).ofTokens_eq
  obtain ⟨rest, reads⟩ := (ofTokens_eq_iff _ _).mp parsed
  rw [List.map_append] at reads
  obtain rfl := reads.rest_eq rfl terminated.more terminated.balanced
  exact reads.inTurn (List.cons_ne_nil _ _) (fun _ => terminated.not_closed) terminals

/-- Behind other tokens the parser is in front of a stream as if it stood alone. -/
theorem Cursor.eq_ofTokens {cursor : Cursor} (moves : (ofTokens (tokens ++ more)).Moves cursor)
    (left : cursor.terminals = more.map Token.terminal) (clean : cursor.diagnostics = #[])
    (some : more ≠ []) : cursor = ofTokens more := by
  have isSuffix : cursor.rest <:+ tokens ++ more := moves.rest_suffix
  have length : cursor.rest.length = more.length := by
    simpa [Cursor.terminals] using congrArg List.length left
  have rest : cursor.rest = more :=
    (List.suffix_of_suffix_length_le isSuffix (List.suffix_append tokens more)
      (Nat.le_of_eq length)).eq_of_length length
  have lastLine : cursor.lastLine = (ofTokens more).lastLine := by
    rw [moves.lastLine_eq, ofTokens, ofTokens, List.getLast?_append,
      List.getLast?_eq_some_getLast some, Option.some_or]
  obtain ⟨_, _, _⟩ := cursor
  exact congr (congr (congrArg Cursor.mk rest) lastLine) clean

/-- Parsing is compositional at a finished statement. If tokens are done where they end, or there
are none, then in front of any others, however broken these are, they yield the same statements as
by themselves, and the others yield the same statements and the same diagnostics as by themselves,
on the same lines. -/
theorem parsing_is_compositional (noEnd : ∀ token ∈ tokens, token.kind ≠ .endOfInput)
    (finished : tokens = [] ∨ Finished tokens) :
    Parsed.ofTokens (tokens ++ more) =
      ⟨⟨(Parsed.ofTokens tokens).program.statements ++ (Parsed.ofTokens more).program.statements⟩,
        (Parsed.ofTokens more).diagnostics⟩ := by
  rcases finished with rfl | finished
  · rfl
  by_cases none : more = []
  · subst none
    have nothing : Parsed.ofTokens [] = ⟨⟨[]⟩, []⟩ := rfl
    rw [nothing, List.append_nil, List.append_nil, ← finished.clean]
  · obtain ⟨last, left, moves, clean, goesOn⟩ := (finished.inTurn noEnd _).run
      (show (Cursor.ofTokens (tokens ++ more)).terminals =
        tokens.map Token.terminal ++ more.map Token.terminal from List.map_append)
    obtain rfl := Cursor.eq_ofTokens moves left clean none
    obtain ⟨rounds, enough, same⟩ := goesOn _ _ [] (Nat.lt_succ_self _) (Nat.lt_succ_self _)
    have enoughDeep : more.length < (tokens ++ more).length + 1 := by
      rw [List.length_append]
      omega
    have reading : Parsed.reading (tokens ++ more) =
        ((Parsed.ofTokens tokens).program.statements ++ (Parsed.reading more).1,
          (Parsed.reading more).2) := by
      refine same.trans ((run_statements_ofTokens enoughDeep enough _).trans ?_)
      rw [List.append_nil, List.reverse_reverse]
    rw [Parsed.ofTokens_eq (tokens ++ more), reading]
    rfl

end Streams

theorem parsing_is_compositional_broken :
    let tokens := (Token.ofSource "fn() \x7b\x7b1: x\x7d\x7d;\n").dropLast
    let more := (Token.ofSource "let 5;\nb ) \x7b").dropLast
    (∀ token ∈ tokens, token.kind ≠ .endOfInput) ∧ Finished tokens ∧
      (Parsed.ofTokens more).diagnostics = [.unexpected .identifier .integer 1,
        .noOperand .closeParen 2, .noOperand .endOfInput 2] ∧
      Parsed.ofTokens (tokens ++ more) =
        ⟨⟨(Parsed.ofTokens tokens).program.statements ++
            (Parsed.ofTokens more).program.statements⟩,
          (Parsed.ofTokens more).diagnostics⟩ := by
  intro tokens more
  have noEnd : ∀ token ∈ tokens, token.kind ≠ .endOfInput := by decide +kernel
  have finished : Finished tokens := by constructor <;> decide +kernel
  exact ⟨noEnd, finished, by decide +kernel, parsing_is_compositional noEnd (.inr finished)⟩

end MonkeyLang
