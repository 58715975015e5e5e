/-
This file proves that whatever the parser reads without keeping a diagnostic,
the relation `Reads` reads. Diagnostics are never lost, so a reading that ends
with as few as it began with has kept none on the way, and no statement inside
it was given up.

Together with the converse this describes clean parses of whole programs
without any mention of the parser: `ofTokens_eq_iff`.
-/

import MonkeyLang.Proofs.Parser.Completeness

namespace MonkeyLang

open MonkeyLang.Parser

/-! ### The parsers of the constructs -/

section Backward

variable {bound : Nat} {expression : Precedence → Parser Expression} {cursor last : Cursor}

/-- A parser for expressions that moves its cursor and that, in front of fewer tokens than the
bound, reads without a diagnostic only what the relation reads. -/
structure Parser.Sound (bound : Nat) (expression : Precedence → Parser Expression) : Prop where
  moves : ∀ floor, (expression floor).Moves
  reads : ∀ {floor : Precedence} {tree : Expression} {cursor last : Cursor},
    cursor.rest.length < bound → (expression floor).on cursor = (.ok tree, last) →
    last.diagnostics.size ≤ cursor.diagnostics.size →
    Reads (.expression floor tree) cursor.terminals last.terminals

/-- Where a terminal of some kind other than the end of input is ahead, it is the next one. -/
theorem Cursor.terminals_eq_cons {kind : Kind} (head : headKind cursor.terminals = kind)
    (more : kind ≠ .endOfInput) :
    ∃ terminal, cursor.terminals = terminal :: cursor.advance.terminals ∧ terminal.kind = kind ∧
      cursor.next.text = terminal.text ∧ cursor.rest.length = cursor.advance.rest.length + 1 := by
  obtain ⟨terminal, rest, ahead, isKind⟩ := exists_cons_of_headKind head more
  obtain ⟨behind, length⟩ := Cursor.advance_spec ahead
  exact ⟨terminal, by rw [behind, ahead], isKind, text_next ahead, length⟩

theorem reads_moreNames {rounds : Nat} {found names : List String}
    (enough : cursor.rest.length < rounds)
    (reads : (moreItems parameter rounds found).on cursor = (.ok names, last)) :
    ∃ more, names = found.reverse ++ more ∧
      ReadsMoreNames cursor.terminals more last.terminals := by
  induction rounds generalizing cursor found with
  | zero => exact absurd enough (Nat.not_lt_zero _)
  | succ rounds inductionHypothesis =>
    rcases moreItems_succ_on_eq_ok.mp reads with
      ⟨isComma, name, second, readName, readMore⟩ | ⟨noComma, rfl, rfl⟩
    · obtain ⟨isName, rfl, rfl⟩ := parameter_on_eq_ok.mp readName
      obtain ⟨comma, ahead, commaKind, -, length⟩ := cursor.terminals_eq_cons isComma (by decide)
      obtain ⟨name, aheadName, nameKind, text, lengthName⟩ :=
        cursor.advance.terminals_eq_cons isName (by decide)
      obtain ⟨more, rfl, readsMore⟩ := inductionHypothesis (by omega) readMore
      refine ⟨cursor.advance.next.text :: more, ?_, ?_⟩
      · rw [List.reverse_cons, List.append_assoc, List.singleton_append]
      · rw [ahead, aheadName, text]
        exact .next commaKind nameKind readsMore
    · exact ⟨[], by rw [List.append_nil], .stop noComma⟩

theorem reads_names {names : List String} (enough : cursor.rest.length < bound)
    (reads : (commaSeparated bound .closeParen parameter).on cursor = (.ok names, last)) :
    ReadsNames cursor.terminals names last.terminals := by
  rcases commaSeparated_on_eq_ok.mp reads with
    ⟨isClose, rfl, rfl⟩ | ⟨_, name, second, behind, readName, readMore, isClose, rfl⟩
  · obtain ⟨close, ahead, closeKind, -⟩ := cursor.terminals_eq_cons isClose (by decide)
    rw [ahead]
    exact .none closeKind
  · obtain ⟨isName, rfl, rfl⟩ := parameter_on_eq_ok.mp readName
    obtain ⟨name, ahead, nameKind, text, length⟩ := cursor.terminals_eq_cons isName (by decide)
    obtain ⟨close, aheadClose, closeKind, -⟩ := behind.terminals_eq_cons isClose (by decide)
    obtain ⟨more, rfl, readsMore⟩ := reads_moreNames (by omega) readMore
    rw [ahead, text]
    rw [aheadClose] at readsMore
    exact .some nameKind readsMore closeKind

section Constructs

variable (sound : Parser.Sound bound expression)

include sound

theorem reads_moreItems {rounds : Nat} {found trees : List Expression}
    (enough : cursor.rest.length < bound) (enoughRounds : cursor.rest.length < rounds)
    (reads : (moreItems (expression .lowest) rounds found).on cursor = (.ok trees, last))
    (clean : last.diagnostics.size ≤ cursor.diagnostics.size) :
    ∃ more, trees = found.reverse ++ more ∧
      Reads (.moreItems more) cursor.terminals last.terminals := by
  induction rounds generalizing cursor found with
  | zero => exact absurd enoughRounds (Nat.not_lt_zero _)
  | succ rounds inductionHypothesis =>
    rcases moreItems_succ_on_eq_ok.mp reads with
      ⟨isComma, tree, second, readTree, readMore⟩ | ⟨noComma, rfl, rfl⟩
    · obtain ⟨comma, ahead, commaKind, -, length⟩ := cursor.terminals_eq_cons isComma (by decide)
      obtain ⟨kept, shorter⟩ := (sound.moves .lowest).kept readTree
      obtain ⟨keptMore, -⟩ := (moves_moreItems (sound.moves .lowest) _ _).kept readMore
      rw [Cursor.diagnostics_advance] at kept
      have readsTree := sound.reads (by omega) readTree (by rw [Cursor.diagnostics_advance]; omega)
      obtain ⟨more, rfl, readsMore⟩ :=
        inductionHypothesis (by omega) (by omega) readMore (by omega)
      refine ⟨tree :: more, ?_, ?_⟩
      · rw [List.reverse_cons, List.append_assoc, List.singleton_append]
      · rw [ahead]
        exact .nextItem commaKind readsTree readsMore
    · exact ⟨[], by rw [List.append_nil], .lastItem noComma⟩

theorem reads_items {close : Kind} {trees : List Expression} (more : close ≠ .endOfInput)
    (enough : cursor.rest.length < bound)
    (reads : (commaSeparated bound close (expression .lowest)).on cursor = (.ok trees, last))
    (clean : last.diagnostics.size ≤ cursor.diagnostics.size) :
    Reads (.items close trees) cursor.terminals last.terminals := by
  rcases commaSeparated_on_eq_ok.mp reads with
    ⟨isClose, rfl, rfl⟩ | ⟨noClose, first, second, behind, readFirst, readMore, isClose, rfl⟩
  · obtain ⟨close, ahead, rfl, -⟩ := cursor.terminals_eq_cons isClose more
    rw [ahead]
    exact .noItems more
  · obtain ⟨close, aheadClose, rfl, -⟩ := behind.terminals_eq_cons isClose more
    obtain ⟨kept, shorter⟩ := (sound.moves .lowest).kept readFirst
    obtain ⟨keptMore, -⟩ := (moves_moreItems (sound.moves .lowest) _ _).kept readMore
    rw [Cursor.diagnostics_advance] at clean
    have readsFirst := sound.reads enough readFirst (by omega)
    have progress := readsFirst.shorter rfl rfl
    obtain ⟨trees, rfl, readsMore⟩ :=
      reads_moreItems sound (by omega) (by simp only [Phrase.least] at progress; omega) readMore
        (by omega)
    rw [aheadClose] at readsMore
    exact .items more noClose readsFirst readsMore

theorem reads_pairs {rounds : Nat} {found trees : List (Expression × Expression)}
    (enough : cursor.rest.length < bound) (enoughRounds : cursor.rest.length < rounds)
    (reads : (pairs expression rounds found).on cursor = (.ok trees, last))
    (clean : last.diagnostics.size ≤ cursor.diagnostics.size) :
    ∃ more, trees = found.reverse ++ more ∧
      Reads (.pairs more) cursor.terminals last.terminals := by
  induction rounds generalizing cursor found with
  | zero => exact absurd enoughRounds (Nat.not_lt_zero _)
  | succ rounds inductionHypothesis =>
    rcases pairs_succ_on_eq_ok.mp reads with
      ⟨isClose, rfl, rfl⟩ |
      ⟨noClose, key, second, value, third, fourth, readKey, isColon, readValue, ends, readMore⟩
    · exact ⟨[], by rw [List.append_nil], .noPairs isClose⟩
    · obtain ⟨colon, aheadColon, colonKind, -, length⟩ :=
        second.terminals_eq_cons isColon (by decide)
      obtain ⟨keptKey, shorterKey⟩ := (sound.moves .lowest).kept readKey
      obtain ⟨keptValue, shorterValue⟩ := (sound.moves .lowest).kept readValue
      obtain ⟨keptMore, -⟩ := (moves_pairs sound.moves _ _).kept readMore
      rw [Cursor.diagnostics_advance] at keptValue
      have keptEnd : third.diagnostics = fourth.diagnostics := by
        rcases ends with ⟨-, rfl⟩ | ⟨-, rfl⟩ <;> rfl
      rw [← keptEnd] at keptMore
      have readsKey := sound.reads enough readKey (by omega)
      have readsValue := sound.reads (by omega) readValue
        (by rw [Cursor.diagnostics_advance]; omega)
      rw [aheadColon] at readsKey
      rcases ends with ⟨isClose, rfl⟩ | ⟨isComma, rfl⟩
      · obtain ⟨more, rfl, readsMore⟩ :=
          inductionHypothesis (by omega) (by omega) readMore (by omega)
        refine ⟨(key, value) :: more, by
          rw [List.reverse_cons, List.append_assoc, List.singleton_append], ?_⟩
        generalize last.terminals = rest at readsMore ⊢
        cases readsMore with
        | noPairs _ => exact .lastPair noClose readsKey colonKind readsValue isClose
        | lastPair more _ _ _ _ => exact absurd isClose more
        | nextPair more _ _ _ _ _ => exact absurd isClose more
      · obtain ⟨comma, aheadComma, commaKind, -, lengthComma⟩ :=
          third.terminals_eq_cons isComma (by decide)
        obtain ⟨more, rfl, readsMore⟩ :=
          inductionHypothesis (by omega) (by omega) readMore (by
            rw [Cursor.diagnostics_advance]; omega)
        rw [aheadComma] at readsValue
        refine ⟨(key, value) :: more, by
          rw [List.reverse_cons, List.append_assoc, List.singleton_append], ?_⟩
        exact .nextPair noClose readsKey colonKind readsValue commaKind readsMore

theorem reads_statement {tree : Statement} (enough : cursor.rest.length < bound)
    (reads : (statement expression).on cursor = (.ok tree, last))
    (clean : last.diagnostics.size ≤ cursor.diagnostics.size) :
    Reads (.statement tree) cursor.terminals last.terminals := by
  rcases statement_on_eq_ok.mp reads with
    ⟨isLet, isName, isAssign, value, middle, readValue, rfl, rfl⟩ |
    ⟨isReturn, value, middle, readValue, rfl, rfl⟩ |
    ⟨noLet, noReturn, value, middle, readValue, rfl, rfl⟩
  · obtain ⟨word, ahead, wordKind, -, length⟩ := cursor.terminals_eq_cons isLet (by decide)
    obtain ⟨name, aheadName, nameKind, text, lengthName⟩ :=
      cursor.advance.terminals_eq_cons isName (by decide)
    obtain ⟨assign, aheadAssign, assignKind, -, lengthAssign⟩ :=
      cursor.advance.advance.terminals_eq_cons isAssign (by decide)
    rw [Cursor.diagnostics_skipSemicolon] at clean
    rw [ahead, aheadName, aheadAssign, text, Cursor.terminals_skipSemicolon]
    exact .binding wordKind nameKind assignKind (sound.reads (by omega) readValue clean)
  · obtain ⟨word, ahead, wordKind, -, length⟩ := cursor.terminals_eq_cons isReturn (by decide)
    rw [Cursor.diagnostics_skipSemicolon] at clean
    rw [ahead, Cursor.terminals_skipSemicolon]
    exact .returning wordKind (sound.reads (by omega) readValue clean)
  · rw [Cursor.diagnostics_skipSemicolon] at clean
    rw [Cursor.terminals_skipSemicolon]
    exact .evaluated noLet noReturn (sound.reads enough readValue clean)

theorem reads_statements {stops : Kind → Bool} {rounds : Nat} {found trees : List Statement}
    (enough : cursor.rest.length < bound) (enoughRounds : cursor.rest.length < rounds)
    (reads : StateT.run (statements expression stops rounds found) cursor = (trees, last))
    (clean : last.diagnostics.size ≤ cursor.diagnostics.size) :
    ∃ more, trees = found.reverse ++ more ∧
      Reads (.statements stops more) cursor.terminals last.terminals := by
  induction rounds generalizing cursor found with
  | zero => exact absurd enoughRounds (Nat.not_lt_zero _)
  | succ rounds inductionHypothesis =>
    rw [run_statements_succ] at reads
    split at reads
    · next stop =>
      obtain ⟨rfl, rfl⟩ := Prod.mk.inj reads
      exact ⟨[], by rw [List.append_nil], .noStatements stop⟩
    · next goesOn =>
      -- A statement that fails leaves a diagnostic behind, so the one ahead has been read.
      rcases outcome : (statement expression).on cursor with ⟨diagnostic | tree, middle⟩
      · rw [outcome] at reads
        obtain ⟨kept, -⟩ := (moves_statement sound.moves).kept outcome
        obtain ⟨keptMore, -⟩ := (moves_statements sound.moves _ _ _).kept reads
        rw [Cursor.record, Array.size_push] at keptMore
        omega
      · rw [outcome] at reads
        obtain ⟨kept, shorter⟩ := (moves_statement sound.moves).kept outcome
        obtain ⟨keptMore, -⟩ := (moves_statements sound.moves _ _ _).kept reads
        have readsStatement := reads_statement sound enough outcome (by omega)
        have progress := readsStatement.shorter rfl rfl
        simp only [Phrase.least] at progress
        obtain ⟨more, rfl, readsMore⟩ :=
          inductionHypothesis (by omega) (by omega) reads (by omega)
        refine ⟨tree :: more, by
          rw [List.reverse_cons, List.append_assoc, List.singleton_append], ?_⟩
        exact .statements (Bool.eq_false_iff.mpr goesOn) readsStatement readsMore

theorem reads_block {trees : List Statement} (enough : cursor.rest.length < bound)
    (reads : (block bound expression).on cursor = (.ok trees, last))
    (clean : last.diagnostics.size ≤ cursor.diagnostics.size) :
    Reads (.block trees) cursor.terminals last.terminals := by
  obtain ⟨isBrace, middle, readBody, rfl⟩ := block_on_eq_ok.mp reads
  obtain ⟨brace, ahead, braceKind, -, length⟩ := cursor.terminals_eq_cons isBrace (by decide)
  obtain ⟨body, rfl, readsBody⟩ := reads_statements sound (by omega) (by omega) readBody clean
  rw [middle.terminals_advance, ahead]
  exact .block braceKind readsBody

theorem reads_grouped {tree : Expression} (enough : cursor.rest.length < bound)
    (reads : (grouped expression).on cursor = (.ok tree, last))
    (clean : last.diagnostics.size ≤ cursor.diagnostics.size) :
    ∃ close, close.kind = .closeParen ∧
      Reads (.expression .lowest tree) cursor.terminals (close :: last.terminals) := by
  obtain ⟨middle, readTree, isClose, rfl⟩ := grouped_on_eq_ok.mp reads
  obtain ⟨close, ahead, closeKind, -⟩ := middle.terminals_eq_cons isClose (by decide)
  have readsTree := sound.reads enough readTree clean
  rw [ahead] at readsTree
  exact ⟨close, closeKind, readsTree⟩

theorem reads_conditional {word : Terminal} {tree : Expression} (isWord : word.kind = .ifWord)
    (enough : cursor.rest.length < bound)
    (reads : (conditional bound expression).on cursor = (.ok tree, last))
    (clean : last.diagnostics.size ≤ cursor.diagnostics.size) :
    Reads (.operand tree) (word :: cursor.terminals) last.terminals := by
  obtain ⟨isParen, condition, second, consequence, third, readCondition, readBlock, ends⟩ :=
    conditional_on_eq_ok.mp reads
  obtain ⟨paren, ahead, parenKind, -, length⟩ := cursor.terminals_eq_cons isParen (by decide)
  obtain ⟨keptCondition, shorterCondition⟩ := (moves_grouped sound.moves).kept readCondition
  obtain ⟨keptBlock, shorterBlock⟩ := (moves_block sound.moves bound).kept readBlock
  rw [Cursor.diagnostics_advance] at keptCondition
  rcases ends with ⟨isElse, alternative, readAlternative, rfl⟩ | ⟨noElse, rfl, rfl⟩
  · obtain ⟨otherwise, aheadElse, elseKind, -, lengthElse⟩ :=
      third.terminals_eq_cons isElse (by decide)
    obtain ⟨keptAlternative, -⟩ := (moves_block sound.moves bound).kept readAlternative
    rw [Cursor.diagnostics_advance] at keptAlternative
    obtain ⟨close, closeKind, readsCondition⟩ := reads_grouped sound (by omega) readCondition
      (by rw [Cursor.diagnostics_advance]; omega)
    have readsBlock := reads_block sound (by omega) readBlock (by omega)
    have readsAlternative := reads_block sound (by omega) readAlternative
      (by rw [Cursor.diagnostics_advance]; omega)
    rw [aheadElse] at readsBlock
    rw [ahead]
    exact .alternative isWord parenKind readsCondition closeKind readsBlock elseKind
      readsAlternative
  · obtain ⟨close, closeKind, readsCondition⟩ := reads_grouped sound (by omega) readCondition
      (by rw [Cursor.diagnostics_advance]; omega)
    have readsBlock := reads_block sound (by omega) readBlock (by omega)
    rw [ahead]
    exact .conditional isWord parenKind readsCondition closeKind readsBlock noElse

theorem reads_function {word : Terminal} {tree : Expression} (isWord : word.kind = .functionWord)
    (enough : cursor.rest.length < bound)
    (reads : (function bound expression).on cursor = (.ok tree, last))
    (clean : last.diagnostics.size ≤ cursor.diagnostics.size) :
    Reads (.operand tree) (word :: cursor.terminals) last.terminals := by
  obtain ⟨isParen, parameters, second, body, readNames, readBlock, rfl⟩ :=
    function_on_eq_ok.mp reads
  obtain ⟨paren, ahead, parenKind, -, length⟩ := cursor.terminals_eq_cons isParen (by decide)
  obtain ⟨kept, shorter⟩ := (moves_commaSeparated moves_parameter _ _).kept readNames
  rw [Cursor.diagnostics_advance] at kept
  rw [ahead]
  exact .function isWord parenKind (reads_names (by omega) readNames)
    (reads_block sound (by omega) readBlock (by omega))

theorem reads_operand {tree : Expression} (enough : cursor.rest.length ≤ bound)
    (reads : (operand bound expression).on cursor = (.ok tree, last))
    (clean : last.diagnostics.size ≤ cursor.diagnostics.size) :
    Reads (.operand tree) cursor.terminals last.terminals := by
  rw [operand, on_lift_bind, run_take] at reads
  dsimp only at reads
  rw [Cursor.kind_next] at reads
  generalize head : headKind cursor.terminals = kind at reads
  by_cases more : kind = .endOfInput
  · subst more
    exact absurd reads on_throw_ne_ok.mp
  obtain ⟨terminal, ahead, terminalKind, text, length⟩ := cursor.terminals_eq_cons head more
  rw [ahead]
  rw [text] at reads
  split at reads
  · obtain ⟨rfl, rfl⟩ := on_pure_eq_ok.mp reads
    exact .identifier terminalKind
  · split at reads
    · next value found =>
      obtain ⟨rfl, rfl⟩ := on_pure_eq_ok.mp reads
      exact .integer terminalKind found
    · exact absurd reads on_throw_ne_ok.mp
  · obtain ⟨rfl, rfl⟩ := on_pure_eq_ok.mp reads
    exact .string terminalKind
  · obtain ⟨rfl, rfl⟩ := on_pure_eq_ok.mp reads
    exact .trueWord terminalKind
  · obtain ⟨rfl, rfl⟩ := on_pure_eq_ok.mp reads
    exact .falseWord terminalKind
  · obtain ⟨inner, middle, readInner, same⟩ := on_bind_eq_ok.mp reads
    obtain ⟨rfl, rfl⟩ := on_pure_eq_ok.mp same
    have isBang : _ = UnaryOperator.not.kind := terminalKind
    exact .unary isBang (sound.reads (by omega) readInner clean)
  · obtain ⟨inner, middle, readInner, same⟩ := on_bind_eq_ok.mp reads
    obtain ⟨rfl, rfl⟩ := on_pure_eq_ok.mp same
    have isMinus : _ = UnaryOperator.negate.kind := terminalKind
    exact .unary isMinus (sound.reads (by omega) readInner clean)
  · obtain ⟨close, closeKind, readsTree⟩ := reads_grouped sound (by omega) reads clean
    exact .grouped terminalKind readsTree closeKind
  · exact reads_conditional sound terminalKind (by omega) reads clean
  · exact reads_function sound terminalKind (by omega) reads clean
  · obtain ⟨elements, middle, readItems, same⟩ := on_bind_eq_ok.mp reads
    obtain ⟨rfl, rfl⟩ := on_pure_eq_ok.mp same
    exact .array terminalKind (reads_items sound (by decide) (by omega) readItems clean)
  · obtain ⟨entries, middle, readPairs, isClose, rfl, rfl⟩ := hash_on_eq_ok.mp reads
    obtain ⟨close, aheadClose, closeKind, -⟩ := middle.terminals_eq_cons isClose (by decide)
    obtain ⟨entries, rfl, readsPairs⟩ := reads_pairs sound (by omega) (by omega) readPairs clean
    rw [aheadClose] at readsPairs
    exact .hash terminalKind readsPairs closeKind
  · exact absurd reads on_throw_ne_ok.mp

theorem reads_continuations {floor : Precedence} {rounds : Nat} {left tree : Expression}
    (enough : cursor.rest.length < bound) (enoughRounds : cursor.rest.length < rounds)
    (reads : (continuations bound expression floor rounds left).on cursor = (.ok tree, last))
    (clean : last.diagnostics.size ≤ cursor.diagnostics.size) :
    Reads (.continuations floor left tree) cursor.terminals last.terminals := by
  induction rounds generalizing cursor left with
  | zero => exact absurd enoughRounds (Nat.not_lt_zero _)
  | succ rounds inductionHypothesis =>
    rcases continuations_succ_on_eq_ok.mp reads with
      ⟨halts, rfl, rfl⟩ | ⟨next, larger, middle, found, tighter, readNext, readMore⟩
    · exact .halt halts
    · obtain ⟨terminal, ahead, isKind, -, length⟩ :=
        cursor.terminals_eq_cons (Continuation.ofKind?_eq_some_iff.mp found)
          next.kind_ne_endOfInput
      obtain ⟨kept, shorter⟩ := (moves_continuation sound.moves bound left next).kept readNext
      obtain ⟨keptMore, -⟩ := (moves_continuations sound.moves _ _ _ _).kept readMore
      rw [Cursor.diagnostics_advance] at kept
      have readsMore := inductionHypothesis (by omega) (by omega) readMore (by omega)
      rw [ahead]
      have cleanNext : middle.diagnostics.size ≤ cursor.advance.diagnostics.size := by
        rw [Cursor.diagnostics_advance]
        omega
      cases next with
      | operation operator =>
        obtain ⟨right, _, readRight, same⟩ := on_bind_eq_ok.mp readNext
        obtain ⟨rfl, rfl⟩ := on_pure_eq_ok.mp same
        exact .operation isKind tighter (sound.reads (by omega) readRight cleanNext) readsMore
      | call =>
        obtain ⟨arguments, _, readItems, same⟩ := on_bind_eq_ok.mp readNext
        obtain ⟨rfl, rfl⟩ := on_pure_eq_ok.mp same
        exact .call isKind tighter
          (reads_items sound (by decide) (by omega) readItems cleanNext) readsMore
      | index =>
        obtain ⟨position, behind, readPosition, closes⟩ := on_bind_eq_ok.mp readNext
        obtain ⟨_, _, isClosed, same⟩ := on_bind_eq_ok.mp closes
        obtain ⟨isClose, -, rfl⟩ := expect_on_eq_ok.mp isClosed
        obtain ⟨rfl, rfl⟩ := on_pure_eq_ok.mp same
        obtain ⟨close, aheadClose, closeKind, -⟩ := behind.terminals_eq_cons isClose (by decide)
        have readsPosition := sound.reads (by omega) readPosition cleanNext
        rw [aheadClose] at readsPosition
        exact .index isKind tighter readsPosition closeKind readsMore

end Constructs

/-- What the parser for expressions reads without a diagnostic, the relation reads. -/
theorem sound_expression (bound : Nat) : Parser.Sound bound (Parser.expression bound) := by
  induction bound with
  | zero => exact ⟨moves_expression 0, fun _ reads => absurd reads expression_zero_on_ne_ok⟩
  | succ bound inductionHypothesis =>
    refine ⟨moves_expression _, fun enough reads clean => ?_⟩
    obtain ⟨left, middle, readOperand, readMore⟩ := expression_succ_on_eq_ok.mp reads
    obtain ⟨kept, -⟩ := (moves_operand inductionHypothesis.moves bound).kept readOperand
    obtain ⟨keptMore, -⟩ := (moves_continuations inductionHypothesis.moves _ _ _ _).kept readMore
    have readsOperand :=
      reads_operand inductionHypothesis (Nat.le_of_lt_succ enough) readOperand (by omega)
    have progress := readsOperand.shorter rfl rfl
    simp only [Phrase.least] at progress
    exact .expression readsOperand
      (reads_continuations inductionHypothesis (by omega) (by omega) readMore (by omega))

end Backward

/-! ### Whole programs -/

/-- The only kind of token in front of which a program ends. -/
def endsProgram (kind : Kind) : Bool :=
  kind == .endOfInput

/-- A program is read from a stream of tokens without a diagnostic exactly if the relation reads
its statements up to an end of input. -/
theorem ofTokens_eq_iff (tokens : List Token) (statements : List Statement) :
    Parsed.ofTokens tokens = ⟨⟨statements⟩, []⟩ ↔
      ∃ rest, Reads (.statements endsProgram statements) (tokens.map Token.terminal) rest := by
  have enough : (Cursor.ofTokens tokens).rest.length < tokens.length + 1 :=
    Nat.lt_succ_self tokens.length
  rcases outcome : StateT.run (Parser.statements (Parser.expression (tokens.length + 1))
    endsProgram (tokens.length + 1) []) (Cursor.ofTokens tokens) with ⟨trees, last⟩
  have parsed : Parsed.ofTokens tokens = ⟨⟨trees⟩, last.diagnostics.toList⟩ := by
    have unfolded : Parsed.ofTokens tokens =
        let reading := StateT.run (Parser.statements (Parser.expression (tokens.length + 1))
          endsProgram (tokens.length + 1) []) (Cursor.ofTokens tokens)
        ⟨⟨reading.1⟩, reading.2.diagnostics.toList⟩ := rfl
    rw [unfolded, outcome]
  rw [parsed]
  constructor
  · intro same
    obtain ⟨rfl, none⟩ : trees = statements ∧ last.diagnostics = #[] := by simpa using same
    obtain ⟨more, rfl, reads⟩ := reads_statements (sound_expression _) enough enough outcome
      (by rw [none]; exact Nat.zero_le _)
    exact ⟨last.terminals, reads⟩
  · rintro ⟨rest, reads⟩
    obtain ⟨behind, -, clean, readStatements⟩ :=
      reads.parsed (show (Cursor.ofTokens tokens).terminals = _ from rfl)
    have same := readStatements _ _ [] enough enough
    rw [outcome] at same
    obtain ⟨rfl, rfl⟩ := Prod.mk.inj same
    rw [clean]
    rfl

end MonkeyLang
