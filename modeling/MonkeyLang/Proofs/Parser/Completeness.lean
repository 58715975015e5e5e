/-
This file proves that whatever the relation `Reads` reads, the parser reads,
and without keeping a diagnostic. The parser may be given any bound above the
number of tokens ahead, so the bound that `Parsed.ofTokens` supplies never runs
out before the tokens do.
-/

import MonkeyLang.Proofs.Parser.Reading

namespace MonkeyLang

open MonkeyLang.Parser

/-! ### The parser of a phrase -/

/-- The parser of a phrase reads the phrase between two cursors, whatever bound above the number
of tokens ahead it is given. -/
def Phrase.Parsed (cursor last : Cursor) : Phrase → Prop
  | .expression floor tree => ∀ bound, cursor.rest.length < bound →
    (Parser.expression bound floor).on cursor = (.ok tree, last)
  | .operand tree => ∀ bound, cursor.rest.length ≤ bound →
    (Parser.operand bound (Parser.expression bound)).on cursor = (.ok tree, last)
  | .continuations floor left tree => ∀ bound rounds, cursor.rest.length < bound →
    cursor.rest.length < rounds →
    (Parser.continuations bound (Parser.expression bound) floor rounds left).on cursor =
      (.ok tree, last)
  | .moreItems trees => ∀ bound rounds found, cursor.rest.length < bound →
    cursor.rest.length < rounds →
    (Parser.moreItems (Parser.expression bound .lowest) rounds found).on cursor =
      (.ok (found.reverse ++ trees), last)
  | .items close trees => ∀ bound, cursor.rest.length < bound →
    (Parser.commaSeparated bound close (Parser.expression bound .lowest)).on cursor =
      (.ok trees, last)
  | .pairs trees => ∀ bound rounds found, cursor.rest.length < bound →
    cursor.rest.length < rounds →
    (Parser.pairs (Parser.expression bound) rounds found).on cursor =
      (.ok (found.reverse ++ trees), last)
  | .statement tree => ∀ bound, cursor.rest.length < bound →
    (Parser.statement (Parser.expression bound)).on cursor = (.ok tree, last)
  | .statements stops trees => ∀ bound rounds found, cursor.rest.length < bound →
    cursor.rest.length < rounds →
    StateT.run (Parser.statements (Parser.expression bound) stops rounds found) cursor =
      (found.reverse ++ trees, last)
  | .block trees => ∀ bound, cursor.rest.length < bound →
    (Parser.block bound (Parser.expression bound)).on cursor = (.ok trees, last)

section Forward

variable {cursor : Cursor}

/-- A cursor whose first terminal is left behind. -/
theorem Cursor.advance_spec {terminal : Terminal} {rest : List Terminal}
    (ahead : cursor.terminals = terminal :: rest) :
    cursor.advance.terminals = rest ∧ cursor.rest.length = cursor.advance.rest.length + 1 := by
  have length := congrArg List.length ahead
  rw [length_terminals, List.length_cons] at length
  refine ⟨by rw [terminals_advance, ahead, List.tail_cons], ?_⟩
  rw [length_rest_advance]
  omega

theorem ReadsMoreNames.parsed {terminals rest : List Terminal} {names : List String}
    (reads : ReadsMoreNames terminals names rest) (ahead : cursor.terminals = terminals) :
    ∃ last : Cursor, last.terminals = rest ∧ last.diagnostics = cursor.diagnostics ∧
      ∀ rounds found, cursor.rest.length < rounds →
        (moreItems parameter rounds found).on cursor = (.ok (found.reverse ++ names), last) := by
  induction reads generalizing cursor with
  | stop noComma =>
    refine ⟨cursor, ahead, rfl, fun rounds found enough => ?_⟩
    obtain ⟨rounds, rfl⟩ := Nat.exists_eq_add_of_lt enough
    refine moreItems_succ_on_eq_ok.mpr (.inr ⟨ahead ▸ noComma, ?_, rfl⟩)
    rw [List.append_nil]
  | next isComma isName _ inductionHypothesis =>
    obtain ⟨second, secondLength⟩ := Cursor.advance_spec ahead
    obtain ⟨third, thirdLength⟩ := Cursor.advance_spec second
    obtain ⟨last, left, clean, reads⟩ := inductionHypothesis third
    refine ⟨last, left, clean, fun rounds found enough => ?_⟩
    obtain ⟨rounds, rfl⟩ := Nat.exists_eq_add_of_lt enough
    refine moreItems_succ_on_eq_ok.mpr (.inl ⟨by rw [ahead, headKind_cons, isComma], _, _,
      parameter_on_eq_ok.mpr
        ⟨by rw [second, headKind_cons, isName], Cursor.text_next second, rfl⟩, ?_⟩)
    rw [reads _ _ (by omega), List.reverse_cons, List.append_assoc, List.singleton_append]

theorem ReadsNames.parsed {terminals rest : List Terminal} {names : List String}
    (reads : ReadsNames terminals names rest) (ahead : cursor.terminals = terminals) :
    ∃ last : Cursor, last.terminals = rest ∧ last.diagnostics = cursor.diagnostics ∧
      ∀ bound, cursor.rest.length < bound →
        (commaSeparated bound .closeParen parameter).on cursor = (.ok names, last) := by
  cases reads with
  | none isClose =>
    obtain ⟨left, _⟩ := Cursor.advance_spec ahead
    exact ⟨cursor.advance, left, rfl, fun bound _ =>
      commaSeparated_on_eq_ok.mpr (.inl ⟨by rw [ahead, headKind_cons, isClose], rfl, rfl⟩)⟩
  | some isName more isClose =>
    obtain ⟨second, secondLength⟩ := Cursor.advance_spec ahead
    obtain ⟨behind, left, clean, reads⟩ := more.parsed second
    obtain ⟨close, _⟩ := Cursor.advance_spec left
    refine ⟨behind.advance, close, clean, fun bound enough => ?_⟩
    refine commaSeparated_on_eq_ok.mpr (.inr ⟨by rw [ahead, headKind_cons, isName]; decide, _, _,
      behind,
      parameter_on_eq_ok.mpr ⟨by rw [ahead, headKind_cons, isName], Cursor.text_next ahead, rfl⟩,
      reads bound _ (by omega), by rw [left, headKind_cons, isClose], rfl⟩)

/-- Reading a phrase leaves as many tokens behind as the phrase takes terminals. -/
theorem Reads.shorter {phrase : Phrase} {terminals rest : List Terminal} {last : Cursor}
    (reads : Reads phrase terminals rest) (ahead : cursor.terminals = terminals)
    (left : last.terminals = rest) : last.rest.length + phrase.least ≤ cursor.rest.length := by
  rw [← Cursor.length_terminals, ← Cursor.length_terminals, ahead, left]
  exact reads.length_le

/-- Wherever the terminals are ahead, the parser reads the phrase up to the rest, and it keeps no
diagnostic. -/
def Phrase.ParsedFrom (terminals rest : List Terminal) (phrase : Phrase) : Prop :=
  ∀ {cursor : Cursor}, cursor.terminals = terminals →
    ∃ last : Cursor, last.terminals = rest ∧ last.diagnostics = cursor.diagnostics ∧
      phrase.Parsed cursor last

/-- A continuation that binds tighter than the floor is read, and then the ones behind it. -/
theorem Phrase.Parsed.behindContinuation {floor : Precedence} {next : Continuation}
    {finished larger tree : Expression} {middle last : Cursor}
    (found : headKind cursor.terminals = next.kind) (tighter : floor < next.precedence)
    (readNext : ∀ bound, cursor.rest.length < bound →
      (Parser.continuation bound (Parser.expression bound) finished next).on cursor.advance =
        (.ok larger, middle))
    (shorter : middle.rest.length < cursor.rest.length)
    (more : (Phrase.continuations floor larger tree).Parsed middle last) :
    (Phrase.continuations floor finished tree).Parsed cursor last := by
  intro bound rounds enough enoughRounds
  obtain ⟨rounds, rfl⟩ := Nat.exists_eq_add_of_lt enoughRounds
  exact continuations_succ_on_eq_ok.mpr (.inr ⟨next, larger, middle,
    Continuation.ofKind?_eq_some_iff.mpr found, tighter, readNext bound enough,
    more bound _ (by omega) (by omega)⟩)

/-- The part of a conditional that is there with and without an alternative. -/
theorem Reads.parsed_consequence {word paren close : Terminal} {condition : Expression}
    {consequence : List Statement} {terminals middle rest : List Terminal}
    (ahead : cursor.terminals = word :: paren :: terminals)
    (readsCondition : Reads (.expression .lowest condition) terminals (close :: middle))
    (isClose : close.kind = .closeParen) (readsBlock : Reads (.block consequence) middle rest)
    (parsedCondition : (Phrase.expression .lowest condition).ParsedFrom terminals (close :: middle))
    (parsedBlock : (Phrase.block consequence).ParsedFrom middle rest) :
    ∃ second third : Cursor, third.terminals = rest ∧ third.diagnostics = cursor.diagnostics ∧
      third.rest.length < cursor.rest.length ∧ ∀ bound, cursor.rest.length ≤ bound →
        (Parser.grouped (Parser.expression bound)).on cursor.advance.advance =
          (.ok condition, second) ∧
        (Parser.block bound (Parser.expression bound)).on second = (.ok consequence, third) := by
  obtain ⟨atParen, parenLength⟩ := Cursor.advance_spec ahead
  obtain ⟨atCondition, conditionLength⟩ := Cursor.advance_spec atParen
  obtain ⟨behind, atClose, cleanCondition, readCondition⟩ := parsedCondition atCondition
  obtain ⟨atBlock, blockLength⟩ := Cursor.advance_spec atClose
  obtain ⟨third, left, clean, readBlock⟩ := parsedBlock atBlock
  have shorter : behind.rest.length + 1 ≤ _ := readsCondition.shorter atCondition atClose
  have shorterBlock : third.rest.length + 1 ≤ _ := readsBlock.shorter atBlock left
  refine ⟨behind.advance, third, left, clean.trans cleanCondition, by omega, fun bound enough => ?_⟩
  exact ⟨grouped_on_eq_ok.mpr ⟨behind, readCondition _ (by omega),
    by rw [atClose, headKind_cons, isClose], rfl⟩, readBlock _ (by omega)⟩

/-- A key, the colon and the value behind it. -/
theorem Reads.parsed_pair {colon : Terminal} {key value : Expression}
    {terminals middle rest : List Terminal} (ahead : cursor.terminals = terminals)
    (readsKey : Reads (.expression .lowest key) terminals (colon :: middle))
    (readsValue : Reads (.expression .lowest value) middle rest)
    (parsedKey : (Phrase.expression .lowest key).ParsedFrom terminals (colon :: middle))
    (parsedValue : (Phrase.expression .lowest value).ParsedFrom middle rest) :
    ∃ second third : Cursor, headKind second.terminals = colon.kind ∧ third.terminals = rest ∧
      third.diagnostics = cursor.diagnostics ∧ third.rest.length < cursor.rest.length ∧
      ∀ bound, cursor.rest.length < bound →
        (Parser.expression bound .lowest).on cursor = (.ok key, second) ∧
        (Parser.expression bound .lowest).on second.advance = (.ok value, third) := by
  obtain ⟨second, atColon, cleanKey, readKey⟩ := parsedKey ahead
  obtain ⟨atValue, valueLength⟩ := Cursor.advance_spec atColon
  obtain ⟨third, left, clean, readValue⟩ := parsedValue atValue
  have shorterKey : second.rest.length + 1 ≤ _ := readsKey.shorter ahead atColon
  have shorterValue : third.rest.length + 1 ≤ _ := readsValue.shorter atValue left
  exact ⟨second, third, by rw [atColon, headKind_cons], left, clean.trans cleanKey, by omega,
    fun bound enough => ⟨readKey _ enough, readValue _ (by omega)⟩⟩

/-- What the relation reads, the parser reads, and it keeps no diagnostic. -/
theorem Reads.parsed {phrase : Phrase} {terminals rest : List Terminal}
    (reads : Reads phrase terminals rest) : phrase.ParsedFrom terminals rest := by
  intro cursor ahead
  induction reads generalizing cursor with
  | expression readsOperand _ operand continuations =>
    obtain ⟨second, secondAhead, secondClean, readOperand⟩ := operand ahead
    obtain ⟨last, left, clean, readContinuations⟩ := continuations secondAhead
    have shorter : second.rest.length + 1 ≤ _ := readsOperand.shorter ahead secondAhead
    refine ⟨last, left, clean.trans secondClean, fun bound enough => ?_⟩
    obtain ⟨bound, rfl⟩ := Nat.exists_eq_add_of_lt enough
    exact expression_succ_on_eq_ok.mpr ⟨_, second, readOperand _ (by omega),
      readContinuations _ _ (by omega) (by omega)⟩
  | identifier isName =>
    obtain ⟨left, _⟩ := Cursor.advance_spec ahead
    refine ⟨cursor.advance, left, rfl, fun bound _ => ?_⟩
    rw [operand, on_lift_bind, run_take]
    simp only [Cursor.kind_next, ahead, headKind_cons, isName, Cursor.text_next ahead]
    exact on_pure_eq_ok.mpr ⟨rfl, rfl⟩
  | integer isInteger isValue =>
    obtain ⟨left, _⟩ := Cursor.advance_spec ahead
    refine ⟨cursor.advance, left, rfl, fun bound _ => ?_⟩
    rw [operand, on_lift_bind, run_take]
    simp only [Cursor.kind_next, ahead, headKind_cons, isInteger, Cursor.text_next ahead, isValue]
    exact on_pure_eq_ok.mpr ⟨rfl, rfl⟩
  | string isString =>
    obtain ⟨left, _⟩ := Cursor.advance_spec ahead
    refine ⟨cursor.advance, left, rfl, fun bound _ => ?_⟩
    rw [operand, on_lift_bind, run_take]
    simp only [Cursor.kind_next, ahead, headKind_cons, isString, Cursor.text_next ahead]
    exact on_pure_eq_ok.mpr ⟨rfl, rfl⟩
  | trueWord isTrue =>
    obtain ⟨left, _⟩ := Cursor.advance_spec ahead
    refine ⟨cursor.advance, left, rfl, fun bound _ => ?_⟩
    rw [operand, on_lift_bind, run_take]
    simp only [Cursor.kind_next, ahead, headKind_cons, isTrue]
    exact on_pure_eq_ok.mpr ⟨rfl, rfl⟩
  | falseWord isFalse =>
    obtain ⟨left, _⟩ := Cursor.advance_spec ahead
    refine ⟨cursor.advance, left, rfl, fun bound _ => ?_⟩
    rw [operand, on_lift_bind, run_take]
    simp only [Cursor.kind_next, ahead, headKind_cons, isFalse]
    exact on_pure_eq_ok.mpr ⟨rfl, rfl⟩
  | @unary _ operator _ _ _ isSign _ inner =>
    obtain ⟨second, secondLength⟩ := Cursor.advance_spec ahead
    obtain ⟨last, left, clean, readInner⟩ := inner second
    refine ⟨last, left, clean, fun bound enough => ?_⟩
    rw [operand, on_lift_bind, run_take]
    cases operator with
    | not =>
      simp only [Cursor.kind_next, ahead, headKind_cons, isSign, UnaryOperator.kind]
      exact on_bind_eq_ok.mpr ⟨_, _, readInner _ (by omega), on_pure_eq_ok.mpr ⟨rfl, rfl⟩⟩
    | negate =>
      simp only [Cursor.kind_next, ahead, headKind_cons, isSign, UnaryOperator.kind]
      exact on_bind_eq_ok.mpr ⟨_, _, readInner _ (by omega), on_pure_eq_ok.mpr ⟨rfl, rfl⟩⟩
  | grouped isParen _ isClose inner =>
    obtain ⟨second, secondLength⟩ := Cursor.advance_spec ahead
    obtain ⟨third, thirdAhead, clean, readInner⟩ := inner second
    obtain ⟨left, _⟩ := Cursor.advance_spec thirdAhead
    refine ⟨third.advance, left, clean, fun bound enough => ?_⟩
    rw [operand, on_lift_bind, run_take]
    simp only [Cursor.kind_next, ahead, headKind_cons, isParen]
    exact grouped_on_eq_ok.mpr
      ⟨third, readInner _ (by omega), by rw [thirdAhead, headKind_cons, isClose], rfl⟩
  | conditional isWord isParen readsCondition isClose readsBlock noElse condition block =>
    obtain ⟨second, last, left, clean, -, readParts⟩ :=
      Reads.parsed_consequence ahead readsCondition isClose readsBlock condition block
    refine ⟨last, left, clean, fun bound enough => ?_⟩
    obtain ⟨readCondition, readBlock⟩ := readParts bound enough
    rw [operand, on_lift_bind, run_take]
    simp only [Cursor.kind_next, ahead, headKind_cons, isWord]
    exact conditional_on_eq_ok.mpr
      ⟨by rw [(Cursor.advance_spec ahead).1, headKind_cons, isParen], _, second, _, last,
        readCondition, readBlock, .inr ⟨by rwa [left], rfl, rfl⟩⟩
  | alternative isWord isParen readsCondition isClose readsBlock isElse _ condition block
      otherwise =>
    obtain ⟨second, third, atElse, thirdClean, shorter, readParts⟩ :=
      Reads.parsed_consequence ahead readsCondition isClose readsBlock condition block
    obtain ⟨fourth, fourthLength⟩ := Cursor.advance_spec atElse
    obtain ⟨last, left, clean, readAlternative⟩ := otherwise fourth
    refine ⟨last, left, clean.trans thirdClean, fun bound enough => ?_⟩
    obtain ⟨readCondition, readBlock⟩ := readParts bound enough
    rw [operand, on_lift_bind, run_take]
    simp only [Cursor.kind_next, ahead, headKind_cons, isWord]
    exact conditional_on_eq_ok.mpr
      ⟨by rw [(Cursor.advance_spec ahead).1, headKind_cons, isParen], _, second, _, third,
        readCondition, readBlock, .inl ⟨by rw [atElse, headKind_cons, isElse], _,
          readAlternative _ (by omega), rfl⟩⟩
  | function isWord isParen readsNames _ block =>
    obtain ⟨second, secondLength⟩ := Cursor.advance_spec ahead
    obtain ⟨third, thirdLength⟩ := Cursor.advance_spec second
    obtain ⟨fourth, fourthAhead, fourthClean, readNames⟩ := readsNames.parsed third
    obtain ⟨last, left, clean, readBlock⟩ := block fourthAhead
    have shorter := readsNames.length_lt
    rw [← third, ← fourthAhead, Cursor.length_terminals, Cursor.length_terminals] at shorter
    refine ⟨last, left, clean.trans fourthClean, fun bound enough => ?_⟩
    rw [operand, on_lift_bind, run_take]
    simp only [Cursor.kind_next, ahead, headKind_cons, isWord]
    exact function_on_eq_ok.mpr ⟨by rw [second, headKind_cons, isParen], _, fourth, _,
      readNames _ (by omega), readBlock _ (by omega), rfl⟩
  | array isBracket _ items =>
    obtain ⟨second, secondLength⟩ := Cursor.advance_spec ahead
    obtain ⟨last, left, clean, readItems⟩ := items second
    refine ⟨last, left, clean, fun bound enough => ?_⟩
    rw [operand, on_lift_bind, run_take]
    simp only [Cursor.kind_next, ahead, headKind_cons, isBracket]
    exact on_bind_eq_ok.mpr ⟨_, _, readItems _ (by omega), on_pure_eq_ok.mpr ⟨rfl, rfl⟩⟩
  | hash isBrace _ isClose pairs =>
    obtain ⟨second, secondLength⟩ := Cursor.advance_spec ahead
    obtain ⟨third, thirdAhead, clean, readPairs⟩ := pairs second
    obtain ⟨left, _⟩ := Cursor.advance_spec thirdAhead
    refine ⟨third.advance, left, clean, fun bound enough => ?_⟩
    rw [operand, on_lift_bind, run_take]
    simp only [Cursor.kind_next, ahead, headKind_cons, isBrace]
    exact hash_on_eq_ok.mpr ⟨_, third, readPairs _ _ [] (by omega) (by omega),
      by rw [thirdAhead, headKind_cons, isClose], rfl, rfl⟩
  | halt halts =>
    refine ⟨cursor, ahead, rfl, fun bound rounds _ enough => ?_⟩
    obtain ⟨rounds, rfl⟩ := Nat.exists_eq_add_of_lt enough
    exact continuations_succ_on_eq_ok.mpr (.inl ⟨by rwa [ahead], rfl, rfl⟩)
  | @operation _ _ operator _ _ _ _ _ _ isSign tighter readsRight _ right continuations =>
    obtain ⟨second, secondLength⟩ := Cursor.advance_spec ahead
    obtain ⟨third, thirdAhead, thirdClean, readRight⟩ := right second
    obtain ⟨last, left, clean, readContinuations⟩ := continuations thirdAhead
    have shorter : third.rest.length + 1 ≤ _ := readsRight.shorter second thirdAhead
    have found : headKind cursor.terminals = (Continuation.operation operator).kind := by
      rw [ahead, headKind_cons, isSign, Continuation.kind]
    exact ⟨last, left, clean.trans thirdClean, readContinuations.behindContinuation found tighter
      (fun _ _ => on_bind_eq_ok.mpr ⟨_, _, readRight _ (by omega), on_pure_eq_ok.mpr ⟨rfl, rfl⟩⟩)
      (by omega)⟩
  | call isParen tighter readsItems _ items continuations =>
    obtain ⟨second, secondLength⟩ := Cursor.advance_spec ahead
    obtain ⟨third, thirdAhead, thirdClean, readItems⟩ := items second
    obtain ⟨last, left, clean, readContinuations⟩ := continuations thirdAhead
    have shorter : third.rest.length + 1 ≤ _ := readsItems.shorter second thirdAhead
    have found : headKind cursor.terminals = Continuation.call.kind := by
      rw [ahead, headKind_cons, isParen, Continuation.kind]
    exact ⟨last, left, clean.trans thirdClean, readContinuations.behindContinuation found tighter
      (fun _ _ => on_bind_eq_ok.mpr ⟨_, _, readItems _ (by omega), on_pure_eq_ok.mpr ⟨rfl, rfl⟩⟩)
      (by omega)⟩
  | index isBracket tighter readsPosition isClose _ position continuations =>
    obtain ⟨second, secondLength⟩ := Cursor.advance_spec ahead
    obtain ⟨third, thirdAhead, thirdClean, readPosition⟩ := position second
    obtain ⟨fourth, fourthLength⟩ := Cursor.advance_spec thirdAhead
    obtain ⟨last, left, clean, readContinuations⟩ := continuations fourth
    have shorter : third.rest.length + 1 ≤ _ := readsPosition.shorter second thirdAhead
    have found : headKind cursor.terminals = Continuation.index.kind := by
      rw [ahead, headKind_cons, isBracket, Continuation.kind]
    exact ⟨last, left, clean.trans thirdClean, readContinuations.behindContinuation found tighter
      (fun _ _ => on_bind_eq_ok.mpr ⟨_, third, readPosition _ (by omega), on_bind_eq_ok.mpr ⟨_, _,
        expect_on_eq_ok.mpr ⟨by rw [thirdAhead, headKind_cons, isClose], rfl, rfl⟩,
        on_pure_eq_ok.mpr ⟨rfl, rfl⟩⟩⟩)
      (by omega)⟩
  | noItems _ =>
    obtain ⟨left, _⟩ := Cursor.advance_spec ahead
    exact ⟨cursor.advance, left, rfl, fun bound _ =>
      commaSeparated_on_eq_ok.mpr (.inl ⟨by rw [ahead, headKind_cons], rfl, rfl⟩)⟩
  | items _ noClose readsFirst _ first more =>
    obtain ⟨second, secondAhead, secondClean, readFirst⟩ := first ahead
    obtain ⟨third, thirdAhead, clean, readMore⟩ := more secondAhead
    obtain ⟨left, _⟩ := Cursor.advance_spec thirdAhead
    have shorter : second.rest.length + 1 ≤ _ := readsFirst.shorter ahead secondAhead
    exact ⟨third.advance, left, clean.trans secondClean, fun bound enough =>
      commaSeparated_on_eq_ok.mpr (.inr ⟨by rwa [ahead], _, second, third,
        readFirst _ (by omega), readMore _ _ _ (by omega) (by omega),
        by rw [thirdAhead, headKind_cons], rfl⟩)⟩
  | lastItem noComma =>
    refine ⟨cursor, ahead, rfl, fun bound rounds found _ enough => ?_⟩
    obtain ⟨rounds, rfl⟩ := Nat.exists_eq_add_of_lt enough
    exact moreItems_succ_on_eq_ok.mpr (.inr ⟨by rwa [ahead], by rw [List.append_nil], rfl⟩)
  | nextItem isComma readsItem _ item more =>
    obtain ⟨second, secondLength⟩ := Cursor.advance_spec ahead
    obtain ⟨third, thirdAhead, thirdClean, readItem⟩ := item second
    obtain ⟨last, left, clean, readMore⟩ := more thirdAhead
    have shorter : third.rest.length + 1 ≤ _ := readsItem.shorter second thirdAhead
    refine ⟨last, left, clean.trans thirdClean, fun bound rounds found enough enoughRounds => ?_⟩
    obtain ⟨rounds, rfl⟩ := Nat.exists_eq_add_of_lt enoughRounds
    refine moreItems_succ_on_eq_ok.mpr (.inl ⟨by rw [ahead, headKind_cons, isComma], _, third,
      readItem _ (by omega), ?_⟩)
    rw [readMore _ _ _ (by omega) (by omega), List.reverse_cons, List.append_assoc,
      List.singleton_append]
  | noPairs isClose =>
    refine ⟨cursor, ahead, rfl, fun bound rounds found _ enough => ?_⟩
    obtain ⟨rounds, rfl⟩ := Nat.exists_eq_add_of_lt enough
    exact pairs_succ_on_eq_ok.mpr (.inl ⟨by rw [ahead, isClose], by rw [List.append_nil], rfl⟩)
  | lastPair noClose readsKey isColon readsValue isClose key value =>
    obtain ⟨second, last, colon, left, clean, shorter, readParts⟩ :=
      Reads.parsed_pair ahead readsKey readsValue key value
    refine ⟨last, left, clean, fun bound rounds found enough enoughRounds => ?_⟩
    obtain ⟨readKey, readValue⟩ := readParts bound enough
    obtain ⟨rounds, rfl⟩ := Nat.exists_eq_add_of_lt enoughRounds
    refine pairs_succ_on_eq_ok.mpr (.inr ⟨by rwa [ahead], _, second, _, last, last,
      readKey, colon.trans isColon, readValue, .inl ⟨by rw [left, isClose], rfl⟩, ?_⟩)
    rw [show cursor.rest.length + rounds = cursor.rest.length + rounds - 1 + 1 by omega]
    exact pairs_succ_on_eq_ok.mpr (.inl ⟨by rw [left, isClose], by rw [List.reverse_cons], rfl⟩)
  | nextPair noClose readsKey isColon readsValue isComma _ key value more =>
    obtain ⟨second, third, colon, atComma, thirdClean, shorter, readParts⟩ :=
      Reads.parsed_pair ahead readsKey readsValue key value
    obtain ⟨fourth, fourthLength⟩ := Cursor.advance_spec atComma
    obtain ⟨last, left, clean, readMore⟩ := more fourth
    refine ⟨last, left, clean.trans thirdClean, fun bound rounds found enough enoughRounds => ?_⟩
    obtain ⟨readKey, readValue⟩ := readParts bound enough
    obtain ⟨rounds, rfl⟩ := Nat.exists_eq_add_of_lt enoughRounds
    refine pairs_succ_on_eq_ok.mpr (.inr ⟨by rwa [ahead], _, second, _, third, third.advance,
      readKey, colon.trans isColon, readValue,
      .inr ⟨by rw [atComma, headKind_cons, isComma], rfl⟩, ?_⟩)
    rw [readMore _ _ _ (by omega) (by omega), List.reverse_cons, List.append_assoc,
      List.singleton_append]
  | binding isLet isName isAssign _ value =>
    obtain ⟨second, secondLength⟩ := Cursor.advance_spec ahead
    obtain ⟨third, thirdLength⟩ := Cursor.advance_spec second
    obtain ⟨fourth, fourthLength⟩ := Cursor.advance_spec third
    obtain ⟨fifth, fifthAhead, clean, readValue⟩ := value fourth
    refine ⟨fifth.skipSemicolon, by rw [Cursor.terminals_skipSemicolon, fifthAhead],
      by rw [Cursor.diagnostics_skipSemicolon, clean]; rfl, fun bound enough => ?_⟩
    exact statement_on_eq_ok.mpr (.inl ⟨by rw [ahead, headKind_cons, isLet],
      by rw [second, headKind_cons, isName], by rw [third, headKind_cons, isAssign], _, fifth,
      readValue _ (by omega), by rw [Cursor.text_next second], rfl⟩)
  | returning isReturn _ value =>
    obtain ⟨second, secondLength⟩ := Cursor.advance_spec ahead
    obtain ⟨third, thirdAhead, clean, readValue⟩ := value second
    refine ⟨third.skipSemicolon, by rw [Cursor.terminals_skipSemicolon, thirdAhead],
      by rw [Cursor.diagnostics_skipSemicolon, clean]; rfl, fun bound enough => ?_⟩
    exact statement_on_eq_ok.mpr (.inr (.inl ⟨by rw [ahead, headKind_cons, isReturn], _, third,
      readValue _ (by omega), rfl, rfl⟩))
  | evaluated noLet noReturn _ value =>
    obtain ⟨second, secondAhead, clean, readValue⟩ := value ahead
    refine ⟨second.skipSemicolon, by rw [Cursor.terminals_skipSemicolon, secondAhead],
      by rw [Cursor.diagnostics_skipSemicolon, clean], fun bound enough => ?_⟩
    exact statement_on_eq_ok.mpr (.inr (.inr ⟨by rwa [ahead], by rwa [ahead], _, second,
      readValue _ (by omega), rfl, rfl⟩))
  | noStatements stop =>
    refine ⟨cursor, ahead, rfl, fun bound rounds found _ enough => ?_⟩
    obtain ⟨rounds, rfl⟩ := Nat.exists_eq_add_of_lt enough
    rw [run_statements_succ, if_pos (by rwa [ahead]), List.append_nil]
  | statements goesOn readsStatement _ statement more =>
    obtain ⟨second, secondAhead, secondClean, readStatement⟩ := statement ahead
    obtain ⟨last, left, clean, readMore⟩ := more secondAhead
    have shorter : second.rest.length + 1 ≤ _ := readsStatement.shorter ahead secondAhead
    refine ⟨last, left, clean.trans secondClean, fun bound rounds found enough enoughRounds => ?_⟩
    obtain ⟨rounds, rfl⟩ := Nat.exists_eq_add_of_lt enoughRounds
    rw [run_statements_succ, if_neg (by rw [ahead, goesOn]; decide), readStatement _ (by omega)]
    show StateT.run (Parser.statements _ _ _ (_ :: found)) second = _
    rw [readMore _ _ _ (by omega) (by omega), List.reverse_cons, List.append_assoc,
      List.singleton_append]
  | block isBrace _ statements =>
    obtain ⟨second, secondLength⟩ := Cursor.advance_spec ahead
    obtain ⟨third, thirdAhead, clean, readStatements⟩ := statements second
    refine ⟨third.advance, by rw [Cursor.terminals_advance, thirdAhead], clean,
      fun bound enough => ?_⟩
    exact block_on_eq_ok.mpr ⟨by rw [ahead, headKind_cons, isBrace], third,
      readStatements _ _ [] (by omega) (by omega), rfl⟩

end Forward

end MonkeyLang
