/-
This file proves that programs read back from their canonical text, as long as
the text loses nothing. It loses the quotes of a string, the word in front of an
alternative, and what would part an expression in place of a statement from the
next statement.

In canonical text only operations and indexings stand in parentheses. Calls,
conditionals, functions and hashes do not, and what follows them could be taken
for more of them: an operator, a parenthesis or a bracket. So the induction is
about words in front of everything an expression may go on with. The one thing
that must not follow is `else`.
-/

import MonkeyLang.Proofs.Grammar.Spelling
import MonkeyLang.Proofs.Juxtaposition

namespace MonkeyLang

open MonkeyLang.Parser

/-! ### Legible programs -/

mutual

/-- An expression that can be told from its canonical text: its names are names, its integers have
no sign, no string and no alternative is in it, and only the last statement of a block is an
expression. -/
def Expression.Legible : Expression → Prop
  | .identifier name => IsName name
  | .integer value => 0 ≤ value
  | .string _ => False
  | .boolean _ => True
  | .unary _ operand => operand.Legible
  | .binary left _ right => left.Legible ∧ right.Legible
  | .conditional condition consequence none =>
    condition.Legible ∧ LegibleStatements consequence
  | .conditional _ _ (some _) => False
  | .function parameters body => (∀ name ∈ parameters, IsName name) ∧ LegibleStatements body
  | .call callee arguments => callee.Legible ∧ LegibleExpressions arguments
  | .array elements => LegibleExpressions elements
  | .index collection position => collection.Legible ∧ position.Legible
  | .hash pairs => LegiblePairs pairs
termination_by structural expression => expression

/-- Expressions that can all be told from their canonical texts. -/
def LegibleExpressions : List Expression → Prop
  | [] => True
  | expression :: rest => expression.Legible ∧ LegibleExpressions rest
termination_by structural expressions => expressions

/-- Pairs that can all be told from their canonical texts. -/
def LegiblePairs : List (Expression × Expression) → Prop
  | [] => True
  | (key, value) :: rest => key.Legible ∧ value.Legible ∧ LegiblePairs rest
termination_by structural pairs => pairs

/-- A statement that can be told from its canonical text. -/
def Statement.Legible : Statement → Prop
  | .binding name value => IsName name ∧ value.Legible
  | .returning value => value.Legible
  | .expression value => value.Legible
termination_by structural statement => statement

/-- Statements that can all be told from their canonical texts, and of which only the last one may
be an expression. -/
def LegibleStatements : List Statement → Prop
  | [] => True
  | statement :: rest =>
    statement.Legible ∧ (∀ value, statement = .expression value → rest = []) ∧
      LegibleStatements rest
termination_by structural statements => statements

end

/-! ### What the texts are read as -/

/-- Words that are read as an expression wherever one is asked for, whatever it then goes on
with. -/
def ReadsAs (words : List Terminal) (expression : Expression) : Prop :=
  ∀ ⦃floor : Precedence⦄ ⦃tree : Expression⦄ ⦃tail rest : List Terminal⦄, floor < .call →
    headKind tail ≠ .elseWord → Reads (.continuations floor expression tree) tail rest →
    Reads (.expression floor tree) (words ++ tail) rest

/-- The canonical text of an expression is cut into words that are read as the expression. -/
def Expression.Recovered (expression : Expression) : Prop :=
  ∃ words, Spells expression.text.toList words ∧ ReadsAs words expression

/-- The canonical texts of items are cut into words, those of each item by themselves. -/
def Recovers {α : Type} (alone : List Terminal → α → Prop) (texts : List String)
    (trees : List α) : Prop :=
  ∃ items, List.Forall₂ (fun text words => Spells text words) (texts.map String.toList) items ∧
    List.Forall₂ alone items trees

/-- Words that are read as statements, up to whatever ends them. -/
def StatementsAlone (words : List Terminal) (trees : List Statement) : Prop :=
  ∀ ⦃stops : Kind → Bool⦄ ⦃tail : List Terminal⦄, stops (headKind tail) = true →
    (headKind tail).Closes → headKind tail ≠ .semicolon →
    (∀ kind ∈ [Kind.letWord, .returnWord] ++ operandKinds, stops kind = false) →
    Reads (.statements stops trees) (words ++ tail) tail

/-- The canonical text of statements is cut into words that are read as the statements. -/
def StatementsRecovered (trees : List Statement) : Prop :=
  ∃ words, Spells (textOfBlock trees).toList words ∧ StatementsAlone words trees

theorem ReadsAs.alone {words : List Terminal} {expression : Expression}
    (reads : ReadsAs words expression) : ReadAlone words expression :=
  fun _ closes => reads (by decide) closes.2 (.halt (halts_of_closes closes))

/-- Whatever is read as an operand may go on with everything. -/
theorem ReadsAs.of_operand {words : List Terminal} {expression : Expression}
    (operand : ∀ tail, headKind tail ≠ .elseWord →
      Reads (.operand expression) (words ++ tail) tail) : ReadsAs words expression :=
  fun _ _ tail _ _ noElse continues => .expression (operand tail noElse) continues

/-- An expression in parentheses may go on with everything. -/
theorem ReadAlone.readsAs {words : List Terminal} {expression : Expression}
    (alone : ReadAlone words expression) : ReadsAs (bracketed words) expression :=
  .of_operand fun tail _ => alone.grouped tail

theorem StatementsAlone.block {words : List Terminal} {trees : List Statement}
    (alone : StatementsAlone words trees) : BlockAlone words trees :=
  fun _ => alone rfl (show Kind.closeBrace.Closes by decide) (show Kind.closeBrace ≠ _ by decide)
    (by decide)

attribute [local simp] Expression.text textsOfExpressions textsOfPairs Statement.text textOfBlock

/-! ### Names, integers and truth values -/

theorem IsName.spells {name : String} (isName : IsName name) :
    Spells name.toList [.ofName name] := by
  have spells := Spells.letters name isName.nonempty isName.letters
  rwa [isName.ofWord_eq] at spells

/-- A keyword, wherever no letter and no digit follows. -/
theorem Spells.keyword (word : String) (kind : Kind) (isKeyword : (word, kind) ∈ keywords) :
    Spells word.toList [kind.word] := by
  have all : ∀ keyword ∈ keywords, keyword.1.toList ≠ [] ∧
      keyword.1.toList.all Text.isLetter = true ∧
        (⟨Kind.ofWord keyword.1, keyword.1⟩ : Terminal) = keyword.2.word := by
    decide
  obtain ⟨nonempty, letters, same⟩ := all _ isKeyword
  have spells := Spells.letters word nonempty (List.all_eq_true.mp letters)
  rwa [same] at spells

theorem recovered_identifier {name : String} (isName : IsName name) :
    (Expression.identifier name).Recovered :=
  ⟨[.ofName name], isName.spells,
    .of_operand fun _ _ => .identifier (Terminal.kind_ofName name)⟩

theorem recovered_integer {value : Int64} (noSign : 0 ≤ value) :
    (Expression.integer value).Recovered :=
  ⟨_, .natural noSign, .of_operand fun _ _ => .integer rfl (Decimal.int64?_ofInt value)⟩

theorem recovered_boolean (value : Bool) : (Expression.boolean value).Recovered := by
  refine ⟨_, .boolean value, .of_operand fun _ _ => ?_⟩
  cases value with
  | true => exact .trueWord rfl
  | false => exact .falseWord rfl

/-! ### What stands in parentheses -/

theorem recovered_unary (operator : UnaryOperator) {operand : Expression}
    (recovered : operand.Recovered) : (Expression.unary operator operand).Recovered := by
  obtain ⟨words, spells, reads⟩ := recovered
  have alone : ReadAlone (operator.kind.word :: words) (.unary operator operand) := by
    intro tail closes
    have inner : Reads (.expression .unary operand) (words ++ tail) tail :=
      reads (by decide) closes.2 (.halt (halts_of_closes closes))
    exact .expression (.unary rfl inner) (.halt (halts_of_closes closes))
  refine ⟨_, fun rest behind _ scans => ?_, alone.readsAs⟩
  have closed := scans.sign ')' .closeParen (by decide)
  have inner := spells (.cons (by decide) _) closed
  have readsInner : Reads (.expression .lowest operand) (words ++ Kind.closeParen.word :: behind)
      (Kind.closeParen.word :: behind) := reads.alone (show Kind.closeParen.Closes by decide)
  have all := (inner.operator operator readsInner.headKind_mem).sign '(' .openParen (by decide)
  simpa [bracketed] using all

theorem recovered_binary (operator : BinaryOperator) {left right : Expression}
    (recoveredLeft : left.Recovered) (recoveredRight : right.Recovered) :
    (Expression.binary left operator right).Recovered := by
  obtain ⟨words, spells, reads⟩ := recoveredLeft
  obtain ⟨others, spellsRight, readsRight⟩ := recoveredRight
  have alone : ReadAlone (words ++ operator.kind.word :: others)
      (.binary left operator right) := by
    intro tail closes
    have halts (floor : Precedence) : Halts floor tail := halts_of_closes closes
    have inner : Reads (.expression operator.precedence right) (others ++ tail) tail :=
      readsRight operator.precedence_lt_call closes.2 (.halt (halts _))
    have above : Precedence.lowest < operator.precedence := by cases operator <;> decide
    rw [List.append_assoc]
    refine reads (by decide) ?_ (.operation rfl above inner (.halt (halts .lowest)))
    cases operator <;> exact nofun
  refine ⟨_, fun rest behind _ scans => ?_, alone.readsAs⟩
  have closed := scans.sign ')' .closeParen (by decide)
  have second := (spellsRight (.cons (by decide) _) closed).blank
  have first := spells (.cons (by decide) _) (second.operation operator).blank
  simpa [bracketed] using first.sign '(' .openParen (by decide)

theorem recovered_index {collection position : Expression} (recovered : collection.Recovered)
    (recoveredPosition : position.Recovered) :
    (Expression.index collection position).Recovered := by
  obtain ⟨words, spells, reads⟩ := recovered
  obtain ⟨others, spellsPosition, readsPosition⟩ := recoveredPosition
  have alone : ReadAlone (words ++ Kind.openBracket.word :: (others ++ [Kind.closeBracket.word]))
      (.index collection position) := by
    intro tail closes
    have halts : Halts .lowest tail := halts_of_closes closes
    rw [List.append_assoc, List.cons_append, List.append_assoc, List.singleton_append]
    exact reads (by decide) (show Kind.openBracket ≠ .elseWord by decide)
      (continuations_index readsPosition.alone (by decide) (.halt halts))
  refine ⟨_, fun rest behind _ scans => ?_, alone.readsAs⟩
  have closed := (scans.sign ')' .closeParen (by decide)).sign ']' .closeBracket (by decide)
  have inner := (spellsPosition (.cons (by decide) _) closed).sign '[' .openBracket (by decide)
  have first := spells (.cons (by decide) _) inner
  simpa [bracketed] using first.sign '(' .openParen (by decide)

/-! ### What stands by itself -/

theorem recovered_call {callee : Expression} {arguments : List Expression}
    (recovered : callee.Recovered)
    (all : Recovers ReadAlone (textsOfExpressions arguments) arguments) :
    (Expression.call callee arguments).Recovered := by
  obtain ⟨words, spells, reads⟩ := recovered
  obtain ⟨items, spellsAll, alone⟩ := all
  refine ⟨words ++ bracketed ([Kind.comma.word].intercalate items), fun rest behind _ scans => ?_,
    fun floor tree tail rest low _ continues => ?_⟩
  · have closed := scans.sign ')' .closeParen (by decide)
    have inner := Spells.intercalate [' '] (by decide) spellsAll (.cons (by decide) _) closed
    have all := spells (.cons (by decide) _) (inner.sign '(' .openParen (by decide))
    simpa [bracketed] using all
  · rw [List.append_assoc]
    exact reads low (show Kind.openParen ≠ .elseWord by decide)
      (continuations_call alone low continues)

theorem recovered_array {elements : List Expression}
    (all : Recovers ReadAlone (textsOfExpressions elements) elements) :
    (Expression.array elements).Recovered := by
  obtain ⟨items, spellsAll, alone⟩ := all
  refine ⟨Kind.openBracket.word ::
      ([Kind.comma.word].intercalate items ++ [Kind.closeBracket.word]),
    fun rest behind _ scans => ?_, .of_operand fun tail _ => ?_⟩
  · have closed := scans.sign ']' .closeBracket (by decide)
    have inner := Spells.intercalate [' '] (by decide) spellsAll (.cons (by decide) _) closed
    simpa using inner.sign '[' .openBracket (by decide)
  · simpa using operand_array alone tail

theorem recovered_hash {pairs : List (Expression × Expression)}
    (all : Recovers PairAlone (textsOfPairs pairs) pairs) :
    (Expression.hash pairs).Recovered := by
  obtain ⟨items, spellsAll, alone⟩ := all
  refine ⟨braced ([Kind.comma.word].intercalate items), fun rest behind _ scans => ?_,
    .of_operand fun tail _ => operand_hash alone tail⟩
  have closed := scans.sign '\x7d' .closeBrace (by decide)
  have inner := Spells.intercalate [' '] (by decide) spellsAll (.cons (by decide) _) closed
  simpa [braced] using inner.sign '\x7b' .openBrace (by decide)

theorem recovered_conditional {condition : Expression} {consequence : List Statement}
    (recovered : condition.Recovered) (block : StatementsRecovered consequence) :
    (Expression.conditional condition consequence none).Recovered := by
  obtain ⟨words, spells, reads⟩ := recovered
  obtain ⟨others, spellsBlock, alone⟩ := block
  refine ⟨Kind.ifWord.word :: (bracketed words ++ braced others), fun rest behind _ scans => ?_,
    .of_operand fun tail noElse => ?_⟩
  · have closed := scans.sign '\x7d' .closeBrace (by decide)
    have inner := (spellsBlock (.cons (by decide) _) closed).sign '\x7b' .openBrace (by decide)
    have opened := spells.grouped (.cons (by decide) _) inner.blank
    have all := Spells.keyword "if" .ifWord (by decide) (.cons (by decide) _) opened
    simpa [braced] using all
  · simpa using operand_conditional reads.alone alone.block noElse

theorem recovered_function {parameters : List String} {body : List Statement}
    (areNames : ∀ name ∈ parameters, IsName name) (block : StatementsRecovered body) :
    (Expression.function parameters body).Recovered := by
  obtain ⟨words, spellsBlock, alone⟩ := block
  have names : List.Forall₂ (fun text words => Spells text words)
      (parameters.map String.toList) (parameters.map fun name => [.ofName name]) := by
    simpa using fun name member => (areNames name member).spells
  refine ⟨Kind.functionWord.word ::
      (bracketed ([Kind.comma.word].intercalate (parameters.map fun name => [.ofName name])) ++
        braced words),
    fun rest behind _ scans => ?_, .of_operand fun tail _ => ?_⟩
  · have closed := scans.sign '\x7d' .closeBrace (by decide)
    have inner := (spellsBlock (.cons (by decide) _) closed).sign '\x7b' .openBrace (by decide)
    have opened := (Spells.intercalate [] rfl names).grouped (.cons (by decide) _) inner
    have all := Spells.keyword "fn" .functionWord (by decide) (.cons (by decide) _) opened
    simpa [braced] using all
  · simpa using operand_function parameters alone.block tail

/-! ### Statements -/

theorem recovered_nil : StatementsRecovered [] :=
  ⟨[], fun _ _ _ scans => scans, fun _ _ stop _ _ _ => .noStatements stop⟩

theorem recovered_binding {name : String} {value : Expression} {trees : List Statement}
    (isName : IsName name) (recovered : value.Recovered) (others : StatementsRecovered trees) :
    StatementsRecovered (.binding name value :: trees) := by
  obtain ⟨words, spells, reads⟩ := recovered
  obtain ⟨more, spellsMore, alone⟩ := others
  refine ⟨Kind.letWord.word :: .ofName name :: Kind.assign.word ::
      (words ++ Kind.semicolon.word :: more),
    fun rest behind delimited scans => ?_, fun stops tail stop closes noSemicolon starts => ?_⟩
  · have ended := (spellsMore delimited scans).sign ';' .semicolon (by decide)
    have assigned := (spells (.cons (by decide) _) ended).assign.blank
    have named := (isName.spells (.cons (by decide) _) assigned).blank
    have all := Spells.keyword "let" .letWord (by decide) (.cons (by decide) _) named
    simpa using all
  · have first := statement_binding name reads.alone (more ++ tail)
    simpa using Reads.statements (starts _ first.headKind_mem_of_statement) first
      (alone stop closes noSemicolon starts)

theorem recovered_returning {value : Expression} {trees : List Statement}
    (recovered : value.Recovered) (others : StatementsRecovered trees) :
    StatementsRecovered (.returning value :: trees) := by
  obtain ⟨words, spells, reads⟩ := recovered
  obtain ⟨more, spellsMore, alone⟩ := others
  refine ⟨Kind.returnWord.word :: (words ++ Kind.semicolon.word :: more),
    fun rest behind delimited scans => ?_, fun stops tail stop closes noSemicolon starts => ?_⟩
  · have ended := (spellsMore delimited scans).sign ';' .semicolon (by decide)
    have returned := (spells (.cons (by decide) _) ended).blank
    have all := Spells.keyword "return" .returnWord (by decide) (.cons (by decide) _) returned
    simpa using all
  · have first := statement_returning reads.alone (more ++ tail)
    simpa using Reads.statements (starts _ first.headKind_mem_of_statement) first
      (alone stop closes noSemicolon starts)

/-- An expression in place of a statement has nothing behind it that would end it, so it has to be
the last statement. -/
theorem recovered_last {value : Expression} (recovered : value.Recovered) :
    StatementsRecovered [.expression value] := by
  obtain ⟨words, spells, reads⟩ := recovered
  refine ⟨words, ?_, fun stops tail stop closes noSemicolon starts => ?_⟩
  · simpa using spells
  · have first := statement_expression reads.alone closes
    rw [dropSemicolon_of_ne noSemicolon] at first
    exact .statements (starts _ first.headKind_mem_of_statement) first (.noStatements stop)

/-! ### Whole programs -/

mutual

/-- Every legible expression is recovered from its canonical text. -/
theorem Expression.recovered : (expression : Expression) → expression.Legible →
    expression.Recovered
  | .identifier _, isName => recovered_identifier isName
  | .integer _, noSign => recovered_integer noSign
  | .boolean value, _ => recovered_boolean value
  | .unary operator operand, legible => recovered_unary operator (operand.recovered legible)
  | .binary left operator right, ⟨legibleLeft, legibleRight⟩ =>
    recovered_binary operator (left.recovered legibleLeft) (right.recovered legibleRight)
  | .conditional condition consequence none, ⟨legible, legibleBlock⟩ =>
    recovered_conditional (condition.recovered legible)
      (recovered_statements consequence legibleBlock)
  | .function _ body, ⟨areNames, legibleBody⟩ =>
    recovered_function areNames (recovered_statements body legibleBody)
  | .call callee arguments, ⟨legible, legibleAll⟩ =>
    recovered_call (callee.recovered legible) (recovered_expressions arguments legibleAll)
  | .array elements, legible => recovered_array (recovered_expressions elements legible)
  | .index collection position, ⟨legible, legiblePosition⟩ =>
    recovered_index (collection.recovered legible) (position.recovered legiblePosition)
  | .hash pairs, legible => recovered_hash (recovered_pairs pairs legible)
termination_by structural expression => expression

theorem recovered_expressions : (trees : List Expression) → LegibleExpressions trees →
    Recovers ReadAlone (textsOfExpressions trees) trees
  | [], _ => ⟨[], .nil, .nil⟩
  | tree :: trees, ⟨legible, legibleAll⟩ => by
    obtain ⟨words, spells, reads⟩ := tree.recovered legible
    obtain ⟨items, spellsAll, alone⟩ := recovered_expressions trees legibleAll
    exact ⟨words :: items, .cons spells spellsAll, .cons reads.alone alone⟩
termination_by structural trees => trees

theorem recovered_pairs : (trees : List (Expression × Expression)) → LegiblePairs trees →
    Recovers PairAlone (textsOfPairs trees) trees
  | [], _ => ⟨[], .nil, .nil⟩
  | (key, value) :: trees, ⟨legibleKey, legibleValue, legibleAll⟩ => by
    obtain ⟨words, spells, reads⟩ := key.recovered legibleKey
    obtain ⟨others, spellsValue, readsValue⟩ := value.recovered legibleValue
    obtain ⟨items, spellsAll, alone⟩ := recovered_pairs trees legibleAll
    refine ⟨(words ++ Kind.colon.word :: others) :: items,
      .cons (fun rest behind delimited scans => ?_) spellsAll,
      .cons ⟨words, others, rfl, reads.alone, readsValue.alone⟩ alone⟩
    have separated := (spellsValue delimited scans).blank.sign ':' .colon (by decide)
    simpa using spells (.cons (by decide) _) separated
termination_by structural trees => trees

theorem recovered_statements : (trees : List Statement) → LegibleStatements trees →
    StatementsRecovered trees
  | [], _ => recovered_nil
  | .binding _ value :: trees, ⟨⟨isName, legible⟩, _, legibleAll⟩ =>
    recovered_binding isName (value.recovered legible) (recovered_statements trees legibleAll)
  | .returning value :: trees, ⟨legible, _, legibleAll⟩ =>
    recovered_returning (value.recovered legible) (recovered_statements trees legibleAll)
  | .expression value :: trees, ⟨legible, isLast, _⟩ => by
    rw [isLast value rfl]
    exact recovered_last (value.recovered legible)
termination_by structural trees => trees

end

/-- The canonical text of a legible expression is a program of this one statement. -/
theorem Expression.ofSource_text {expression : Expression} (legible : expression.Legible) :
    Parsed.ofSource expression.text = ⟨⟨[.expression expression]⟩, []⟩ := by
  obtain ⟨_, spells, reads⟩ := expression.recovered legible
  exact spells.ofSource_eq reads.alone

/-- Every program whose names are names, whose integers have no sign, that holds neither a string
nor an alternative, and in which only the last statement of the program and of a block is an
expression, is what the parser reads from its canonical text, and nothing is wrong with it. -/
theorem canonical_text_reads_back (program : Program)
    (legible : LegibleStatements program.statements) :
    Parsed.ofSource program.text = ⟨program, []⟩ := by
  obtain ⟨words, spells, alone⟩ := recovered_statements program.statements legible
  have noRest : Delimited [] := nofun
  obtain ⟨lexemes, cuts, terminals⟩ := spells noRest Scans.ends 1
  rw [List.append_nil] at cuts
  refine (ofTokens_eq_iff _ _).mpr ⟨[⟨.endOfInput, ""⟩], ?_⟩
  rw [Program.text, Token.ofSource, Lexeme.ofSource_eq_iff.mpr cuts, List.map_map]
  show Reads _ (lexemes.map fun lexeme => lexeme.token.terminal) _
  rw [terminals]
  exact alone rfl (by decide) (by decide) (by decide)

/-- A program in which conditionals, functions, hashes and calls are operands and callees. -/
def mixedCallees : Program :=
  ⟨[.binding "f" (.function ["a", "b"]
      [.binding "c" (.binary (.identifier "a") .add (.conditional (.boolean true)
          [.expression (.integer 1)] none)),
        .returning (.unary .not (.call (.hash [(.integer 2, .identifier "c")]) []))]),
    .returning (.call (.conditional (.unary .negate (.integer 3)) [] none)
      [.array [.boolean false], .binary (.identifier "f") .equal (.function [] [])]),
    .expression (.index (.call (.function ["a"] [.expression (.identifier "a")])
      [.hash []]) (.call (.call (.identifier "f") []) [.integer 9223372036854775807]))]⟩

theorem canonical_text_reads_back_mixedCallees :
    LegibleStatements mixedCallees.statements ∧
      mixedCallees.text =
        "let f = fn(a,b)\x7blet c = (a + if(true) \x7b1\x7d);return (!\x7b2: c\x7d());\x7d;"
          ++ "return if((-3)) \x7b\x7d([false], (f == fn()\x7b\x7d));"
          ++ "(fn(a)\x7ba\x7d(\x7b\x7d)[f()(9223372036854775807)])" ∧
      Parsed.ofSource mixedCallees.text = ⟨mixedCallees, []⟩ := by
  have legible : LegibleStatements mixedCallees.statements := by
    have names : IsName "a" ∧ IsName "b" ∧ IsName "c" ∧ IsName "f" := by decide
    have noSigns : (0 : Int64) ≤ 1 ∧ (0 : Int64) ≤ 2 ∧ (0 : Int64) ≤ 3 ∧
        (0 : Int64) ≤ 9223372036854775807 := by decide
    simp [mixedCallees, LegibleStatements, Statement.Legible, Expression.Legible,
      LegibleExpressions, LegiblePairs, names, noSigns]
  exact ⟨legible, by decide +kernel, canonical_text_reads_back mixedCallees legible⟩

end MonkeyLang
