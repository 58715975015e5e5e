/-
This file proves that the parser accepts nothing but programs of the grammar:
when a source is read without a diagnostic, its tokens before the end of input,
all of them, derive the program that was read.

The parser knows floors where the grammar knows tiers. An expression read above
a floor derives at the tier just above it and leaves nothing ahead that binds
tighter than the floor; the loop over continuations keeps a finished expression
at a tier no looser than whatever is ahead.
-/

import MonkeyLang.Proofs.Grammar.Derivation
import MonkeyLang.Proofs.Parser.Soundness
import MonkeyLang.Proofs.Scanning

namespace MonkeyLang

open MonkeyLang.Parser

/-! ### Floors and tiers -/

/-- The tier at which an expression above a floor derives. -/
def Precedence.tier : Precedence → Tier
  | lowest => .equality
  | equals => .comparison
  | lessGreater => .sum
  | sum => .product
  | product => .unary
  | unary => .unary
  | call => .unary
  | index => .unary

/-- The tier of what a continuation makes of a finished expression. -/
def Continuation.tier : Continuation → Tier
  | operation operator => operator.tier
  | call => .suffixed
  | index => .suffixed

/-- A finished expression of a tier can go on with whatever is ahead. -/
def Tier.Admits (tier : Tier) (terminals : List Terminal) : Prop :=
  ∀ next : Continuation, headKind terminals = next.kind → next.tier ≤ tier

theorem Tier.rank_tighter {loose tight : Tier} (less : loose.rank < tight.rank) :
    loose.tighter.rank = loose.rank + 1 := by
  cases loose <;> first | rfl | (cases tight <;> exact absurd less (by decide))

/-- What derives at a tier derives at every looser one. -/
theorem Derives.loosen {loose tight : Tier} {tree : Expression} {segment after : List Terminal}
    (derives : Derives (.expression tight tree) segment after) (looser : loose ≤ tight) :
    Derives (.expression loose tree) segment after := by
  induction steps : tight.rank - loose.rank generalizing loose with
  | zero =>
    have same : loose.rank = tight.rank :=
      Nat.le_antisymm looser (Nat.le_of_sub_eq_zero steps)
    have equal : loose = tight := by
      revert same
      cases loose <;> cases tight <;> decide
    exact equal ▸ derives
  | succ steps inductionHypothesis =>
    have less : loose.rank < tight.rank := by omega
    have next := Tier.rank_tighter less
    exact .tighter (inductionHypothesis (show loose.tighter.rank ≤ tight.rank by omega) (by omega))

theorem Precedence.tier_le_of_lt {floor : Precedence} {operator : BinaryOperator}
    (tighter : floor < operator.precedence) : floor.tier ≤ operator.tier := by
  revert tighter
  cases floor <;> cases operator <;> decide

theorem Precedence.tier_le_suffixed (floor : Precedence) : floor.tier ≤ .suffixed := by
  cases floor <;> decide

theorem Precedence.tier_le_unary (floor : Precedence) : floor.tier ≤ .unary := by
  cases floor <;> decide

theorem BinaryOperator.tier_precedence (operator : BinaryOperator) :
    operator.precedence.tier = operator.tier.tighter := by
  cases operator <;> rfl

/-- What halts above the floor of an operator can go on behind the operation. -/
theorem Tier.admits_of_halts {operator : BinaryOperator} {terminals : List Terminal}
    (halts : Halts operator.precedence terminals) : operator.tier.Admits terminals := by
  intro next head
  have looser := halts next (Continuation.ofKind?_eq_some_iff.mpr head)
  revert looser
  cases next with
  | operation other => cases operator <;> cases other <;> decide
  | call => cases operator <;> decide
  | index => cases operator <;> decide

theorem Tier.admits_of_halts_unary {terminals : List Terminal}
    (halts : Halts .unary terminals) : Tier.unary.Admits terminals := by
  intro next head
  have looser := halts next (Continuation.ofKind?_eq_some_iff.mpr head)
  revert looser
  cases next with
  | operation other => cases other <;> decide
  | call => decide
  | index => decide

theorem Tier.admits_of_suffixed_le {tier : Tier} (tight : Tier.suffixed ≤ tier)
    (terminals : List Terminal) : tier.Admits terminals := by
  intro next _
  refine Nat.le_trans (m := Tier.suffixed.rank) ?_ tight
  cases next with
  | operation operator => cases operator <;> decide
  | call => decide
  | index => decide

/-! ### The end of input -/

/-- The terminals before the end of input. Behind it there is nothing but more ends of input,
and the integers before it are runs of digits. -/
inductive BeforeEnd : List Terminal → List Terminal → Prop
  | ends {terminals : List Terminal} : (∀ terminal ∈ terminals, terminal.kind = .endOfInput) →
      BeforeEnd terminals []
  | next {terminal : Terminal} {terminals body : List Terminal} : terminal.kind ≠ .endOfInput →
      (terminal.kind = .integer → ∃ number, Decimal.natural? terminal.text.toList = some number) →
      BeforeEnd terminals body → BeforeEnd (terminal :: terminals) (terminal :: body)

namespace BeforeEnd

variable {terminal : Terminal} {terminals body : List Terminal}

theorem headKind_eq (before : BeforeEnd terminals body) : headKind terminals = headKind body := by
  cases before with
  | ends all =>
    cases terminals with
    | nil => rfl
    | cons terminal _ => exact all terminal List.mem_cons_self
  | next => rfl

/-- What stands before a terminal other than the end of input. -/
theorem of_cons (before : BeforeEnd (terminal :: terminals) body)
    (more : terminal.kind ≠ .endOfInput) :
    ∃ rest, body = terminal :: rest ∧ BeforeEnd terminals rest := by
  cases before with
  | ends all => exact absurd (all terminal List.mem_cons_self) more
  | next _ _ before => exact ⟨_, rfl, before⟩

theorem digits (before : BeforeEnd (terminal :: terminals) body)
    (isInteger : terminal.kind = .integer) :
    ∃ number, Decimal.natural? terminal.text.toList = some number := by
  cases before with
  | ends all =>
    exact absurd ((all terminal List.mem_cons_self).symm.trans isInteger) (by decide)
  | next _ digits _ => exact digits isInteger

theorem tail_of_nil (before : BeforeEnd terminals []) : BeforeEnd terminals.tail [] := by
  cases before with
  | ends all => exact .ends fun terminal member => all terminal (List.mem_of_mem_tail member)

theorem skipSemicolon (before : BeforeEnd terminals body) :
    ∃ semicolon after, body = semicolon ++ after ∧ AtMostOne .semicolon semicolon ∧
      BeforeEnd (dropSemicolon terminals) after := by
  by_cases found : headKind terminals = .semicolon
  · obtain ⟨terminal, rest, rfl, isSemicolon⟩ := exists_cons_of_headKind found (by decide)
    obtain ⟨after, rfl, behind⟩ := before.of_cons (by rw [isSemicolon]; decide)
    refine ⟨[terminal], after, rfl, .one isSemicolon, ?_⟩
    rwa [dropSemicolon, if_pos isSemicolon]
  · refine ⟨[], body, rfl, .none, ?_⟩
    cases terminals with
    | nil => exact before
    | cons terminal rest =>
      rw [headKind_cons] at found
      rwa [dropSemicolon, if_neg found]

end BeforeEnd

/-! ### What is read derives -/

/-- What the grammar says of a phrase that was read from a segment of terminals. -/
def Phrase.Derived (segment after : List Terminal) : Phrase → Prop
  | .expression floor tree =>
    Derives (.expression floor.tier tree) segment after ∧ Halts floor after
  | .operand tree => ∃ tier : Tier, Derives (.expression tier tree) segment after ∧
    Tier.unary ≤ tier ∧ tier.Admits after
  | .continuations floor left tree => ∀ (tier : Tier) (start : List Terminal),
    Derives (.expression tier left) start (segment ++ after) → floor.tier ≤ tier →
    tier.Admits (segment ++ after) →
    Derives (.expression floor.tier tree) (start ++ segment) after ∧ Halts floor after
  | .moreItems trees => Derives (.moreExpressions trees) segment after
  | .items close trees => ∃ inside last, segment = inside ++ [last] ∧ last.kind = close ∧
    Derives (.expressions trees) inside (last :: after)
  | .pairs trees => Derives (.pairs trees) segment after
  | .statement tree => Derives (.statement tree) segment after
  | .statements stops trees =>
    Derives (.statements trees) segment after ∧ stops (headKind after) = true
  | .block trees => Derives (.block trees) segment after

theorem ReadsMoreNames.derived {terminals rest body : List Terminal} {names : List String}
    (reads : ReadsMoreNames terminals names rest) (before : BeforeEnd terminals body) :
    ∃ segment after, body = segment ++ after ∧ BeforeEnd rest after ∧
      ∀ follow, Derives (.moreNames names) segment follow := by
  induction reads generalizing body with
  | stop _ => exact ⟨[], body, rfl, before, fun _ => .lastName⟩
  | next isComma isName _ inductionHypothesis =>
    obtain ⟨_, rfl, second⟩ := before.of_cons (by rw [isComma]; decide)
    obtain ⟨_, rfl, third⟩ := second.of_cons (by rw [isName]; decide)
    obtain ⟨segment, after, rfl, last, derives⟩ := inductionHypothesis third
    exact ⟨_, after, rfl, last, fun follow => .nextName isComma isName (derives follow)⟩

theorem ReadsNames.derived {terminals rest body : List Terminal} {names : List String}
    (reads : ReadsNames terminals names rest) (before : BeforeEnd terminals body) :
    ∃ inside close after, body = inside ++ close :: after ∧ close.kind = .closeParen ∧
      BeforeEnd rest after ∧ ∀ follow, Derives (.names names) inside follow := by
  cases reads with
  | none isClose =>
    obtain ⟨after, rfl, last⟩ := before.of_cons (by rw [isClose]; decide)
    exact ⟨[], _, after, rfl, isClose, last, fun _ => .noNames⟩
  | some isName more isClose =>
    obtain ⟨_, rfl, second⟩ := before.of_cons (by rw [isName]; decide)
    obtain ⟨segment, _, rfl, third, derives⟩ := more.derived second
    obtain ⟨after, rfl, last⟩ := third.of_cons (by rw [isClose]; decide)
    exact ⟨_ :: segment, _, after, rfl, isClose, last, fun follow =>
      .names isName (derives follow)⟩

/-- One more pair in front of the pairs of a hash. Behind the last pair the comma is the one that
may stand there. -/
theorem Derives.consPair {key value : Expression} {trees : List (Expression × Expression)}
    {colon comma : Terminal} {first second segment after : List Terminal}
    (more : Derives (.pairs trees) segment after)
    (derivesKey : Derives (.expression .equality key) first
      (colon :: (second ++ comma :: (segment ++ after))))
    (isColon : colon.kind = .colon)
    (derivesValue : Derives (.expression .equality value) second (comma :: (segment ++ after)))
    (isComma : comma.kind = .comma) :
    Derives (.pairs ((key, value) :: trees)) (first ++ colon :: (second ++ comma :: segment))
      after := by
  cases more with
  | noPairs =>
    exact .pairs derivesKey isColon derivesValue .lastPair (.one isComma)
  | pairs derivesFirst colonKind derivesSecond derivesMore optional =>
    have further := Derives.nextPair isComma derivesFirst colonKind derivesSecond derivesMore
    have derives := Derives.pairs
      (by simpa only [List.append_assoc, List.cons_append] using derivesKey) isColon
      (by simpa only [List.append_assoc, List.cons_append] using derivesValue) further optional
    simpa only [List.append_assoc, List.cons_append] using derives

/-- Any continuation may follow a primary expression. -/
theorem Phrase.Derived.operand {tree : Expression} {segment after : List Terminal}
    (derives : Derives (.expression .primary tree) segment after) :
    (Phrase.operand tree).Derived segment after :=
  ⟨.primary, derives, by decide, Tier.admits_of_suffixed_le (by decide) after⟩

/-- Whatever is read before the end of input, the grammar derives from what was read. -/
theorem Reads.derived {phrase : Phrase} {terminals rest body : List Terminal}
    (reads : Reads phrase terminals rest) (before : BeforeEnd terminals body) :
    ∃ segment after, body = segment ++ after ∧ BeforeEnd rest after ∧
      phrase.Derived segment after := by
  induction reads generalizing body with
  | @expression floor _ _ _ _ _ _ _ operand continuations =>
    obtain ⟨start, _, rfl, second, tier, derives, tight, admits⟩ := operand before
    obtain ⟨segment, after, rfl, last, continued⟩ := continuations second
    have looser : floor.tier ≤ tier := Nat.le_trans floor.tier_le_unary tight
    refine ⟨start ++ segment, after, by rw [List.append_assoc], last, ?_⟩
    exact continued tier start derives looser admits
  | identifier isName =>
    obtain ⟨after, rfl, last⟩ := before.of_cons (by rw [isName]; decide)
    exact ⟨[_], after, rfl, last, .operand (.identifier isName)⟩
  | integer isInteger found =>
    obtain ⟨number, digits⟩ := before.digits isInteger
    obtain ⟨after, rfl, last⟩ := before.of_cons (by rw [isInteger]; decide)
    obtain ⟨small, rfl⟩ := Decimal.int64?_of_natural? digits found
    exact ⟨[_], after, rfl, last, .operand (.integer isInteger digits small)⟩
  | string isString =>
    obtain ⟨after, rfl, last⟩ := before.of_cons (by rw [isString]; decide)
    exact ⟨[_], after, rfl, last, .operand (.string isString)⟩
  | trueWord isTrue =>
    obtain ⟨after, rfl, last⟩ := before.of_cons (by rw [isTrue]; decide)
    exact ⟨[_], after, rfl, last, .operand (.trueWord isTrue)⟩
  | falseWord isFalse =>
    obtain ⟨after, rfl, last⟩ := before.of_cons (by rw [isFalse]; decide)
    exact ⟨[_], after, rfl, last, .operand (.falseWord isFalse)⟩
  | @unary _ operator _ _ _ isSign _ inner =>
    obtain ⟨_, rfl, second⟩ := before.of_cons (by rw [isSign]; cases operator <;> decide)
    obtain ⟨segment, after, rfl, last, derives, halts⟩ := inner second
    exact ⟨_ :: segment, after, rfl, last, .unary, .unary isSign derives, by decide,
      Tier.admits_of_halts_unary halts⟩
  | grouped isParen _ isClose inner =>
    obtain ⟨_, rfl, second⟩ := before.of_cons (by rw [isParen]; decide)
    obtain ⟨inside, _, rfl, third, derives, -⟩ := inner second
    obtain ⟨after, rfl, last⟩ := third.of_cons (by rw [isClose]; decide)
    exact ⟨_, after, by simp, last, .operand (.grouped isParen derives isClose)⟩
  | conditional isWord isParen _ isClose _ _ condition block =>
    obtain ⟨_, rfl, second⟩ := before.of_cons (by rw [isWord]; decide)
    obtain ⟨_, rfl, third⟩ := second.of_cons (by rw [isParen]; decide)
    obtain ⟨inside, _, rfl, fourth, derives, -⟩ := condition third
    obtain ⟨_, rfl, fifth⟩ := fourth.of_cons (by rw [isClose]; decide)
    obtain ⟨body, after, rfl, last, derivesBlock⟩ := block fifth
    exact ⟨_, after, by simp, last,
      .operand (.conditional isWord isParen derives isClose derivesBlock)⟩
  | alternative isWord isParen _ isClose _ isElse _ condition block otherwise =>
    obtain ⟨_, rfl, second⟩ := before.of_cons (by rw [isWord]; decide)
    obtain ⟨_, rfl, third⟩ := second.of_cons (by rw [isParen]; decide)
    obtain ⟨inside, _, rfl, fourth, derives, -⟩ := condition third
    obtain ⟨_, rfl, fifth⟩ := fourth.of_cons (by rw [isClose]; decide)
    obtain ⟨body, _, rfl, sixth, derivesBlock⟩ := block fifth
    obtain ⟨_, rfl, seventh⟩ := sixth.of_cons (by rw [isElse]; decide)
    obtain ⟨other, after, rfl, last, derivesOther⟩ := otherwise seventh
    exact ⟨_, after, by simp, last, .operand
      (.alternative isWord isParen derives isClose derivesBlock isElse derivesOther)⟩
  | function isWord isParen names _ block =>
    obtain ⟨_, rfl, second⟩ := before.of_cons (by rw [isWord]; decide)
    obtain ⟨_, rfl, third⟩ := second.of_cons (by rw [isParen]; decide)
    obtain ⟨inside, close, _, rfl, isClose, fourth, derives⟩ := names.derived third
    obtain ⟨body, after, rfl, last, derivesBlock⟩ := block fourth
    exact ⟨_, after, by simp, last,
      .operand (.function isWord isParen (derives _) isClose derivesBlock)⟩
  | array isBracket _ items =>
    obtain ⟨_, rfl, second⟩ := before.of_cons (by rw [isBracket]; decide)
    obtain ⟨_, after, rfl, last, inside, close, rfl, isClose, derives⟩ := items second
    exact ⟨_, after, rfl, last, .operand (.array isBracket derives isClose)⟩
  | hash isBrace _ isClose pairs =>
    obtain ⟨_, rfl, second⟩ := before.of_cons (by rw [isBrace]; decide)
    obtain ⟨inside, _, rfl, third, derives⟩ := pairs second
    obtain ⟨after, rfl, last⟩ := third.of_cons (by rw [isClose]; decide)
    exact ⟨_, after, by simp, last, .operand (.hash isBrace derives isClose)⟩
  | halt halts =>
    refine ⟨[], body, rfl, before, fun tier start derives looser _ => ?_⟩
    rw [List.append_nil]
    refine ⟨derives.loosen looser, ?_⟩
    rwa [Halts, before.headKind_eq] at halts
  | @operation floor sign operator _ _ _ _ _ _ isSign tighter _ _ right continuations =>
    obtain ⟨_, rfl, second⟩ := before.of_cons (by rw [isSign]; cases operator <;> decide)
    obtain ⟨behind, _, rfl, third, derivesRight, halts⟩ := right second
    obtain ⟨segment, after, rfl, last, continued⟩ := continuations third
    refine ⟨sign :: (behind ++ segment), after, by simp, last,
      fun tier start derives looser admits => ?_⟩
    rw [List.cons_append, List.append_assoc] at derives
    rw [operator.tier_precedence] at derivesRight
    have derivesLeft := derives.loosen (admits (.operation operator) isSign)
    have joined := continued operator.tier _ (.binary derivesLeft isSign derivesRight)
      (Precedence.tier_le_of_lt tighter) (Tier.admits_of_halts halts)
    rwa [List.append_assoc] at joined
  | @call floor paren _ _ _ _ _ _ isParen _ _ _ items continuations =>
    obtain ⟨_, rfl, second⟩ := before.of_cons (by rw [isParen]; decide)
    obtain ⟨_, _, rfl, third, inside, close, rfl, isClose, derivesItems⟩ := items second
    obtain ⟨segment, after, rfl, last, continued⟩ := continuations third
    refine ⟨paren :: (inside ++ close :: segment), after, by simp, last,
      fun tier start derives looser admits => ?_⟩
    rw [List.cons_append, List.append_assoc] at derives
    have derivesCallee := derives.loosen (admits .call isParen)
    have joined := continued .suffixed _ (.call derivesCallee isParen derivesItems isClose)
      floor.tier_le_suffixed (Tier.admits_of_suffixed_le (by decide) _)
    simpa only [List.append_assoc, List.cons_append, List.nil_append] using joined
  | @index floor bracket close _ _ _ _ _ _ isBracket _ _ isClose _ position continuations =>
    obtain ⟨_, rfl, second⟩ := before.of_cons (by rw [isBracket]; decide)
    obtain ⟨inside, _, rfl, third, derivesPosition, -⟩ := position second
    obtain ⟨_, rfl, fourth⟩ := third.of_cons (by rw [isClose]; decide)
    obtain ⟨segment, after, rfl, last, continued⟩ := continuations fourth
    refine ⟨bracket :: (inside ++ close :: segment), after, by simp, last,
      fun tier start derives looser admits => ?_⟩
    rw [List.cons_append, List.append_assoc] at derives
    have derivesCollection := derives.loosen (admits .index isBracket)
    have joined := continued .suffixed _
      (.index derivesCollection isBracket derivesPosition isClose)
      floor.tier_le_suffixed (Tier.admits_of_suffixed_le (by decide) _)
    simpa only [List.append_assoc, List.cons_append, List.nil_append] using joined
  | noItems isClose =>
    obtain ⟨after, rfl, last⟩ := before.of_cons isClose
    exact ⟨[_], after, rfl, last, [], _, rfl, rfl, .noExpressions⟩
  | items isClose _ _ _ first more =>
    obtain ⟨inside, _, rfl, second, derives, -⟩ := first before
    obtain ⟨segment, _, rfl, third, derivesMore⟩ := more second
    obtain ⟨after, rfl, last⟩ := third.of_cons isClose
    exact ⟨inside ++ segment ++ [_], after, by simp, last, inside ++ segment, _, rfl, rfl,
      .expressions derives derivesMore⟩
  | lastItem _ => exact ⟨[], body, rfl, before, .lastExpression⟩
  | nextItem isComma _ _ item more =>
    obtain ⟨_, rfl, second⟩ := before.of_cons (by rw [isComma]; decide)
    obtain ⟨first, _, rfl, third, derives, -⟩ := item second
    obtain ⟨segment, after, rfl, last, derivesMore⟩ := more third
    exact ⟨_, after, by simp, last, .nextExpression isComma derives derivesMore⟩
  | noPairs _ => exact ⟨[], body, rfl, before, .noPairs⟩
  | @lastPair colon _ _ _ _ _ _ _ isColon _ _ key value =>
    obtain ⟨first, _, rfl, second, derivesKey, -⟩ := key before
    obtain ⟨_, rfl, third⟩ := second.of_cons (by rw [isColon]; decide)
    obtain ⟨behind, after, rfl, last, derivesValue, -⟩ := value third
    refine ⟨first ++ colon :: (behind ++ ([] ++ [])), after, by simp, last, ?_⟩
    exact .pairs derivesKey isColon derivesValue .lastPair .none
  | @nextPair colon comma _ _ _ _ _ _ _ _ _ isColon _ isComma _ key value more =>
    obtain ⟨first, _, rfl, second, derivesKey, -⟩ := key before
    obtain ⟨_, rfl, third⟩ := second.of_cons (by rw [isColon]; decide)
    obtain ⟨behind, _, rfl, fourth, derivesValue, -⟩ := value third
    obtain ⟨_, rfl, fifth⟩ := fourth.of_cons (by rw [isComma]; decide)
    obtain ⟨segment, after, rfl, last, derivesMore⟩ := more fifth
    refine ⟨first ++ colon :: (behind ++ comma :: segment), after, by simp, last, ?_⟩
    exact derivesMore.consPair derivesKey isColon derivesValue isComma
  | binding isLet isName isAssign _ value =>
    obtain ⟨_, rfl, second⟩ := before.of_cons (by rw [isLet]; decide)
    obtain ⟨_, rfl, third⟩ := second.of_cons (by rw [isName]; decide)
    obtain ⟨_, rfl, fourth⟩ := third.of_cons (by rw [isAssign]; decide)
    obtain ⟨segment, _, rfl, fifth, derives, -⟩ := value fourth
    obtain ⟨semicolon, after, rfl, optional, last⟩ := fifth.skipSemicolon
    exact ⟨_, after, by simp, last, .binding isLet isName isAssign derives optional⟩
  | returning isReturn _ value =>
    obtain ⟨_, rfl, second⟩ := before.of_cons (by rw [isReturn]; decide)
    obtain ⟨segment, _, rfl, third, derives, -⟩ := value second
    obtain ⟨semicolon, after, rfl, optional, last⟩ := third.skipSemicolon
    exact ⟨_, after, by simp, last, .returning isReturn derives optional⟩
  | evaluated _ _ _ value =>
    obtain ⟨segment, _, rfl, second, derives, -⟩ := value before
    obtain ⟨semicolon, after, rfl, optional, last⟩ := second.skipSemicolon
    exact ⟨_, after, by simp, last, .evaluated derives optional⟩
  | noStatements stop =>
    exact ⟨[], body, rfl, before, .noStatements, by rwa [← before.headKind_eq]⟩
  | statements _ _ _ statement more =>
    obtain ⟨first, _, rfl, second, derives⟩ := statement before
    obtain ⟨segment, after, rfl, last, derivesMore, stop⟩ := more second
    exact ⟨_, after, by simp, last, .statements derives derivesMore, stop⟩
  | block isBrace _ statements =>
    obtain ⟨_, rfl, second⟩ := before.of_cons (by rw [isBrace]; decide)
    obtain ⟨inside, after, rfl, third, derives, stop⟩ := statements second
    cases after with
    | nil => exact ⟨_, [], rfl, third.tail_of_nil, .unclosed isBrace derives⟩
    | cons close after =>
      cases third with
      | next more _ last =>
        have isClose : close.kind = .closeBrace := by
          simpa [endsBlock, more] using stop
        exact ⟨_ :: (inside ++ [close]), after, by simp, last, .block isBrace derives isClose⟩

/-! ### Whole sources -/

/-- The terminals of a source stand before the end of input, all but the last. -/
theorem BeforeEnd.of_tokens {tokens : List Token} {last : Token}
    (isLast : last.kind = .endOfInput)
    (all : ∀ token ∈ tokens, token.kind ≠ .endOfInput ∧
      (token.kind = .integer → ∃ number, Decimal.natural? token.text.toList = some number)) :
    BeforeEnd ((tokens ++ [last]).map Token.terminal) (tokens.map Token.terminal) := by
  induction tokens with
  | nil =>
    refine .ends fun terminal member => ?_
    rw [List.mem_singleton.mp member]
    exact isLast
  | cons token tokens inductionHypothesis =>
    obtain ⟨more, digits⟩ := all token List.mem_cons_self
    exact .next more digits
      (inductionHypothesis fun token member => all token (List.mem_cons_of_mem _ member))

/-- When nothing is wrong with a source, the grammar derives the program that was read from all
tokens before the end of input. -/
theorem Parsed.derives_ofSource (source : String)
    (clean : (Parsed.ofSource source).diagnostics = []) :
    ∃ tokens last, Token.ofSource source = tokens ++ [last] ∧ last.kind = .endOfInput ∧
      (∀ token ∈ tokens, token.kind ≠ .endOfInput) ∧
      Derives (.statements (Parsed.ofSource source).program.statements)
        (tokens.map Token.terminal) [] := by
  obtain ⟨tokens, last, isSource, isLast, all⟩ := Token.ofSource_eq source
  refine ⟨tokens, last, isSource, isLast, fun token member => (all token member).1, ?_⟩
  have parsed : Parsed.ofTokens (Token.ofSource source) =
      ⟨⟨(Parsed.ofSource source).program.statements⟩, []⟩ := by
    rw [← clean]
    rfl
  obtain ⟨rest, reads⟩ := (ofTokens_eq_iff _ _).mp parsed
  rw [isSource] at reads
  obtain ⟨segment, after, same, -, derives, stop⟩ := reads.derived (.of_tokens isLast all)
  -- The program ends only in front of an end of input, and none stands among the tokens.
  obtain rfl : after = [] := by
    cases after with
    | nil => rfl
    | cons terminal after =>
      have member : terminal ∈ tokens.map Token.terminal := by
        rw [same]
        exact List.mem_append_right _ List.mem_cons_self
      obtain ⟨token, isToken, rfl⟩ := List.mem_map.mp member
      exact absurd (eq_of_beq stop) (all token isToken).1
  rwa [same, List.append_nil]

/-- A source whose last block is closed by the end of input. -/
theorem Parsed.derives_ofSource_unclosed :
    (Parsed.ofSource
      "let f = fn(x, y) \x7b -x[0] + y * 2 \x7d; if (f) \x7b f(1)").diagnostics = [] ∧
    ∃ tokens last,
      Token.ofSource "let f = fn(x, y) \x7b -x[0] + y * 2 \x7d; if (f) \x7b f(1)" =
        tokens ++ [last] ∧
      last.kind = .endOfInput ∧ (∀ token ∈ tokens, token.kind ≠ .endOfInput) ∧
      Derives (.statements (Parsed.ofSource
        "let f = fn(x, y) \x7b -x[0] + y * 2 \x7d; if (f) \x7b f(1)").program.statements)
        (tokens.map Token.terminal) [] :=
  ⟨by decide +kernel, Parsed.derives_ofSource _ (by decide +kernel)⟩

end MonkeyLang
