/-
This file writes programs as words with as few parentheses as their operators
allow, and proves that the words are read back as the program.

What has to be related are three things: the floor above which an expression is
read, how tightly the expression holds together, and what follows it. The floor
must lie below the expression, or reading stops too early; and nothing may
follow that binds tighter than the last operator of the expression, or reading
stops too late.
-/

import Mathlib.Data.List.Forall2
import MonkeyLang.Proofs.Decimal
import MonkeyLang.Proofs.Parser.Soundness

namespace MonkeyLang

open MonkeyLang.Parser

/-! ### Words -/

/-- How the kinds are written that are always written alike. -/
def Kind.spelling : Kind → String
  | functionWord => "fn"
  | letWord => "let"
  | trueWord => "true"
  | falseWord => "false"
  | ifWord => "if"
  | elseWord => "else"
  | returnWord => "return"
  | kind => kind.name

/-- The terminal of a kind that is always written alike. -/
def Kind.word (kind : Kind) : Terminal :=
  ⟨kind, kind.spelling⟩

theorem Kind.kind_word (kind : Kind) : kind.word.kind = kind := rfl

/-- The terminal of a name. -/
def Terminal.ofName (name : String) : Terminal :=
  ⟨.identifier, name⟩

theorem Terminal.kind_ofName (name : String) : (Terminal.ofName name).kind = .identifier := rfl

/-- Words between two parentheses. -/
def bracketed (words : List Terminal) : List Terminal :=
  Kind.openParen.word :: (words ++ [Kind.closeParen.word])

/-- Words between two braces. -/
def braced (words : List Terminal) : List Terminal :=
  Kind.openBrace.word :: (words ++ [Kind.closeBrace.word])

/-- How tightly an expression holds together without parentheses around it: an operation as tightly
as its operator, everything else as tightly as can be. -/
def Expression.grip : Expression → Precedence
  | .binary _ operator _ => operator.precedence
  | .unary _ _ => .unary
  | _ => .index

mutual

/-- The words of an expression. Parentheses stand only around an operand that would fall apart
without them. -/
@[simp] def Expression.words : Expression → List Terminal
  | .identifier name => [.ofName name]
  | .integer value => [⟨.integer, Decimal.ofInt value.toInt⟩]
  | .string text => [⟨.string, text⟩]
  | .boolean true => [Kind.trueWord.word]
  | .boolean false => [Kind.falseWord.word]
  | .unary operator operand =>
    operator.kind.word ::
      (if operand.grip < .unary then bracketed operand.words else operand.words)
  | .binary left operator right =>
    (if left.grip < operator.precedence then bracketed left.words else left.words) ++
      operator.kind.word ::
        (if right.grip ≤ operator.precedence then bracketed right.words else right.words)
  | .conditional condition consequence none =>
    Kind.ifWord.word :: (bracketed condition.words ++ braced (wordsOfStatements consequence))
  | .conditional condition consequence (some alternative) =>
    Kind.ifWord.word :: (bracketed condition.words ++
      (braced (wordsOfStatements consequence) ++
        Kind.elseWord.word :: braced (wordsOfStatements alternative)))
  | .function parameters body =>
    Kind.functionWord.word ::
      (bracketed ([Kind.comma.word].intercalate (parameters.map fun name => [.ofName name])) ++
        braced (wordsOfStatements body))
  | .call callee arguments =>
    (if callee.grip < .index then bracketed callee.words else callee.words) ++
      bracketed ([Kind.comma.word].intercalate (wordsOfExpressions arguments))
  | .array elements =>
    Kind.openBracket.word ::
      ([Kind.comma.word].intercalate (wordsOfExpressions elements) ++ [Kind.closeBracket.word])
  | .index collection position =>
    (if collection.grip < .index then bracketed collection.words else collection.words) ++
      Kind.openBracket.word :: (position.words ++ [Kind.closeBracket.word])
  | .hash pairs => braced ([Kind.comma.word].intercalate (wordsOfPairs pairs))
termination_by structural expression => expression

/-- The words of each expression of a list. -/
@[simp] def wordsOfExpressions : List Expression → List (List Terminal)
  | [] => []
  | expression :: rest => expression.words :: wordsOfExpressions rest
termination_by structural expressions => expressions

/-- The words of each pair of a hash. -/
@[simp] def wordsOfPairs : List (Expression × Expression) → List (List Terminal)
  | [] => []
  | (key, value) :: rest =>
    (key.words ++ Kind.colon.word :: value.words) :: wordsOfPairs rest
termination_by structural pairs => pairs

/-- The words of a statement, the semicolon included. -/
@[simp] def Statement.words : Statement → List Terminal
  | .binding name value =>
    Kind.letWord.word :: .ofName name :: Kind.assign.word ::
      (value.words ++ [Kind.semicolon.word])
  | .returning value => Kind.returnWord.word :: (value.words ++ [Kind.semicolon.word])
  | .expression value => value.words ++ [Kind.semicolon.word]
termination_by structural statement => statement

/-- The words of statements in a row. -/
@[simp] def wordsOfStatements : List Statement → List Terminal
  | [] => []
  | statement :: rest => statement.words ++ wordsOfStatements rest
termination_by structural statements => statements

end

/-! ### What may follow -/

/-- An expression that is read above the floor does not fall apart at its own operator. -/
def Expression.Fits (floor : Precedence) : Expression → Prop
  | .binary _ operator _ => floor < operator.precedence
  | _ => floor < .call

/-- What follows an expression neither takes its last operand away nor goes on with it. -/
structure Expression.Edge (expression : Expression) (tail : List Terminal) : Prop where
  halts : Halts expression.grip tail
  noElse : headKind tail ≠ .elseWord

/-- A terminal that no expression goes on with. -/
def Kind.Closes (kind : Kind) : Prop :=
  Continuation.ofKind? kind = none ∧ kind ≠ .elseWord

instance (kind : Kind) : Decidable kind.Closes :=
  inferInstanceAs (Decidable (_ ∧ _))

theorem Parser.Halts.mono {loose tight : Precedence} {tail : List Terminal}
    (halts : Halts loose tail)
    (looser : loose ≤ tight) : Halts tight tail :=
  fun next found less => halts next found (Nat.lt_of_le_of_lt looser less)

theorem halts_of_closes {floor : Precedence} {tail : List Terminal}
    (closes : (headKind tail).Closes) : Halts floor tail := by
  intro next found
  rw [closes.1] at found
  exact absurd found nofun

theorem halts_cons_iff {floor : Precedence} {terminal : Terminal} {tail : List Terminal}
    (next : Continuation) (isKind : terminal.kind = next.kind) :
    Halts floor (terminal :: tail) ↔ ¬floor < next.precedence := by
  have found : Continuation.ofKind? (headKind (terminal :: tail)) = some next :=
    Continuation.ofKind?_eq_some_iff.mpr isKind
  constructor
  · exact fun halts => halts next found
  · intro looser other foundOther
    rw [found] at foundOther
    rwa [← Option.some.inj foundOther]

theorem BinaryOperator.precedence_lt_unary (operator : BinaryOperator) :
    operator.precedence < .unary := by
  cases operator <;> decide

theorem BinaryOperator.precedence_lt_call (operator : BinaryOperator) :
    operator.precedence < .call :=
  Nat.lt_trans operator.precedence_lt_unary (Nat.lt_succ_self _)

namespace Expression

variable {floor : Precedence} {expression : Expression} {tail : List Terminal}

theorem Fits.lt_call (fits : expression.Fits floor) : floor < .call := by
  cases expression with
  | binary _ operator _ => exact Nat.lt_trans fits operator.precedence_lt_call
  | _ => exact fits

/-- What holds together tighter than the floor is read above it. -/
theorem fits_of_lt (tight : floor < expression.grip) (low : floor < .call) :
    expression.Fits floor := by
  cases expression with
  | binary _ operator _ => exact tight
  | _ => exact low

theorem fits_of_lt_call (low : floor < .call) (tight : ¬expression.grip < .index) :
    expression.Fits floor :=
  fits_of_lt (Nat.lt_of_lt_of_le (Nat.lt_succ_of_lt low) (Nat.le_of_not_lt tight)) low

theorem edge_of_closes (closes : (headKind tail).Closes) : expression.Edge tail :=
  ⟨halts_of_closes closes, closes.2⟩

theorem fits_unary (tight : ¬expression.grip < .unary) : expression.Fits .unary := by
  cases expression with
  | binary _ operator _ => exact absurd operator.precedence_lt_unary tight
  | _ => exact Nat.lt_succ_self _

end Expression

/-! ### Reading words back -/

/-- The words of an expression are read as the expression, wherever it fits what stands before and
behind it. Whatever larger tree the parser then makes of it, it makes from the words too. -/
def Expression.Spelled (expression : Expression) : Prop :=
  ∀ (floor : Precedence) (tree : Expression) (tail rest : List Terminal),
    expression.Fits floor → expression.Edge tail →
    Reads (.continuations floor expression tree) tail rest →
    Reads (.expression floor tree) (expression.words ++ tail) rest

/-- The words of a statement are read as the statement. -/
def Statement.Spelled (statement : Statement) : Prop :=
  ∀ tail : List Terminal, Reads (.statement statement) (statement.words ++ tail) tail

/-- Words that are read as an expression in front of whatever no expression goes on with. -/
def ReadAlone (words : List Terminal) (expression : Expression) : Prop :=
  ∀ ⦃tail : List Terminal⦄, (headKind tail).Closes →
    Reads (.expression .lowest expression) (words ++ tail) tail

/-- An expression in parentheses is an operand. -/
theorem ReadAlone.grouped {words : List Terminal} {expression : Expression}
    (alone : ReadAlone words expression) (tail : List Terminal) :
    Reads (.operand expression) (bracketed words ++ tail) tail := by
  have inner : Reads (.expression .lowest expression) (words ++ Kind.closeParen.word :: tail)
      (Kind.closeParen.word :: tail) :=
    alone (show Kind.closeParen.Closes by decide)
  have outer := Reads.grouped Kind.openParen.kind_word inner rfl
  simpa [bracketed] using outer

namespace Expression.Spelled

variable {floor : Precedence} {expression tree : Expression} {tail rest : List Terminal}

/-- An expression that nothing goes on with is read by itself. -/
theorem alone (spelled : expression.Spelled) : ReadAlone expression.words expression := by
  intro tail closes
  refine spelled .lowest expression tail tail ?_ (edge_of_closes closes)
    (.halt (halts_of_closes closes))
  cases expression with
  | binary _ operator _ => cases operator <;> exact Nat.zero_lt_succ _
  | _ => exact Nat.zero_lt_succ _

/-- An operand is read back, with parentheses or without. -/
theorem operand (spelled : expression.Spelled) {needed : Prop} [Decidable needed]
    (fits : ¬needed → expression.Fits floor ∧ expression.Edge tail)
    (continues : Reads (.continuations floor expression tree) tail rest) :
    Reads (.expression floor tree)
      ((if needed then bracketed expression.words else expression.words) ++ tail) rest := by
  split
  · exact .expression (spelled.alone.grouped tail) continues
  · next without => exact spelled _ _ _ _ (fits without).1 (fits without).2 continues

end Expression.Spelled

/-! ### Lists -/

/-- The kinds of token that an operand starts with. -/
def operandKinds : List Kind :=
  [.identifier, .integer, .string, .trueWord, .falseWord, .bang, .minus, .openParen, .ifWord,
    .functionWord, .openBracket, .openBrace]

/-- Whatever is read as an expression starts with an operand. -/
theorem Reads.headKind_mem {floor : Precedence} {tree : Expression}
    {terminals rest : List Terminal} (reads : Reads (.expression floor tree) terminals rest) :
    headKind terminals ∈ operandKinds := by
  cases reads with
  | expression operand _ =>
    cases operand with
    | @unary _ operator _ _ _ isSign _ =>
      rw [headKind_cons, isSign]
      cases operator <;> decide
    | identifier isKind | string isKind | trueWord isKind | falseWord isKind =>
      rw [headKind_cons, isKind]
      decide
    | integer isKind _ | array isKind _ =>
      rw [headKind_cons, isKind]
      decide
    | grouped isKind _ _ | hash isKind _ _ =>
      rw [headKind_cons, isKind]
      decide
    | function isKind _ _ _ =>
      rw [headKind_cons, isKind]
      decide
    | conditional isKind _ _ _ _ _ =>
      rw [headKind_cons, isKind]
      decide
    | alternative isKind _ _ _ _ _ _ =>
      rw [headKind_cons, isKind]
      decide

theorem Reads.headKind_ne {floor : Precedence} {tree : Expression} {kind : Kind}
    {terminals rest : List Terminal} (reads : Reads (.expression floor tree) terminals rest)
    (other : kind ∉ operandKinds) : headKind terminals ≠ kind :=
  fun same => other (same ▸ reads.headKind_mem)

theorem Reads.headKind_mem_of_statement {tree : Statement} {terminals rest : List Terminal}
    (reads : Reads (.statement tree) terminals rest) :
    headKind terminals ∈ [Kind.letWord, .returnWord] ++ operandKinds := by
  cases reads with
  | binding isLet _ _ _ =>
    rw [headKind_cons, isLet]
    decide
  | returning isReturn _ =>
    rw [headKind_cons, isReturn]
    decide
  | evaluated _ _ value => exact List.mem_append_right _ value.headKind_mem

theorem intercalate_cons {α : Type} (separator : α) (first : List α) (others : List (List α)) :
    [separator].intercalate (first :: others) = first ++ others.flatMap (separator :: ·) := by
  induction others generalizing first with
  | nil => simp
  | cons next others inductionHypothesis =>
    rw [List.intercalate_cons_cons, inductionHypothesis]
    simp

section Lists

variable {close : Kind} {tail : List Terminal}

/-- Behind an item stands a comma or what closes the list. -/
theorem closes_flatMap (closes : close.Closes) (others : List (List Terminal))
    (tail : List Terminal) :
    (headKind (others.flatMap (Kind.comma.word :: ·) ++ close.word :: tail)).Closes := by
  cases others with
  | nil => exact closes
  | cons => exact (by decide : Kind.comma.Closes)

theorem spelled_moreItems {items : List (List Terminal)} {trees : List Expression}
    (all : List.Forall₂ ReadAlone items trees) (closes : close.Closes) (noComma : close ≠ .comma) :
    Reads (.moreItems trees) (items.flatMap (Kind.comma.word :: ·) ++ close.word :: tail)
      (close.word :: tail) := by
  induction all with
  | nil => exact .lastItem noComma
  | @cons item tree items trees alone _ inductionHypothesis =>
    have first := alone (closes_flatMap closes items tail)
    have reads := Reads.nextItem Kind.comma.kind_word first inductionHypothesis
    simpa using reads

theorem spelled_items {items : List (List Terminal)} {trees : List Expression}
    (all : List.Forall₂ ReadAlone items trees) (closes : close.Closes) (noComma : close ≠ .comma)
    (noOperand : close ∉ operandKinds) (more : close ≠ .endOfInput) :
    Reads (.items close trees) ([Kind.comma.word].intercalate items ++ close.word :: tail)
      tail := by
  cases all with
  | nil => exact Reads.noItems (show close.word.kind ≠ .endOfInput from more)
  | @cons item tree items trees alone others =>
    have first := alone (closes_flatMap closes items tail)
    rw [intercalate_cons, List.append_assoc]
    exact Reads.items (show close.word.kind ≠ .endOfInput from more) (first.headKind_ne noOperand)
      first (spelled_moreItems others closes noComma)

/-- Words that are read as the key and the value of a pair, with a colon between them. -/
def PairAlone (words : List Terminal) (pair : Expression × Expression) : Prop :=
  ∃ key value, words = key ++ Kind.colon.word :: value ∧
    ReadAlone key pair.1 ∧ ReadAlone value pair.2

theorem spelled_pairs {items : List (List Terminal)} {trees : List (Expression × Expression)}
    (all : List.Forall₂ PairAlone items trees) :
    Reads (.pairs trees)
      ([Kind.comma.word].intercalate items ++ Kind.closeBrace.word :: tail)
      (Kind.closeBrace.word :: tail) := by
  induction all with
  | nil => exact .noPairs rfl
  | @cons item pair items trees alone others inductionHypothesis =>
    obtain ⟨key, value, rfl, aloneKey, aloneValue⟩ := alone
    have readsKey (behind : List Terminal) : Reads (.expression .lowest pair.1)
        (key ++ Kind.colon.word :: behind) (Kind.colon.word :: behind) :=
      aloneKey (show Kind.colon.Closes by decide)
    have noClose : Kind.closeBrace ∉ operandKinds := by decide
    have startsKey (behind : List Terminal) := (readsKey behind).headKind_ne noClose
    cases others with
    | nil =>
      have readsValue : Reads (.expression .lowest pair.2)
          (value ++ Kind.closeBrace.word :: tail) (Kind.closeBrace.word :: tail) :=
        aloneValue (show Kind.closeBrace.Closes by decide)
      have reads := Reads.lastPair (startsKey _) (readsKey _) rfl readsValue rfl
      simpa using reads
    | cons =>
      have readsValue (behind : List Terminal) : Reads (.expression .lowest pair.2)
          (value ++ Kind.comma.word :: behind) (Kind.comma.word :: behind) :=
        aloneValue (show Kind.comma.Closes by decide)
      have reads := Reads.nextPair (startsKey _) (readsKey _) rfl (readsValue _) rfl
        inductionHypothesis
      simpa using reads

theorem spelled_moreNames (names : List String) :
    ReadsMoreNames
      ((names.map fun name => [.ofName name]).flatMap (Kind.comma.word :: ·) ++
        Kind.closeParen.word :: tail)
      names (Kind.closeParen.word :: tail) := by
  induction names with
  | nil => exact .stop nofun
  | cons name names inductionHypothesis =>
    exact .next Kind.comma.kind_word (Terminal.kind_ofName name) inductionHypothesis

theorem spelled_names (names : List String) :
    ReadsNames
      ([Kind.comma.word].intercalate (names.map fun name => [.ofName name]) ++
        Kind.closeParen.word :: tail) names tail := by
  cases names with
  | nil => exact .none rfl
  | cons name names =>
    rw [List.map_cons, intercalate_cons, List.append_assoc]
    exact .some (Terminal.kind_ofName name) (spelled_moreNames names) rfl

theorem spelled_statements {stops : Kind → Bool} {trees : List Statement}
    (spelled : ∀ each ∈ trees, each.Spelled) (stop : stops (headKind tail) = true)
    (starts : ∀ kind ∈ [Kind.letWord, .returnWord] ++ operandKinds, stops kind = false) :
    Reads (.statements stops trees) (wordsOfStatements trees ++ tail) tail := by
  induction trees with
  | nil => exact .noStatements stop
  | cons tree trees inductionHypothesis =>
    have first := spelled tree List.mem_cons_self (wordsOfStatements trees ++ tail)
    have more := inductionHypothesis fun each member => spelled each (List.mem_cons_of_mem _ member)
    rw [wordsOfStatements, List.append_assoc]
    exact .statements (starts _ first.headKind_mem_of_statement) first more

/-- Words that are read as the statements of a block, up to its closing brace. -/
def BlockAlone (words : List Terminal) (trees : List Statement) : Prop :=
  ∀ tail : List Terminal,
    Reads (.statements endsBlock trees) (words ++ Kind.closeBrace.word :: tail)
      (Kind.closeBrace.word :: tail)

theorem BlockAlone.braced {words : List Terminal} {trees : List Statement}
    (alone : BlockAlone words trees) (tail : List Terminal) :
    Reads (.block trees) (braced words ++ tail) tail := by
  have reads := Reads.block Kind.openBrace.kind_word (alone tail)
  simpa [MonkeyLang.braced] using reads

theorem spelled_block {trees : List Statement} (spelled : ∀ each ∈ trees, each.Spelled) :
    BlockAlone (wordsOfStatements trees) trees :=
  fun _ => spelled_statements spelled rfl (by decide)

end Lists

/-! ### Operands and continuations -/

section Operands

variable {items : List (List Terminal)} {words block : List Terminal} {body : List Statement}

theorem operand_array {elements : List Expression} (all : List.Forall₂ ReadAlone items elements)
    (tail : List Terminal) :
    Reads (.operand (.array elements))
      (Kind.openBracket.word ::
        ([Kind.comma.word].intercalate items ++ Kind.closeBracket.word :: tail)) tail :=
  .array Kind.openBracket.kind_word
    (spelled_items all (by decide) (by decide) (by decide) (by decide))

theorem operand_hash {pairs : List (Expression × Expression)}
    (all : List.Forall₂ PairAlone items pairs) (tail : List Terminal) :
    Reads (.operand (.hash pairs)) (braced ([Kind.comma.word].intercalate items) ++ tail) tail := by
  have reads : Reads (.pairs pairs)
      ([Kind.comma.word].intercalate items ++ Kind.closeBrace.word :: tail)
      (Kind.closeBrace.word :: tail) := spelled_pairs all
  simpa [braced] using Reads.hash Kind.openBrace.kind_word reads Kind.closeBrace.kind_word

theorem operand_function (parameters : List String) (alone : BlockAlone words body)
    (tail : List Terminal) :
    Reads (.operand (.function parameters body))
      (Kind.functionWord.word ::
        (bracketed ([Kind.comma.word].intercalate (parameters.map fun name => [.ofName name])) ++
          (braced words ++ tail))) tail := by
  have operand := Reads.function Kind.functionWord.kind_word Kind.openParen.kind_word
    (spelled_names parameters) (alone.braced tail)
  simpa [bracketed] using operand

theorem operand_conditional {condition : Expression} (alone : ReadAlone words condition)
    (aloneBlock : BlockAlone block body) {tail : List Terminal}
    (noElse : headKind tail ≠ .elseWord) :
    Reads (.operand (.conditional condition body none))
      (Kind.ifWord.word :: (bracketed words ++ (braced block ++ tail))) tail := by
  have reads : Reads (.expression .lowest condition)
      (words ++ Kind.closeParen.word :: (braced block ++ tail))
      (Kind.closeParen.word :: (braced block ++ tail)) :=
    alone (show Kind.closeParen.Closes by decide)
  have operand := Reads.conditional Kind.ifWord.kind_word Kind.openParen.kind_word reads
    Kind.closeParen.kind_word (aloneBlock.braced tail) noElse
  simpa [bracketed] using operand

variable {floor : Precedence} {tree : Expression} {tail rest : List Terminal}

theorem continuations_call {callee : Expression} {arguments : List Expression}
    (all : List.Forall₂ ReadAlone items arguments) (low : floor < .call)
    (continues : Reads (.continuations floor (.call callee arguments) tree) tail rest) :
    Reads (.continuations floor callee tree)
      (bracketed ([Kind.comma.word].intercalate items) ++ tail) rest := by
  have reads : Reads (.items .closeParen arguments)
      ([Kind.comma.word].intercalate items ++ Kind.closeParen.word :: tail) tail :=
    spelled_items all (by decide) (by decide) (by decide) (by decide)
  simpa [bracketed] using Reads.call Kind.openParen.kind_word low reads continues

theorem continuations_index {collection position : Expression} (alone : ReadAlone words position)
    (low : floor < .index)
    (continues : Reads (.continuations floor (.index collection position) tree) tail rest) :
    Reads (.continuations floor collection tree)
      (Kind.openBracket.word :: (words ++ Kind.closeBracket.word :: tail)) rest := by
  have reads : Reads (.expression .lowest position) (words ++ Kind.closeBracket.word :: tail)
      (Kind.closeBracket.word :: tail) :=
    alone (show Kind.closeBracket.Closes by decide)
  exact .index Kind.openBracket.kind_word low reads Kind.closeBracket.kind_word continues

end Operands

section Operations

variable {floor : Precedence} {tree : Expression} {tail rest : List Terminal}

theorem spelled_unary {operator : UnaryOperator} {operand : Expression}
    (spelled : operand.Spelled) : (Expression.unary operator operand).Spelled := by
  intro floor tree tail rest _ edge continues
  have reads : Reads (.expression .unary operand)
      ((if operand.grip < .unary then bracketed operand.words else operand.words) ++ tail) tail :=
    spelled.operand
      (fun tight =>
        ⟨Expression.fits_unary tight, edge.halts.mono (Nat.le_of_not_lt tight), edge.noElse⟩)
      (.halt edge.halts)
  exact .expression (.unary rfl reads) continues

theorem spelled_binary {operator : BinaryOperator} {left right : Expression}
    (spelledLeft : left.Spelled) (spelledRight : right.Spelled) :
    (Expression.binary left operator right).Spelled := by
  intro floor tree tail rest fits edge continues
  have above : floor < operator.precedence := fits
  have reads : Reads (.expression operator.precedence right)
      ((if right.grip ≤ operator.precedence then bracketed right.words else right.words) ++ tail)
      tail :=
    spelledRight.operand
      (fun tight =>
        ⟨Expression.fits_of_lt (Nat.lt_of_not_le tight) operator.precedence_lt_call,
          edge.halts.mono (Nat.le_of_not_le tight), edge.noElse⟩)
      (.halt edge.halts)
  rw [Expression.words, List.append_assoc, List.cons_append]
  refine spelledLeft.operand (fun tight => ⟨?_, ?_, ?_⟩) (.operation rfl above reads continues)
  · exact Expression.fits_of_lt (Nat.lt_of_lt_of_le above (Nat.le_of_not_lt tight)) fits.lt_call
  · exact (halts_cons_iff (.operation operator) rfl).mpr tight
  · cases operator <;> exact nofun

theorem spelled_call {callee : Expression} {arguments : List Expression}
    (spelled : callee.Spelled)
    (all : List.Forall₂ ReadAlone (wordsOfExpressions arguments) arguments) :
    (Expression.call callee arguments).Spelled := by
  intro floor tree tail rest fits edge continues
  rw [Expression.words, List.append_assoc]
  refine spelled.operand (fun tight => ⟨?_, ?_, nofun⟩)
    (continuations_call all fits.lt_call continues)
  · exact Expression.fits_of_lt_call fits.lt_call tight
  · exact (halts_cons_iff .call rfl).mpr fun less => tight (Nat.lt_succ_of_lt less)

theorem spelled_index {collection position : Expression} (spelled : collection.Spelled)
    (spelledPosition : position.Spelled) : (Expression.index collection position).Spelled := by
  intro floor tree tail rest fits edge continues
  have split : (Expression.index collection position).words ++ tail =
      (if collection.grip < .index then bracketed collection.words else collection.words) ++
        Kind.openBracket.word :: (position.words ++ Kind.closeBracket.word :: tail) := by
    simp only [Expression.words, List.append_assoc, List.cons_append, List.nil_append]
  rw [split]
  refine spelled.operand (fun tight => ⟨?_, ?_, nofun⟩)
    (continuations_index spelledPosition.alone (Nat.lt_succ_of_lt fits.lt_call) continues)
  · exact Expression.fits_of_lt_call fits.lt_call tight
  · exact (halts_cons_iff .index rfl).mpr tight

theorem spelled_conditional {condition : Expression} {consequence : List Statement}
    (spelled : condition.Spelled) (spelledAll : ∀ each ∈ consequence, each.Spelled) :
    (Expression.conditional condition consequence none).Spelled := by
  intro floor tree tail rest _ edge continues
  have operand := operand_conditional spelled.alone (spelled_block spelledAll) edge.noElse
  simpa using Reads.expression operand continues

theorem spelled_alternative {condition : Expression} {consequence alternative : List Statement}
    (spelled : condition.Spelled) (spelledAll : ∀ each ∈ consequence, each.Spelled)
    (spelledOther : ∀ each ∈ alternative, each.Spelled) :
    (Expression.conditional condition consequence (some alternative)).Spelled := by
  intro floor tree tail rest _ _ continues
  have reads (behind : List Terminal) : Reads (.expression .lowest condition)
      (condition.words ++ Kind.closeParen.word :: behind) (Kind.closeParen.word :: behind) :=
    spelled.alone (show Kind.closeParen.Closes by decide)
  have readsBlock := (spelled_block spelledAll).braced
    (Kind.elseWord.word :: (braced (wordsOfStatements alternative) ++ tail))
  have operand := Reads.alternative Kind.ifWord.kind_word Kind.openParen.kind_word (reads _)
    Kind.closeParen.kind_word readsBlock Kind.elseWord.kind_word
    ((spelled_block spelledOther).braced tail)
  simpa [bracketed] using Reads.expression operand continues

theorem spelled_function {parameters : List String} {body : List Statement}
    (spelledAll : ∀ each ∈ body, each.Spelled) :
    (Expression.function parameters body).Spelled := by
  intro floor tree tail rest _ _ continues
  have operand := operand_function parameters (spelled_block spelledAll) tail
  simpa using Reads.expression operand continues

theorem spelled_array {elements : List Expression}
    (all : List.Forall₂ ReadAlone (wordsOfExpressions elements) elements) :
    (Expression.array elements).Spelled := by
  intro floor tree tail rest _ _ continues
  simpa using Reads.expression (operand_array all tail) continues

theorem spelled_hash {pairs : List (Expression × Expression)}
    (all : List.Forall₂ PairAlone (wordsOfPairs pairs) pairs) :
    (Expression.hash pairs).Spelled := by
  intro floor tree tail rest _ _ continues
  simpa using Reads.expression (operand_hash all tail) continues

end Operations

/-! ### Statements and whole trees -/

@[simp] theorem dropSemicolon_word (tail : List Terminal) :
    dropSemicolon (Kind.semicolon.word :: tail) = tail := rfl

theorem dropSemicolon_of_ne {tail : List Terminal} (other : headKind tail ≠ .semicolon) :
    dropSemicolon tail = tail := by
  cases tail with
  | nil => rfl
  | cons terminal tail => exact if_neg other

section Alone

variable {words : List Terminal} {value : Expression}

theorem statement_binding (name : String) (alone : ReadAlone words value) (tail : List Terminal) :
    Reads (.statement (.binding name value))
      (Kind.letWord.word :: .ofName name :: Kind.assign.word ::
        (words ++ Kind.semicolon.word :: tail)) tail := by
  have reads : Reads (.expression .lowest value)
      (words ++ Kind.semicolon.word :: tail) (Kind.semicolon.word :: tail) :=
    alone (show Kind.semicolon.Closes by decide)
  exact .binding Kind.letWord.kind_word (Terminal.kind_ofName name) Kind.assign.kind_word reads

theorem statement_returning (alone : ReadAlone words value) (tail : List Terminal) :
    Reads (.statement (.returning value))
      (Kind.returnWord.word :: (words ++ Kind.semicolon.word :: tail)) tail := by
  have reads : Reads (.expression .lowest value)
      (words ++ Kind.semicolon.word :: tail) (Kind.semicolon.word :: tail) :=
    alone (show Kind.semicolon.Closes by decide)
  exact .returning Kind.returnWord.kind_word reads

/-- An expression is a statement too, up to what no expression goes on with. -/
theorem statement_expression (alone : ReadAlone words value) {tail : List Terminal}
    (closes : (headKind tail).Closes) :
    Reads (.statement (.expression value)) (words ++ tail) (dropSemicolon tail) :=
  have reads := alone closes
  .evaluated (reads.headKind_ne (by decide)) (reads.headKind_ne (by decide)) reads

end Alone

theorem spelled_binding {value : Expression} (name : String) (spelled : value.Spelled) :
    (Statement.binding name value).Spelled :=
  fun tail => by simpa using statement_binding name spelled.alone tail

theorem spelled_returning {value : Expression} (spelled : value.Spelled) :
    (Statement.returning value).Spelled :=
  fun tail => by simpa using statement_returning spelled.alone tail

theorem spelled_evaluated {value : Expression} (spelled : value.Spelled) :
    (Statement.expression value).Spelled := by
  intro tail
  have closes : (headKind (Kind.semicolon.word :: tail)).Closes :=
    (by decide : Kind.semicolon.Closes)
  simpa using statement_expression spelled.alone closes

mutual

/-- Every expression is read back from its words. -/
theorem Expression.spelled : (expression : Expression) → expression.Spelled
  | .identifier name => fun _ _ _ _ _ _ continues =>
    .expression (.identifier (Terminal.kind_ofName name)) continues
  | .integer value => fun _ _ _ _ _ _ continues =>
    .expression (.integer rfl (Decimal.int64?_ofInt value)) continues
  | .string _ => fun _ _ _ _ _ _ continues => .expression (.string rfl) continues
  | .boolean true => fun _ _ _ _ _ _ continues => .expression (.trueWord rfl) continues
  | .boolean false => fun _ _ _ _ _ _ continues => .expression (.falseWord rfl) continues
  | .unary _ operand => spelled_unary operand.spelled
  | .binary left _ right => spelled_binary left.spelled right.spelled
  | .conditional condition consequence none =>
    spelled_conditional condition.spelled (spelled_ofStatements consequence)
  | .conditional condition consequence (some alternative) =>
    spelled_alternative condition.spelled (spelled_ofStatements consequence)
      (spelled_ofStatements alternative)
  | .function _ body => spelled_function (spelled_ofStatements body)
  | .call callee arguments => spelled_call callee.spelled (spelled_ofExpressions arguments)
  | .array elements => spelled_array (spelled_ofExpressions elements)
  | .index collection position => spelled_index collection.spelled position.spelled
  | .hash pairs => spelled_hash (spelled_ofPairs pairs)
termination_by structural expression => expression

theorem spelled_ofExpressions : (trees : List Expression) →
    List.Forall₂ ReadAlone (wordsOfExpressions trees) trees
  | [] => .nil
  | tree :: trees => .cons tree.spelled.alone (spelled_ofExpressions trees)
termination_by structural trees => trees

theorem spelled_ofPairs : (trees : List (Expression × Expression)) →
    List.Forall₂ PairAlone (wordsOfPairs trees) trees
  | [] => .nil
  | (key, value) :: trees =>
    .cons ⟨_, _, rfl, key.spelled.alone, value.spelled.alone⟩ (spelled_ofPairs trees)
termination_by structural trees => trees

/-- Every statement is read back from its words. -/
theorem Statement.spelled : (statement : Statement) → statement.Spelled
  | .binding name value => spelled_binding name value.spelled
  | .returning value => spelled_returning value.spelled
  | .expression value => spelled_evaluated value.spelled
termination_by structural statement => statement

theorem spelled_ofStatements : (trees : List Statement) → ∀ each ∈ trees, each.Spelled
  | [] => nofun
  | tree :: trees => List.forall_mem_cons.mpr ⟨tree.spelled, spelled_ofStatements trees⟩
termination_by structural trees => trees

end

end MonkeyLang
