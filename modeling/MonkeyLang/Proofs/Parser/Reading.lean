/-
This file says what is read when nothing is wrong, as a relation between the
terminals ahead, the tree that is read, and the terminals left over. The
relation has one rule for each way in which a construct can go well, looks one
terminal ahead where the parser does, and knows neither cursors nor bounds.
-/

import MonkeyLang.Proofs.Parser.Constructs

namespace MonkeyLang

open MonkeyLang.Parser

/-! ### The relation -/

/-- The terminals behind a semicolon, if there is one ahead. -/
def dropSemicolon : List Terminal → List Terminal
  | [] => []
  | terminal :: rest => if terminal.kind = .semicolon then rest else terminal :: rest

@[simp] theorem Cursor.terminals_skipSemicolon (cursor : Cursor) :
    cursor.skipSemicolon.terminals = dropSemicolon cursor.terminals := by
  unfold skipSemicolon
  cases ahead : cursor.terminals with
  | nil => simp [ahead, dropSemicolon]
  | cons terminal rest =>
    rw [headKind_cons, dropSemicolon]
    split
    · rw [terminals_advance, ahead, List.tail_cons]
    · exact ahead

theorem length_dropSemicolon_le (terminals : List Terminal) :
    (dropSemicolon terminals).length ≤ terminals.length := by
  cases terminals with
  | nil => exact Nat.le_refl _
  | cons terminal rest =>
    rw [dropSemicolon]
    split
    · exact Nat.le_succ _
    · exact Nat.le_refl _

/-- The kind of token that a unary operator is. -/
def UnaryOperator.kind : UnaryOperator → Kind
  | not => .bang
  | negate => .minus

/-- The kind of token that a binary operator is. -/
def BinaryOperator.kind : BinaryOperator → Kind
  | add => .plus
  | subtract => .minus
  | multiply => .asterisk
  | divide => .slash
  | less => .less
  | greater => .greater
  | equal => .equal
  | notEqual => .notEqual

/-- The kind of token that a continuation starts with. -/
def Continuation.kind : Continuation → Kind
  | operation operator => operator.kind
  | call => .openParen
  | index => .openBracket

theorem Continuation.ofKind?_eq_some_iff {kind : Kind} {next : Continuation} :
    Continuation.ofKind? kind = some next ↔ kind = next.kind := by
  constructor
  · intro found
    revert found
    cases kind <;> simp only [ofKind?, Option.some.injEq, reduceCtorEq, false_implies] <;>
      rintro rfl <;> rfl
  · rintro rfl
    rcases next with operator | _ | _
    · cases operator <;> rfl
    · rfl
    · rfl

theorem Continuation.kind_ne_endOfInput (next : Continuation) : next.kind ≠ .endOfInput := by
  rcases next with operator | _ | _
  · cases operator <;> decide
  · decide
  · decide

/-- Reads the names behind the first one of a list of parameters. -/
inductive ReadsMoreNames : List Terminal → List String → List Terminal → Prop
  | stop {terminals : List Terminal} : headKind terminals ≠ .comma →
      ReadsMoreNames terminals [] terminals
  | next {comma name : Terminal} {terminals rest : List Terminal} {names : List String} :
      comma.kind = .comma → name.kind = .identifier → ReadsMoreNames terminals names rest →
      ReadsMoreNames (comma :: name :: terminals) (name.text :: names) rest

/-- Reads a list of parameters through its closing parenthesis. -/
inductive ReadsNames : List Terminal → List String → List Terminal → Prop
  | none {close : Terminal} {rest : List Terminal} : close.kind = .closeParen →
      ReadsNames (close :: rest) [] rest
  | some {name close : Terminal} {terminals rest : List Terminal} {names : List String} :
      name.kind = .identifier → ReadsMoreNames terminals names (close :: rest) →
      close.kind = .closeParen → ReadsNames (name :: terminals) (name.text :: names) rest

/-- A stage of reading, together with the tree it yields. -/
inductive Phrase
  | expression (floor : Precedence) (tree : Expression)
  | operand (tree : Expression)
  /-- All that makes a larger tree of a finished one. -/
  | continuations (floor : Precedence) (left tree : Expression)
  /-- The items behind the first one of a list. -/
  | moreItems (trees : List Expression)
  /-- A list through its closing bracket. -/
  | items (close : Kind) (trees : List Expression)
  /-- The pairs of a hash up to its closing brace. -/
  | pairs (trees : List (Expression × Expression))
  | statement (tree : Statement)
  | statements (stops : Kind → Bool) (trees : List Statement)
  | block (trees : List Statement)

/-- Reads a phrase from the front of a list of terminals and leaves the rest. -/
inductive Reads : Phrase → List Terminal → List Terminal → Prop
  | expression {floor : Precedence} {left tree : Expression}
      {terminals middle rest : List Terminal} :
      Reads (.operand left) terminals middle →
      Reads (.continuations floor left tree) middle rest →
      Reads (.expression floor tree) terminals rest
  | identifier {name : Terminal} {rest : List Terminal} : name.kind = .identifier →
      Reads (.operand (.identifier name.text)) (name :: rest) rest
  | integer {digits : Terminal} {value : Int64} {rest : List Terminal} :
      digits.kind = .integer → Decimal.int64? digits.text = some value →
      Reads (.operand (.integer value)) (digits :: rest) rest
  | string {quoted : Terminal} {rest : List Terminal} : quoted.kind = .string →
      Reads (.operand (.string quoted.text)) (quoted :: rest) rest
  | trueWord {word : Terminal} {rest : List Terminal} : word.kind = .trueWord →
      Reads (.operand (.boolean true)) (word :: rest) rest
  | falseWord {word : Terminal} {rest : List Terminal} : word.kind = .falseWord →
      Reads (.operand (.boolean false)) (word :: rest) rest
  | unary {sign : Terminal} {operator : UnaryOperator} {tree : Expression}
      {terminals rest : List Terminal} : sign.kind = operator.kind →
      Reads (.expression .unary tree) terminals rest →
      Reads (.operand (.unary operator tree)) (sign :: terminals) rest
  | grouped {paren close : Terminal} {tree : Expression} {terminals rest : List Terminal} :
      paren.kind = .openParen → Reads (.expression .lowest tree) terminals (close :: rest) →
      close.kind = .closeParen → Reads (.operand tree) (paren :: terminals) rest
  | conditional {word paren close : Terminal} {condition : Expression}
      {consequence : List Statement} {terminals middle rest : List Terminal} :
      word.kind = .ifWord → paren.kind = .openParen →
      Reads (.expression .lowest condition) terminals (close :: middle) →
      close.kind = .closeParen → Reads (.block consequence) middle rest →
      headKind rest ≠ .elseWord →
      Reads (.operand (.conditional condition consequence none)) (word :: paren :: terminals) rest
  | alternative {word paren close otherwise : Terminal} {condition : Expression}
      {consequence alternative : List Statement} {terminals middle behind rest : List Terminal} :
      word.kind = .ifWord → paren.kind = .openParen →
      Reads (.expression .lowest condition) terminals (close :: middle) →
      close.kind = .closeParen → Reads (.block consequence) middle (otherwise :: behind) →
      otherwise.kind = .elseWord → Reads (.block alternative) behind rest →
      Reads (.operand (.conditional condition consequence (some alternative)))
        (word :: paren :: terminals) rest
  | function {word paren : Terminal} {parameters : List String} {body : List Statement}
      {terminals middle rest : List Terminal} :
      word.kind = .functionWord → paren.kind = .openParen →
      ReadsNames terminals parameters middle → Reads (.block body) middle rest →
      Reads (.operand (.function parameters body)) (word :: paren :: terminals) rest
  | array {bracket : Terminal} {elements : List Expression} {terminals rest : List Terminal} :
      bracket.kind = .openBracket → Reads (.items .closeBracket elements) terminals rest →
      Reads (.operand (.array elements)) (bracket :: terminals) rest
  | hash {brace close : Terminal} {entries : List (Expression × Expression)}
      {terminals rest : List Terminal} : brace.kind = .openBrace →
      Reads (.pairs entries) terminals (close :: rest) → close.kind = .closeBrace →
      Reads (.operand (.hash entries)) (brace :: terminals) rest
  | halt {floor : Precedence} {left : Expression} {terminals : List Terminal} :
      Halts floor terminals → Reads (.continuations floor left left) terminals terminals
  | operation {floor : Precedence} {sign : Terminal} {operator : BinaryOperator}
      {left right tree : Expression} {terminals middle rest : List Terminal} :
      sign.kind = operator.kind → floor < operator.precedence →
      Reads (.expression operator.precedence right) terminals middle →
      Reads (.continuations floor (.binary left operator right) tree) middle rest →
      Reads (.continuations floor left tree) (sign :: terminals) rest
  | call {floor : Precedence} {paren : Terminal} {left tree : Expression}
      {arguments : List Expression} {terminals middle rest : List Terminal} :
      paren.kind = .openParen → floor < .call →
      Reads (.items .closeParen arguments) terminals middle →
      Reads (.continuations floor (.call left arguments) tree) middle rest →
      Reads (.continuations floor left tree) (paren :: terminals) rest
  | index {floor : Precedence} {bracket close : Terminal} {left position tree : Expression}
      {terminals middle rest : List Terminal} :
      bracket.kind = .openBracket → floor < .index →
      Reads (.expression .lowest position) terminals (close :: middle) →
      close.kind = .closeBracket →
      Reads (.continuations floor (.index left position) tree) middle rest →
      Reads (.continuations floor left tree) (bracket :: terminals) rest
  | noItems {close : Terminal} {rest : List Terminal} : close.kind ≠ .endOfInput →
      Reads (.items close.kind []) (close :: rest) rest
  | items {close : Terminal} {first : Expression} {trees : List Expression}
      {terminals middle rest : List Terminal} : close.kind ≠ .endOfInput →
      headKind terminals ≠ close.kind →
      Reads (.expression .lowest first) terminals middle →
      Reads (.moreItems trees) middle (close :: rest) →
      Reads (.items close.kind (first :: trees)) terminals rest
  | lastItem {terminals : List Terminal} : headKind terminals ≠ .comma →
      Reads (.moreItems []) terminals terminals
  | nextItem {comma : Terminal} {tree : Expression} {trees : List Expression}
      {terminals middle rest : List Terminal} : comma.kind = .comma →
      Reads (.expression .lowest tree) terminals middle → Reads (.moreItems trees) middle rest →
      Reads (.moreItems (tree :: trees)) (comma :: terminals) rest
  | noPairs {terminals : List Terminal} : headKind terminals = .closeBrace →
      Reads (.pairs []) terminals terminals
  | lastPair {colon : Terminal} {key value : Expression} {terminals middle rest : List Terminal} :
      headKind terminals ≠ .closeBrace →
      Reads (.expression .lowest key) terminals (colon :: middle) → colon.kind = .colon →
      Reads (.expression .lowest value) middle rest → headKind rest = .closeBrace →
      Reads (.pairs [(key, value)]) terminals rest
  | nextPair {colon comma : Terminal} {key value : Expression}
      {trees : List (Expression × Expression)} {terminals middle behind rest : List Terminal} :
      headKind terminals ≠ .closeBrace →
      Reads (.expression .lowest key) terminals (colon :: middle) → colon.kind = .colon →
      Reads (.expression .lowest value) middle (comma :: behind) → comma.kind = .comma →
      Reads (.pairs trees) behind rest →
      Reads (.pairs ((key, value) :: trees)) terminals rest
  | binding {word name assign : Terminal} {value : Expression} {terminals rest : List Terminal} :
      word.kind = .letWord → name.kind = .identifier → assign.kind = .assign →
      Reads (.expression .lowest value) terminals rest →
      Reads (.statement (.binding name.text value)) (word :: name :: assign :: terminals)
        (dropSemicolon rest)
  | returning {word : Terminal} {value : Expression} {terminals rest : List Terminal} :
      word.kind = .returnWord → Reads (.expression .lowest value) terminals rest →
      Reads (.statement (.returning value)) (word :: terminals) (dropSemicolon rest)
  | evaluated {value : Expression} {terminals rest : List Terminal} :
      headKind terminals ≠ .letWord → headKind terminals ≠ .returnWord →
      Reads (.expression .lowest value) terminals rest →
      Reads (.statement (.expression value)) terminals (dropSemicolon rest)
  | noStatements {stops : Kind → Bool} {terminals : List Terminal} :
      stops (headKind terminals) = true → Reads (.statements stops []) terminals terminals
  | statements {stops : Kind → Bool} {tree : Statement} {trees : List Statement}
      {terminals middle rest : List Terminal} : stops (headKind terminals) = false →
      Reads (.statement tree) terminals middle → Reads (.statements stops trees) middle rest →
      Reads (.statements stops (tree :: trees)) terminals rest
  | block {brace : Terminal} {trees : List Statement} {terminals rest : List Terminal} :
      brace.kind = .openBrace → Reads (.statements endsBlock trees) terminals rest →
      Reads (.block trees) (brace :: terminals) rest.tail

/-! ### Progress -/

/-- How many terminals a phrase takes at least. -/
def Phrase.least : Phrase → Nat
  | .expression .. => 1
  | .operand _ => 1
  | .items .. => 1
  | .statement _ => 1
  | .block _ => 1
  | _ => 0

theorem ReadsMoreNames.length_le {terminals rest : List Terminal} {names : List String}
    (reads : ReadsMoreNames terminals names rest) : rest.length ≤ terminals.length := by
  induction reads with
  | stop => exact Nat.le_refl _
  | next _ _ _ inductionHypothesis => simp only [List.length_cons]; omega

theorem ReadsNames.length_lt {terminals rest : List Terminal} {names : List String}
    (reads : ReadsNames terminals names rest) : rest.length < terminals.length := by
  cases reads with
  | none => exact Nat.lt_succ_self _
  | some _ more _ =>
    have moreLe := more.length_le
    simp only [List.length_cons] at moreLe ⊢
    omega

/-- A phrase takes as many terminals as it must, and none is left over that was not ahead. -/
theorem Reads.length_le {phrase : Phrase} {terminals rest : List Terminal}
    (reads : Reads phrase terminals rest) : rest.length + phrase.least ≤ terminals.length := by
  induction reads with
  | function _ _ names _ inductionHypothesis =>
    have namesLt := names.length_lt
    simp only [Phrase.least, List.length_cons] at inductionHypothesis ⊢
    omega
  | @binding _ _ _ _ _ rest _ _ _ _ inductionHypothesis =>
    have dropped := length_dropSemicolon_le rest
    simp only [Phrase.least, List.length_cons] at inductionHypothesis ⊢
    omega
  | @returning _ _ _ rest _ _ inductionHypothesis =>
    have dropped := length_dropSemicolon_le rest
    simp only [Phrase.least, List.length_cons] at inductionHypothesis ⊢
    omega
  | @evaluated _ _ rest _ _ _ inductionHypothesis =>
    have dropped := length_dropSemicolon_le rest
    simp only [Phrase.least] at inductionHypothesis ⊢
    omega
  | block _ _ inductionHypothesis =>
    simp only [Phrase.least, List.length_cons, List.length_tail] at inductionHypothesis ⊢
    omega
  | _ => simp only [Phrase.least, List.length_cons] at *; omega

end MonkeyLang
