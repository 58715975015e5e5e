/-
This file states the grammar of the language on its own, without reference to
any way of reading it:

  statement  = let IDENT = expression [;] | return expression [;] | expression [;]
  block      = '{' {statement} '}', the brace missing only at the end of input
  expression = tiers of left-associative operators, loosest first: == and !=,
               then < and >, then + and -, then * and /; below them the signs
               ! and - in front of an operand, then calls and indexing behind
               one, then the primary forms
  primary    = IDENT | INT | STRING | true | false | ( expression )
             | if ( expression ) block [else block] | fn ( [IDENT {, IDENT}] ) block
             | '[' [expression {, expression}] ']'
             | '{' [expression : expression {, expression : expression} [,]] '}'

A derivation ties a tree to the contiguous segment of terminals that spells it.
It also carries the terminals that follow the segment up to the end of input;
only a block without its closing brace looks at them.
-/

import MonkeyLang.Proofs.Parser.Reading

namespace MonkeyLang

/-! ### Tiers -/

/-- The tiers of expressions, loosest first. -/
inductive Tier
  | equality
  | comparison
  | sum
  | product
  | unary
  | suffixed
  | primary
deriving DecidableEq, Repr, Inhabited

namespace Tier

/-- The place of a tier in the order, from zero. -/
def rank : Tier → Nat
  | equality => 0
  | comparison => 1
  | sum => 2
  | product => 3
  | unary => 4
  | suffixed => 5
  | primary => 6

/-- The next tier below, the primary forms being the last. -/
def tighter : Tier → Tier
  | equality => comparison
  | comparison => sum
  | sum => product
  | product => unary
  | unary => suffixed
  | suffixed => primary
  | primary => primary

instance : LE Tier := ⟨fun loose tight => loose.rank ≤ tight.rank⟩

instance (loose tight : Tier) : Decidable (loose ≤ tight) :=
  inferInstanceAs (Decidable (loose.rank ≤ tight.rank))

end Tier

/-- The tier of a binary operator. -/
def BinaryOperator.tier : BinaryOperator → Tier
  | equal => .equality
  | notEqual => .equality
  | less => .comparison
  | greater => .comparison
  | add => .sum
  | subtract => .sum
  | multiply => .product
  | divide => .product

/-! ### Derivations -/

/-- What stands in brackets in the grammar: at most one terminal of the kind. -/
inductive AtMostOne (kind : Kind) : List Terminal → Prop
  | none : AtMostOne kind []
  | one {terminal : Terminal} : terminal.kind = kind → AtMostOne kind [terminal]

/-- A part of the grammar, together with the tree it stands for. -/
inductive Part
  | expression (tier : Tier) (tree : Expression)
  /-- `[expression {, expression}]`. -/
  | expressions (trees : List Expression)
  /-- `{, expression}`. -/
  | moreExpressions (trees : List Expression)
  /-- `[IDENT {, IDENT}]`. -/
  | names (names : List String)
  /-- `{, IDENT}`. -/
  | moreNames (names : List String)
  /-- `[expression : expression {, expression : expression} [,]]`. -/
  | pairs (trees : List (Expression × Expression))
  /-- `{, expression : expression}`. -/
  | morePairs (trees : List (Expression × Expression))
  | statement (tree : Statement)
  /-- `{statement}`. -/
  | statements (trees : List Statement)
  | block (trees : List Statement)

/-- A part of the grammar derives a segment of terminals, the given ones following it up to the
end of input. -/
inductive Derives : Part → List Terminal → List Terminal → Prop
  | tighter {tier : Tier} {tree : Expression} {segment after : List Terminal} :
      Derives (.expression tier.tighter tree) segment after →
      Derives (.expression tier tree) segment after
  | binary {operator : BinaryOperator} {left right : Expression} {sign : Terminal}
      {before behind after : List Terminal} :
      Derives (.expression operator.tier left) before (sign :: (behind ++ after)) →
      sign.kind = operator.kind →
      Derives (.expression operator.tier.tighter right) behind after →
      Derives (.expression operator.tier (.binary left operator right)) (before ++ sign :: behind)
        after
  | unary {operator : UnaryOperator} {tree : Expression} {sign : Terminal}
      {segment after : List Terminal} : sign.kind = operator.kind →
      Derives (.expression .unary tree) segment after →
      Derives (.expression .unary (.unary operator tree)) (sign :: segment) after
  | call {callee : Expression} {arguments : List Expression} {paren close : Terminal}
      {before inside after : List Terminal} :
      Derives (.expression .suffixed callee) before (paren :: (inside ++ close :: after)) →
      paren.kind = .openParen → Derives (.expressions arguments) inside (close :: after) →
      close.kind = .closeParen →
      Derives (.expression .suffixed (.call callee arguments))
        (before ++ paren :: (inside ++ [close])) after
  | index {collection position : Expression} {bracket close : Terminal}
      {before inside after : List Terminal} :
      Derives (.expression .suffixed collection) before (bracket :: (inside ++ close :: after)) →
      bracket.kind = .openBracket →
      Derives (.expression .equality position) inside (close :: after) →
      close.kind = .closeBracket →
      Derives (.expression .suffixed (.index collection position))
        (before ++ bracket :: (inside ++ [close])) after
  | identifier {name : Terminal} {after : List Terminal} : name.kind = .identifier →
      Derives (.expression .primary (.identifier name.text)) [name] after
  /-- The text of an integer stands for a number of at most `2^63 - 1`, the greatest one there
  is. -/
  | integer {digits : Terminal} {number : Nat} {after : List Terminal} :
      digits.kind = .integer → Decimal.natural? digits.text.toList = some number →
      (number : Int) ≤ Int64.maxValue.toInt →
      Derives (.expression .primary (.integer (Int64.ofNat number))) [digits] after
  | string {quoted : Terminal} {after : List Terminal} : quoted.kind = .string →
      Derives (.expression .primary (.string quoted.text)) [quoted] after
  | trueWord {word : Terminal} {after : List Terminal} : word.kind = .trueWord →
      Derives (.expression .primary (.boolean true)) [word] after
  | falseWord {word : Terminal} {after : List Terminal} : word.kind = .falseWord →
      Derives (.expression .primary (.boolean false)) [word] after
  | grouped {tree : Expression} {paren close : Terminal} {inside after : List Terminal} :
      paren.kind = .openParen → Derives (.expression .equality tree) inside (close :: after) →
      close.kind = .closeParen →
      Derives (.expression .primary tree) (paren :: (inside ++ [close])) after
  | conditional {condition : Expression} {consequence : List Statement}
      {word paren close : Terminal} {inside block after : List Terminal} :
      word.kind = .ifWord → paren.kind = .openParen →
      Derives (.expression .equality condition) inside (close :: (block ++ after)) →
      close.kind = .closeParen → Derives (.block consequence) block after →
      Derives (.expression .primary (.conditional condition consequence none))
        (word :: paren :: (inside ++ close :: block)) after
  | alternative {condition : Expression} {consequence alternative : List Statement}
      {word paren close otherwise : Terminal} {inside block other after : List Terminal} :
      word.kind = .ifWord → paren.kind = .openParen →
      Derives (.expression .equality condition) inside
        (close :: (block ++ otherwise :: (other ++ after))) →
      close.kind = .closeParen →
      Derives (.block consequence) block (otherwise :: (other ++ after)) →
      otherwise.kind = .elseWord → Derives (.block alternative) other after →
      Derives (.expression .primary (.conditional condition consequence (some alternative)))
        (word :: paren :: (inside ++ close :: (block ++ otherwise :: other))) after
  | function {parameters : List String} {body : List Statement} {word paren close : Terminal}
      {inside block after : List Terminal} :
      word.kind = .functionWord → paren.kind = .openParen →
      Derives (.names parameters) inside (close :: (block ++ after)) → close.kind = .closeParen →
      Derives (.block body) block after →
      Derives (.expression .primary (.function parameters body))
        (word :: paren :: (inside ++ close :: block)) after
  | array {elements : List Expression} {bracket close : Terminal} {inside after : List Terminal} :
      bracket.kind = .openBracket → Derives (.expressions elements) inside (close :: after) →
      close.kind = .closeBracket →
      Derives (.expression .primary (.array elements)) (bracket :: (inside ++ [close])) after
  | hash {entries : List (Expression × Expression)} {brace close : Terminal}
      {inside after : List Terminal} :
      brace.kind = .openBrace → Derives (.pairs entries) inside (close :: after) →
      close.kind = .closeBrace →
      Derives (.expression .primary (.hash entries)) (brace :: (inside ++ [close])) after
  | noExpressions {after : List Terminal} : Derives (.expressions []) [] after
  | expressions {tree : Expression} {trees : List Expression} {first more after : List Terminal} :
      Derives (.expression .equality tree) first (more ++ after) →
      Derives (.moreExpressions trees) more after →
      Derives (.expressions (tree :: trees)) (first ++ more) after
  | lastExpression {after : List Terminal} : Derives (.moreExpressions []) [] after
  | nextExpression {tree : Expression} {trees : List Expression} {comma : Terminal}
      {first more after : List Terminal} : comma.kind = .comma →
      Derives (.expression .equality tree) first (more ++ after) →
      Derives (.moreExpressions trees) more after →
      Derives (.moreExpressions (tree :: trees)) (comma :: (first ++ more)) after
  | noNames {after : List Terminal} : Derives (.names []) [] after
  | names {name : Terminal} {names : List String} {more after : List Terminal} :
      name.kind = .identifier → Derives (.moreNames names) more after →
      Derives (.names (name.text :: names)) (name :: more) after
  | lastName {after : List Terminal} : Derives (.moreNames []) [] after
  | nextName {comma name : Terminal} {names : List String} {more after : List Terminal} :
      comma.kind = .comma → name.kind = .identifier → Derives (.moreNames names) more after →
      Derives (.moreNames (name.text :: names)) (comma :: name :: more) after
  | noPairs {after : List Terminal} : Derives (.pairs []) [] after
  | pairs {key value : Expression} {trees : List (Expression × Expression)} {colon : Terminal}
      {first second more trailing after : List Terminal} :
      Derives (.expression .equality key) first
        (colon :: (second ++ (more ++ (trailing ++ after)))) →
      colon.kind = .colon →
      Derives (.expression .equality value) second (more ++ (trailing ++ after)) →
      Derives (.morePairs trees) more (trailing ++ after) → AtMostOne .comma trailing →
      Derives (.pairs ((key, value) :: trees))
        (first ++ colon :: (second ++ (more ++ trailing))) after
  | lastPair {after : List Terminal} : Derives (.morePairs []) [] after
  | nextPair {key value : Expression} {trees : List (Expression × Expression)}
      {comma colon : Terminal} {first second more after : List Terminal} : comma.kind = .comma →
      Derives (.expression .equality key) first (colon :: (second ++ (more ++ after))) →
      colon.kind = .colon → Derives (.expression .equality value) second (more ++ after) →
      Derives (.morePairs trees) more after →
      Derives (.morePairs ((key, value) :: trees))
        (comma :: (first ++ colon :: (second ++ more))) after
  | binding {value : Expression} {word name assign : Terminal}
      {segment semicolon after : List Terminal} :
      word.kind = .letWord → name.kind = .identifier → assign.kind = .assign →
      Derives (.expression .equality value) segment (semicolon ++ after) →
      AtMostOne .semicolon semicolon →
      Derives (.statement (.binding name.text value))
        (word :: name :: assign :: (segment ++ semicolon)) after
  | returning {value : Expression} {word : Terminal} {segment semicolon after : List Terminal} :
      word.kind = .returnWord →
      Derives (.expression .equality value) segment (semicolon ++ after) →
      AtMostOne .semicolon semicolon →
      Derives (.statement (.returning value)) (word :: (segment ++ semicolon)) after
  | evaluated {value : Expression} {segment semicolon after : List Terminal} :
      Derives (.expression .equality value) segment (semicolon ++ after) →
      AtMostOne .semicolon semicolon →
      Derives (.statement (.expression value)) (segment ++ semicolon) after
  | noStatements {after : List Terminal} : Derives (.statements []) [] after
  | statements {tree : Statement} {trees : List Statement} {first more after : List Terminal} :
      Derives (.statement tree) first (more ++ after) → Derives (.statements trees) more after →
      Derives (.statements (tree :: trees)) (first ++ more) after
  | block {trees : List Statement} {brace close : Terminal} {inside after : List Terminal} :
      brace.kind = .openBrace → Derives (.statements trees) inside (close :: after) →
      close.kind = .closeBrace → Derives (.block trees) (brace :: (inside ++ [close])) after
  /-- The end of input closes a block too. -/
  | unclosed {trees : List Statement} {brace : Terminal} {inside : List Terminal} :
      brace.kind = .openBrace → Derives (.statements trees) inside [] →
      Derives (.block trees) (brace :: inside) []

end MonkeyLang
