/-
This file proves that counting braces in the text and reading the program agree
on what is unfinished: in a source that reads cleanly, and whose strings hold no
braces, there are as many more opening than closing braces as there are blocks
that the end of input has to close.

Only what stands last can be left open. In front of a terminal every block has
its own closing brace, so such a part is balanced, and it may just as well stand
in front of anything else. What is left open at the end is therefore a chain of
blocks, each the last thing in the one around it, and each of them has an
opening brace too many.
-/

import MonkeyLang.Dialogue
import MonkeyLang.Proofs.Grammar.Acceptance
import MonkeyLang.Proofs.Sessions
import MonkeyLang.Proofs.Tokenisation

namespace MonkeyLang

open Text

/-! ### Parts in front of a terminal -/

/-- What is derived in front of a terminal is derived in front of anything: nothing in it needs the
end of input. -/
theorem Derives.elsewhere {part : Part} {segment after : List Terminal}
    (derives : Derives part segment after) (more : after ≠ []) (after' : List Terminal) :
    Derives part segment after' := by
  have some {terminal : Terminal} {terminals : List Terminal} : terminal :: terminals ≠ [] :=
    List.cons_ne_nil _ _
  have behind {after : List Terminal} (more : after ≠ []) (front : List Terminal) :
      front ++ after ≠ [] := List.append_ne_nil_of_right_ne_nil front more
  induction derives generalizing after' with
  | tighter _ inner => exact .tighter (inner more _)
  | binary _ isSign _ left right => exact .binary (left some _) isSign (right more _)
  | unary isSign _ operand => exact .unary isSign (operand more _)
  | call _ isParen _ isClose callee arguments =>
    exact .call (callee some _) isParen (arguments some _) isClose
  | index _ isBracket _ isClose collection position =>
    exact .index (collection some _) isBracket (position some _) isClose
  | identifier isName => exact .identifier isName
  | integer isInteger digits small => exact .integer isInteger digits small
  | string isString => exact .string isString
  | trueWord isTrue => exact .trueWord isTrue
  | falseWord isFalse => exact .falseWord isFalse
  | grouped isParen _ isClose inner => exact .grouped isParen (inner some _) isClose
  | conditional isWord isParen _ isClose _ condition block =>
    exact .conditional isWord isParen (condition some _) isClose (block more _)
  | alternative isWord isParen _ isClose _ isElse _ condition block otherwise =>
    exact .alternative isWord isParen (condition some _) isClose (block some _) isElse
      (otherwise more _)
  | function isWord isParen _ isClose _ names block =>
    exact .function isWord isParen (names some _) isClose (block more _)
  | array isBracket _ isClose elements => exact .array isBracket (elements some _) isClose
  | hash isBrace _ isClose entries => exact .hash isBrace (entries some _) isClose
  | noExpressions => exact .noExpressions
  | expressions _ _ first others => exact .expressions (first (behind more _) _) (others more _)
  | lastExpression => exact .lastExpression
  | nextExpression isComma _ _ first others =>
    exact .nextExpression isComma (first (behind more _) _) (others more _)
  | noNames => exact .noNames
  | names isName _ others => exact .names isName (others more _)
  | lastName => exact .lastName
  | nextName isComma isName _ others => exact .nextName isComma isName (others more _)
  | noPairs => exact .noPairs
  | pairs _ isColon _ _ optional key value others =>
    exact .pairs (key some _) isColon (value (behind (behind more _) _) _)
      (others (behind more _) _) optional
  | lastPair => exact .lastPair
  | nextPair isComma _ isColon _ _ key value others =>
    exact .nextPair isComma (key some _) isColon (value (behind more _) _) (others more _)
  | binding isLet isName isAssign _ optional value =>
    exact .binding isLet isName isAssign (value (behind more _) _) optional
  | returning isReturn _ optional value =>
    exact .returning isReturn (value (behind more _) _) optional
  | evaluated _ optional value => exact .evaluated (value (behind more _) _) optional
  | noStatements => exact .noStatements
  | statements _ _ first others => exact .statements (first (behind more _) _) (others more _)
  | block isBrace _ isClose inside => exact .block isBrace (inside some _) isClose
  | unclosed => exact absurd rfl more

theorem AtMostOne.weight_eq {kind : Kind} {segment : List Terminal}
    (optional : AtMostOne kind segment) (light : kind.weight = 0) : weight segment = 0 := by
  cases optional with
  | none => rfl
  | one isKind => rw [weight_cons, isKind, light, weight, Int.add_zero]

/-- What is derived in front of a terminal opens as many braces as it closes. -/
theorem Derives.weight_eq {part : Part} {segment after : List Terminal}
    (derives : Derives part segment after) (more : after ≠ []) : weight segment = 0 := by
  induction derives with
  | unclosed => exact absurd rfl more
  | unary isSign _ operand =>
    rw [weight_cons, isSign, UnaryOperator.weight_kind, operand more, Int.add_zero]
  | binary _ isSign _ left right =>
    rw [weight_append, weight_cons, isSign, BinaryOperator.weight_kind,
      left (List.cons_ne_nil _ _), right more]
    rfl
  | pairs _ isColon _ _ optional key value others =>
    have light := optional.weight_eq rfl
    simp_all [weight_append, Kind.weight]
  | binding isLet isName isAssign _ optional | returning isReturn _ optional
  | evaluated _ optional =>
    have light := optional.weight_eq rfl
    simp_all [weight_append, Kind.weight]
  | _ => simp_all [weight_append, weight, Kind.weight]

/-! ### Parts at the end of the input -/

/-- A part is spelled by a segment up to the end of input, which has to close so many of its
blocks. -/
inductive LeavesOpen : Part → List Terminal → Nat → Prop
  /-- In front of a terminal every block has a closing brace of its own. -/
  | closed {part : Part} {segment after : List Terminal} {terminal : Terminal} :
      Derives part segment (terminal :: after) → LeavesOpen part segment 0
  | tighter {tier : Tier} {tree : Expression} {segment : List Terminal} {count : Nat} :
      LeavesOpen (.expression tier.tighter tree) segment count →
      LeavesOpen (.expression tier tree) segment count
  | binary {operator : BinaryOperator} {left right : Expression} {sign : Terminal}
      {before behind : List Terminal} {count : Nat} :
      Derives (.expression operator.tier left) before (sign :: behind) →
      sign.kind = operator.kind →
      LeavesOpen (.expression operator.tier.tighter right) behind count →
      LeavesOpen (.expression operator.tier (.binary left operator right))
        (before ++ sign :: behind) count
  | unary {operator : UnaryOperator} {tree : Expression} {sign : Terminal}
      {segment : List Terminal} {count : Nat} : sign.kind = operator.kind →
      LeavesOpen (.expression .unary tree) segment count →
      LeavesOpen (.expression .unary (.unary operator tree)) (sign :: segment) count
  | conditional {condition : Expression} {consequence : List Statement}
      {word paren close : Terminal} {inside block : List Terminal} {count : Nat} :
      word.kind = .ifWord → paren.kind = .openParen →
      Derives (.expression .equality condition) inside (close :: block) →
      close.kind = .closeParen → LeavesOpen (.block consequence) block count →
      LeavesOpen (.expression .primary (.conditional condition consequence none))
        (word :: paren :: (inside ++ close :: block)) count
  | alternative {condition : Expression} {consequence alternative : List Statement}
      {word paren close otherwise : Terminal} {inside block other : List Terminal} {count : Nat} :
      word.kind = .ifWord → paren.kind = .openParen →
      Derives (.expression .equality condition) inside
        (close :: (block ++ otherwise :: other)) →
      close.kind = .closeParen → Derives (.block consequence) block (otherwise :: other) →
      otherwise.kind = .elseWord → LeavesOpen (.block alternative) other count →
      LeavesOpen (.expression .primary (.conditional condition consequence (some alternative)))
        (word :: paren :: (inside ++ close :: (block ++ otherwise :: other))) count
  | function {parameters : List String} {body : List Statement} {word paren close : Terminal}
      {inside block : List Terminal} {count : Nat} :
      word.kind = .functionWord → paren.kind = .openParen →
      Derives (.names parameters) inside (close :: block) → close.kind = .closeParen →
      LeavesOpen (.block body) block count →
      LeavesOpen (.expression .primary (.function parameters body))
        (word :: paren :: (inside ++ close :: block)) count
  | binding {value : Expression} {word name assign : Terminal} {segment : List Terminal}
      {count : Nat} : word.kind = .letWord → name.kind = .identifier → assign.kind = .assign →
      LeavesOpen (.expression .equality value) segment count →
      LeavesOpen (.statement (.binding name.text value)) (word :: name :: assign :: segment) count
  | returning {value : Expression} {word : Terminal} {segment : List Terminal} {count : Nat} :
      word.kind = .returnWord → LeavesOpen (.expression .equality value) segment count →
      LeavesOpen (.statement (.returning value)) (word :: segment) count
  | evaluated {value : Expression} {segment : List Terminal} {count : Nat} :
      LeavesOpen (.expression .equality value) segment count →
      LeavesOpen (.statement (.expression value)) segment count
  | lastStatement {tree : Statement} {segment : List Terminal} {count : Nat} :
      LeavesOpen (.statement tree) segment count → LeavesOpen (.statements [tree]) segment count
  | statements {tree : Statement} {trees : List Statement} {terminal : Terminal}
      {first more : List Terminal} {count : Nat} :
      Derives (.statement tree) first (terminal :: more) →
      LeavesOpen (.statements trees) (terminal :: more) count →
      LeavesOpen (.statements (tree :: trees)) (first ++ terminal :: more) count
  /-- Here the end of input closes one more. -/
  | unclosed {trees : List Statement} {brace : Terminal} {inside : List Terminal} {count : Nat} :
      brace.kind = .openBrace → LeavesOpen (.statements trees) inside count →
      LeavesOpen (.block trees) (brace :: inside) (count + 1)

namespace LeavesOpen

variable {part : Part} {segment : List Terminal} {count : Nat}

/-- Each block that is left open has a brace too many. -/
theorem weight_eq (leavesOpen : LeavesOpen part segment count) : weight segment = count := by
  have some {terminal : Terminal} {terminals : List Terminal} : terminal :: terminals ≠ [] :=
    List.cons_ne_nil _ _
  induction leavesOpen with
  | closed derives => exact derives.weight_eq some
  | tighter _ inner => exact inner
  | binary left isSign _ right =>
    rw [weight_append, weight_cons, left.weight_eq some, isSign, BinaryOperator.weight_kind, right]
    omega
  | unary isSign _ operand =>
    rw [weight_cons, isSign, UnaryOperator.weight_kind, operand, Int.zero_add]
  | conditional isWord isParen condition isClose _ block =>
    simp [weight_append, condition.weight_eq some, isWord, isParen, isClose, block, Kind.weight]
  | alternative isWord isParen condition isClose block isElse _ otherwise =>
    simp [weight_append, condition.weight_eq some, block.weight_eq some, isWord, isParen, isClose,
      isElse, otherwise, Kind.weight]
  | function isWord isParen names isClose _ block =>
    simp [weight_append, names.weight_eq some, isWord, isParen, isClose, block, Kind.weight]
  | binding isLet isName isAssign _ value =>
    simp [isLet, isName, isAssign, value, Kind.weight]
  | returning isReturn _ value => simp [isReturn, value, Kind.weight]
  | evaluated _ value => exact value
  | lastStatement _ statement => exact statement
  | statements first _ others =>
    rw [weight_append, first.weight_eq some, others, Int.zero_add]
  | unclosed isBrace _ inside =>
    rw [weight_cons, isBrace, inside, Kind.weight]
    omega

/-- The end of input has nothing to close exactly in parts that may as well stand in front of
anything. -/
theorem derives (leavesOpen : LeavesOpen part segment 0) (after : List Terminal) :
    Derives part segment after := by
  have some {terminal : Terminal} {terminals : List Terminal} : terminal :: terminals ≠ [] :=
    List.cons_ne_nil _ _
  generalize none : 0 = count at leavesOpen
  induction leavesOpen generalizing after with
  | closed derives => exact derives.elsewhere some after
  | tighter _ inner => exact .tighter (inner after none)
  | binary left isSign _ right =>
    exact .binary (left.elsewhere some _) isSign (right after none)
  | unary isSign _ operand => exact .unary isSign (operand after none)
  | conditional isWord isParen condition isClose _ block =>
    exact .conditional isWord isParen (condition.elsewhere some _) isClose (block after none)
  | alternative isWord isParen condition isClose block isElse _ otherwise =>
    exact .alternative isWord isParen (condition.elsewhere some _) isClose
      (block.elsewhere some _) isElse (otherwise after none)
  | function isWord isParen names isClose _ block =>
    exact .function isWord isParen (names.elsewhere some _) isClose (block after none)
  | binding isLet isName isAssign _ value =>
    simpa using Derives.binding isLet isName isAssign (value ([] ++ after) none) .none
  | returning isReturn _ value =>
    simpa using Derives.returning isReturn (value ([] ++ after) none) .none
  | evaluated _ value => simpa using Derives.evaluated (value ([] ++ after) none) .none
  | lastStatement _ statement =>
    simpa using Derives.statements (statement ([] ++ after) none) .noStatements
  | statements first _ others =>
    exact .statements (first.elsewhere some _) (others after none)
  | unclosed => exact absurd none.symm (Nat.succ_ne_zero _)

end LeavesOpen

/-- An expression is never spelled by nothing, and neither is a statement. -/
theorem Derives.ne_nil {part : Part} {segment after : List Terminal}
    (derives : Derives part segment after) :
    (∀ tier tree, part = .expression tier tree → segment ≠ []) ∧
      ∀ tree, part = .statement tree → segment ≠ [] := by
  induction derives with
  | tighter _ inner =>
    exact ⟨fun tier tree _ => inner.1 _ _ rfl, fun _ same => absurd same nofun⟩
  | evaluated _ _ value =>
    refine ⟨fun _ _ same => absurd same nofun, fun _ _ => ?_⟩
    exact List.append_ne_nil_of_left_ne_nil (value.1 _ _ rfl) _
  | _ => simp

theorem Derives.statements_eq_nil {trees : List Statement} {after : List Terminal}
    (derives : Derives (.statements trees) [] after) : trees = [] := by
  generalize isPart : Part.statements trees = part at derives
  generalize isSegment : [] = segment at derives
  cases derives with
  | noStatements => exact Part.statements.inj isPart
  | statements first _ =>
    exact absurd (List.append_eq_nil_iff.mp isSegment.symm).1 (first.ne_nil.2 _ rfl)
  | _ => exact absurd isPart nofun

/-- The parts that can stand at the end of the input. -/
def Part.CanEnd : Part → Prop
  | .expression _ _ => True
  | .statement _ => True
  | .statements _ => True
  | .block _ => True
  | _ => False

/-- A part that is derived at the end of the input leaves some number of blocks open there. -/
theorem Derives.exists_leavesOpen {part : Part} {segment : List Terminal}
    (derives : Derives part segment []) (canEnd : part.CanEnd) :
    ∃ count, LeavesOpen part segment count := by
  have some {terminal : Terminal} {terminals : List Terminal} : terminal :: terminals ≠ [] :=
    List.cons_ne_nil _ _
  have anywhere {part : Part} {segment : List Terminal}
      (derives : ∀ after, Derives part segment after) : ∃ count, LeavesOpen part segment count :=
    ⟨0, .closed (derives [default])⟩
  generalize isEnd : [] = after at derives
  induction derives with
  | tighter _ inner =>
    obtain ⟨count, leavesOpen⟩ := inner trivial isEnd
    exact ⟨count, .tighter leavesOpen⟩
  | binary left isSign _ _ right =>
    obtain ⟨count, leavesOpen⟩ := right trivial isEnd
    subst isEnd
    rw [List.append_nil] at left
    exact ⟨count, .binary left isSign leavesOpen⟩
  | unary isSign _ operand =>
    obtain ⟨count, leavesOpen⟩ := operand trivial isEnd
    exact ⟨count, .unary isSign leavesOpen⟩
  | call callee isParen arguments isClose =>
    exact anywhere fun _ =>
      .call (callee.elsewhere some _) isParen (arguments.elsewhere some _) isClose
  | index collection isBracket position isClose =>
    exact anywhere fun _ =>
      .index (collection.elsewhere some _) isBracket (position.elsewhere some _) isClose
  | identifier isName => exact anywhere fun _ => .identifier isName
  | integer isInteger digits small => exact anywhere fun _ => .integer isInteger digits small
  | string isString => exact anywhere fun _ => .string isString
  | trueWord isTrue => exact anywhere fun _ => .trueWord isTrue
  | falseWord isFalse => exact anywhere fun _ => .falseWord isFalse
  | grouped isParen inner isClose =>
    exact anywhere fun _ => .grouped isParen (inner.elsewhere some _) isClose
  | conditional isWord isParen condition isClose _ _ block =>
    obtain ⟨count, leavesOpen⟩ := block trivial isEnd
    subst isEnd
    rw [List.append_nil] at condition
    exact ⟨count, .conditional isWord isParen condition isClose leavesOpen⟩
  | alternative isWord isParen condition isClose block isElse _ _ _ otherwise =>
    obtain ⟨count, leavesOpen⟩ := otherwise trivial isEnd
    subst isEnd
    rw [List.append_nil] at condition block
    exact ⟨count, .alternative isWord isParen condition isClose block isElse leavesOpen⟩
  | function isWord isParen names isClose _ _ block =>
    obtain ⟨count, leavesOpen⟩ := block trivial isEnd
    subst isEnd
    rw [List.append_nil] at names
    exact ⟨count, .function isWord isParen names isClose leavesOpen⟩
  | array isBracket elements isClose =>
    exact anywhere fun _ => .array isBracket (elements.elsewhere some _) isClose
  | hash isBrace entries isClose =>
    exact anywhere fun _ => .hash isBrace (entries.elsewhere some _) isClose
  | binding isLet isName isAssign derives optional value =>
    cases optional with
    | none =>
      obtain ⟨count, leavesOpen⟩ := value trivial isEnd
      rw [List.append_nil]
      exact ⟨count, .binding isLet isName isAssign leavesOpen⟩
    | one isSemicolon =>
      exact anywhere fun _ =>
        .binding isLet isName isAssign (derives.elsewhere some _) (.one isSemicolon)
  | returning isReturn derives optional value =>
    cases optional with
    | none =>
      obtain ⟨count, leavesOpen⟩ := value trivial isEnd
      rw [List.append_nil]
      exact ⟨count, .returning isReturn leavesOpen⟩
    | one isSemicolon =>
      exact anywhere fun _ => .returning isReturn (derives.elsewhere some _) (.one isSemicolon)
  | evaluated derives optional value =>
    cases optional with
    | none =>
      obtain ⟨count, leavesOpen⟩ := value trivial isEnd
      rw [List.append_nil]
      exact ⟨count, .evaluated leavesOpen⟩
    | one isSemicolon =>
      exact anywhere fun _ => .evaluated (derives.elsewhere some _) (.one isSemicolon)
  | noStatements => exact anywhere fun _ => .noStatements
  | @statements tree trees first more after derives derivesMore statement others =>
    subst isEnd
    rw [List.append_nil] at derives statement
    cases more with
    | nil =>
      obtain rfl := derivesMore.statements_eq_nil
      obtain ⟨count, leavesOpen⟩ := statement trivial rfl
      rw [List.append_nil]
      exact ⟨count, .lastStatement leavesOpen⟩
    | cons terminal more =>
      obtain ⟨count, leavesOpen⟩ := others trivial rfl
      exact ⟨count, .statements derives leavesOpen⟩
  | block isBrace inside isClose =>
    exact anywhere fun _ => .block isBrace (inside.elsewhere some _) isClose
  | unclosed isBrace _ inside =>
    obtain ⟨count, leavesOpen⟩ := inside trivial rfl
    exact ⟨count + 1, .unclosed isBrace leavesOpen⟩
  | _ => exact canEnd.elim

/-! ### Braces in the text -/

/-- The two braces with their kinds. -/
inductive IsBrace : Char → Kind → Prop
  | opening : IsBrace '{' .openBrace
  | closing : IsBrace '}' .closeBrace

/-- No string among the tokens holds a brace. -/
def NoBraceInStrings (tokens : List Token) : Prop :=
  ∀ token ∈ tokens, token.kind = .string → '{' ∉ token.text.toList ∧ '}' ∉ token.text.toList

instance (tokens : List Token) : Decidable (NoBraceInStrings tokens) :=
  inferInstanceAs (Decidable (∀ token ∈ tokens, _ → _))

section Braces

variable {brace : Char} {braceKind : Kind} (isBrace : IsBrace brace braceKind)

include isBrace

theorem IsBrace.notMem {characters : List Char} (none : '{' ∉ characters ∧ '}' ∉ characters) :
    brace ∉ characters := by
  cases isBrace with
  | opening => exact none.1
  | closing => exact none.2

theorem IsBrace.kindOfSingle_eq_iff {c : Char} :
    Lexeme.kindOfSingle c = braceKind ↔ c = brace := by
  constructor
  · intro same
    rcases Lexeme.kindOfSingle_cases c with ⟨-, name⟩ | ⟨isIllegal, -⟩
    · rw [same] at name
      cases isBrace <;> exact (List.cons.inj name).1.symm
    · rw [isIllegal] at same
      cases isBrace <;> exact absurd same nofun
  · rintro rfl
    cases isBrace <;> rfl

/-- A piece of a text holds a brace only if it is that brace, or a string. -/
theorem Lexeme.Cut.count_brace {kind : Kind} {raw rest : List Char} (cut : Cut kind raw rest)
    {line : Nat} (noBrace : kind = .string → brace ∉ (token ⟨kind, raw, line⟩).text.toList) :
    raw.count brace = [kind].count braceKind := by
  have outside {kind : Kind} (other : kind ≠ braceKind) (none : brace ∉ raw) :
      raw.count brace = [kind].count braceKind := by
    rw [List.count_eq_zero.mpr none, List.count_singleton, if_neg (by simpa using other)]
  have noQuote : brace ≠ '"' := by cases isBrace <;> decide
  cases cut with
  | word _ letters _ =>
    refine outside (Kind.ofWord_ne (by cases isBrace <;> decide)) fun member => ?_
    have isLetter := letters brace member
    cases isBrace <;> exact absurd isLetter (by decide)
  | integer _ digits _ =>
    refine outside (by cases isBrace <;> decide) fun member => ?_
    have isDigit := digits brace member
    cases isBrace <;> exact absurd isDigit (by decide)
  | closedString noQuoteInside =>
    have noBrace := noBrace rfl
    rw [token_string noQuoteInside _ (.inr rfl), String.toList_ofList] at noBrace
    exact outside (by cases isBrace <;> decide) (by simp [noQuote, noBrace])
  | openString noQuoteInside =>
    have noBrace := noBrace rfl
    have same := token_string noQuoteInside [] (.inl rfl) line
    rw [List.append_nil] at same
    rw [same, String.toList_ofList] at noBrace
    exact outside (by cases isBrace <;> decide) (by simp [noQuote, noBrace])
  | equal | notEqual => cases isBrace <;> decide
  | @single c =>
    simp only [List.count_singleton, beq_iff_eq, isBrace.kindOfSingle_eq_iff]

/-- A text without braces in its strings has a brace for each token of the kind. -/
theorem Cuts.count_brace {line : Nat} {source : List Char} {lexemes : List Lexeme}
    (cuts : Cuts line source lexemes) (noBrace : NoBraceInStrings (lexemes.map Lexeme.token)) :
    source.count brace = (lexemes.map Lexeme.kind).count braceKind := by
  induction cuts with
  | ends => cases isBrace <;> rfl
  | lineFeed _ inductionHypothesis =>
    rw [List.count_cons_of_ne (by cases isBrace <;> decide), inductionHypothesis noBrace]
  | blank isBlank _ inductionHypothesis =>
    rw [List.count_cons_of_ne, inductionHypothesis noBrace]
    rintro rfl
    cases isBrace <;> exact absurd isBlank (by decide)
  | piece _ _ cut _ inductionHypothesis =>
    obtain ⟨noBraceHere, noBrace⟩ := List.forall_mem_cons.mp noBrace
    have here := (Lexeme.front_eq_iff.mp cut).count_brace isBrace
      fun isString => isBrace.notMem (noBraceHere isString)
    rw [← List.cons_append, List.count_append, inductionHypothesis noBrace, here,
      ← List.count_append]
    rfl

end Braces

/-- The text of a source and its tokens hold the same braces. -/
theorem openBraces_eq_weight {source : String} {tokens : List Token} {last : Token}
    (isSource : Token.ofSource source = tokens ++ [last]) (isLast : last.kind = .endOfInput)
    (more : ∀ token ∈ tokens, token.kind ≠ .endOfInput)
    (noBrace : NoBraceInStrings (Token.ofSource source)) :
    openBraces source = weight (tokens.map Token.terminal) := by
  have cuts : Cuts 1 source.toList (Lexeme.ofSource source) := Lexeme.ofSource_eq_iff.mp rfl
  have kinds : (Lexeme.ofSource source).map Lexeme.kind =
      (tokens.map Token.terminal).map Terminal.kind ++ [.endOfInput] := by
    have same := congrArg (List.map Token.kind) isSource
    rw [Token.ofSource, List.map_map, List.map_append, List.map_singleton, isLast] at same
    rw [List.map_map]
    exact same
  rw [openBraces, cuts.count_brace .opening noBrace, cuts.count_brace .closing noBrace, kinds,
    weight_eq_count (List.forall_mem_map.mpr more)]
  simp

/-! ### Sources -/

/-- When nothing is wrong with a source, all its tokens up to the end of input derive its
statements. -/
theorem derives_of_clean {source : String} (clean : (Parsed.ofSource source).diagnostics = [])
    {tokens : List Token} {last : Token} (isSource : Token.ofSource source = tokens ++ [last])
    (isLast : last.kind = .endOfInput)
    (all : ∀ token ∈ tokens, token.kind ≠ .endOfInput ∧
      (token.kind = .integer → ∃ number, Decimal.natural? token.text.toList = some number)) :
    Derives (.statements (statementsOf source)) (tokens.map Token.terminal) [] := by
  obtain ⟨rest, reads⟩ := exists_reads_of_clean clean
  rw [isSource] at reads
  obtain ⟨segment, after, same, -, derives, stop⟩ := reads.derived (.of_tokens isLast all)
  cases after with
  | nil => rwa [same, List.append_nil]
  | cons terminal after =>
    have member : terminal ∈ tokens.map Token.terminal := by
      rw [same]
      exact List.mem_append_right _ List.mem_cons_self
    obtain ⟨token, isToken, rfl⟩ := List.mem_map.mp member
    exact absurd (eq_of_beq stop) (all token isToken).1

/-- A dialogue that waits for nothing has been told no more opening than closing braces. -/
theorem Dialogue.openBraces_le_of_hear (dialogue : Dialogue) {limit : Nat} {line : String}
    (answered : (dialogue.hear limit line).1.pending = "") :
    openBraces (dialogue.pending ++ line) ≤ 0 := by
  refine Int.not_lt.mp fun waits => ?_
  rw [hear, if_pos waits] at answered
  have nothing : dialogue.pending ++ line = "" := answered
  rw [nothing] at waits
  exact absurd waits (by decide)

/-- In a source that reads cleanly and has no brace in a string, the surplus of opening braces is
the number of blocks that the end of input closes. So it is zero exactly if the program may as well
stand in front of a terminal, each block with a closing brace of its own, and this is so of every
text that a dialogue does not wait to be continued. -/
theorem openBraces_count_open_blocks (source : String)
    (clean : (Parsed.ofSource source).diagnostics = [])
    (noBrace : NoBraceInStrings (Token.ofSource source)) :
    ∃ tokens last count, Token.ofSource source = tokens ++ [last] ∧ last.kind = .endOfInput ∧
      LeavesOpen (.statements (statementsOf source)) (tokens.map Token.terminal) count ∧
      (∀ other, LeavesOpen (.statements (statementsOf source)) (tokens.map Token.terminal) other →
        other = count) ∧
      openBraces source = count ∧
      (openBraces source = 0 ↔
        Derives (.statements (statementsOf source)) (tokens.map Token.terminal)
          [last.terminal]) ∧
      ∀ limit (dialogue : Dialogue) line, dialogue.pending ++ line = source →
        (dialogue.hear limit line).1.pending = "" →
        Derives (.statements (statementsOf source)) (tokens.map Token.terminal)
          [last.terminal] := by
  obtain ⟨tokens, last, isSource, isLast, all⟩ := Token.ofSource_eq source
  have more token member := (all token member).1
  obtain ⟨count, leavesOpen⟩ :=
    (derives_of_clean clean isSource isLast all).exists_leavesOpen trivial
  have isSurplus : openBraces source = count := by
    rw [openBraces_eq_weight isSource isLast more noBrace, leavesOpen.weight_eq]
  have unique {other : Nat} (leavesOpen' : LeavesOpen (.statements (statementsOf source))
      (tokens.map Token.terminal) other) : other = count :=
    Int.ofNat_inj.mp (leavesOpen'.weight_eq.symm.trans leavesOpen.weight_eq)
  have closed (none : openBraces source ≤ 0) :
      Derives (.statements (statementsOf source)) (tokens.map Token.terminal) [last.terminal] := by
    obtain rfl : count = 0 := by omega
    exact leavesOpen.derives _
  refine ⟨tokens, last, count, isSource, isLast, leavesOpen, fun _ => unique, isSurplus,
    ⟨fun none => closed (Int.le_of_eq none), fun derives => ?_⟩, ?_⟩
  · rw [isSurplus, ← unique (.closed derives)]
    rfl
  · rintro limit dialogue line rfl answered
    exact closed (dialogue.openBraces_le_of_hear answered)

/-- The hash is closed, and two blocks are left open. -/
theorem openBraces_count_open_blocks_nested :
    (Parsed.ofSource "let h = \x7b\"k\": 1\x7d; if (h) \x7b fn(x) \x7b h[x]").diagnostics = [] ∧
      NoBraceInStrings
        (Token.ofSource "let h = \x7b\"k\": 1\x7d; if (h) \x7b fn(x) \x7b h[x]") ∧
      ∃ tokens last,
        Token.ofSource "let h = \x7b\"k\": 1\x7d; if (h) \x7b fn(x) \x7b h[x]" =
          tokens ++ [last] ∧
        LeavesOpen (.statements
          (statementsOf "let h = \x7b\"k\": 1\x7d; if (h) \x7b fn(x) \x7b h[x]"))
          (tokens.map Token.terminal) 2 := by
  have clean : (Parsed.ofSource
      "let h = \x7b\"k\": 1\x7d; if (h) \x7b fn(x) \x7b h[x]").diagnostics = [] := by
    decide +kernel
  have noBrace : NoBraceInStrings
      (Token.ofSource "let h = \x7b\"k\": 1\x7d; if (h) \x7b fn(x) \x7b h[x]") := by
    decide +kernel
  obtain ⟨tokens, last, count, isSource, -, leavesOpen, -, isSurplus, -⟩ :=
    openBraces_count_open_blocks _ clean noBrace
  have two : openBraces "let h = \x7b\"k\": 1\x7d; if (h) \x7b fn(x) \x7b h[x]" = 2 := by
    decide +kernel
  obtain rfl : count = 2 := by omega
  exact ⟨clean, noBrace, tokens, last, isSource, leavesOpen⟩

end MonkeyLang
