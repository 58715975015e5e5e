/-
This file joins the words of a program by blanks and proves that the parser
reads every program back from the source that results, as long as there is a way
to write its names, its integers and its strings at all.
-/

import MonkeyLang.Proofs.Grammar.Words
import MonkeyLang.Proofs.Scanning

namespace MonkeyLang

open MonkeyLang.Parser Text

/-! ### Words that stand alone -/

/-- A name: a nonempty run of letters that is no keyword. -/
structure IsName (name : String) : Prop where
  nonempty : name.toList ≠ []
  letters : ∀ c ∈ name.toList, isLetter c = true
  noKeyword : name ∉ keywords.map Prod.fst

instance (name : String) : Decidable (IsName name) :=
  decidable_of_iff
    (name.toList ≠ [] ∧ name.toList.all isLetter = true ∧ name ∉ keywords.map Prod.fst)
    ⟨fun ⟨nonempty, letters, noKeyword⟩ => ⟨nonempty, List.all_eq_true.mp letters, noKeyword⟩,
      fun ⟨nonempty, letters, noKeyword⟩ => ⟨nonempty, List.all_eq_true.mpr letters, noKeyword⟩⟩

mutual

/-- An expression that can be written: its names are names, its integers have no sign, and its
strings hold no quote. -/
def Expression.Writable : Expression → Prop
  | .identifier name => IsName name
  | .integer value => 0 ≤ value
  | .string text => '"' ∉ text.toList
  | .boolean _ => True
  | .unary _ operand => operand.Writable
  | .binary left _ right => left.Writable ∧ right.Writable
  | .conditional condition consequence none =>
    condition.Writable ∧ WritableStatements consequence
  | .conditional condition consequence (some alternative) =>
    condition.Writable ∧ WritableStatements consequence ∧ WritableStatements alternative
  | .function parameters body => (∀ name ∈ parameters, IsName name) ∧ WritableStatements body
  | .call callee arguments => callee.Writable ∧ WritableExpressions arguments
  | .array elements => WritableExpressions elements
  | .index collection position => collection.Writable ∧ position.Writable
  | .hash pairs => WritablePairs pairs
termination_by structural expression => expression

/-- Expressions that can all be written. -/
def WritableExpressions : List Expression → Prop
  | [] => True
  | expression :: rest => expression.Writable ∧ WritableExpressions rest
termination_by structural expressions => expressions

/-- Pairs that can all be written. -/
def WritablePairs : List (Expression × Expression) → Prop
  | [] => True
  | (key, value) :: rest => key.Writable ∧ value.Writable ∧ WritablePairs rest
termination_by structural pairs => pairs

/-- A statement that can be written. -/
def Statement.Writable : Statement → Prop
  | .binding name value => IsName name ∧ value.Writable
  | .returning value => value.Writable
  | .expression value => value.Writable
termination_by structural statement => statement

/-- Statements that can all be written. -/
def WritableStatements : List Statement → Prop
  | [] => True
  | statement :: rest => statement.Writable ∧ WritableStatements rest
termination_by structural statements => statements

end

/-- The kinds of keywords. -/
def wordKinds : List Kind :=
  keywords.map Prod.snd

/-- A keyword is a word of its kind. -/
theorem standalone_keyword {kind : Kind} (isWord : kind ∈ wordKinds) : kind.word.Standalone := by
  have found : Kind.ofWord kind.spelling = kind := by
    revert isWord
    cases kind <;> decide
  have nonempty : kind.spelling.toList ≠ [] := by
    revert isWord
    cases kind <;> decide
  have letters : kind.spelling.toList.all isLetter = true := by
    revert isWord
    cases kind <;> decide
  have standalone := Terminal.standalone_word nonempty (List.all_eq_true.mp letters)
  rwa [found] at standalone

theorem front_of_separated {first : Char} {tail rest : List Char} {kind : Kind}
    (last : Lexeme.front first tail = (kind, tail))
    (blank : ∀ behind, Lexeme.front first (tail ++ ' ' :: behind) = (kind, tail))
    (separated : Separated rest) : Lexeme.front first (tail ++ rest) = (kind, tail) := by
  cases rest with
  | nil => rwa [List.append_nil]
  | cons c behind =>
    obtain rfl : c = ' ' := separated
    exact blank behind

/-- A blank keeps a sign from becoming part of a longer one. -/
theorem standalone_sign {kind : Kind} (isSign : kind ∈ signKinds) : kind.word.Standalone := by
  have other : kind ≠ .string := by
    rintro rfl
    exact absurd isSign (by decide)
  refine ⟨?_, Terminal.text_spelling_of_ne other⟩
  rw [Terminal.spelling_of_ne other]
  revert isSign
  cases kind <;> intro isSign <;>
    first
    | exact absurd isSign (by decide)
    | exact ⟨_, _, rfl, by decide, fun _ => front_of_separated rfl fun _ => rfl⟩

theorem UnaryOperator.kind_mem (operator : UnaryOperator) : operator.kind ∈ signKinds := by
  cases operator <;> decide

theorem BinaryOperator.kind_mem (operator : BinaryOperator) : operator.kind ∈ signKinds := by
  cases operator <;> decide

theorem IsName.ofWord_eq {name : String} (isName : IsName name) :
    Kind.ofWord name = .identifier := by
  have noKind : keywords.lookup name = none := by
    rw [List.lookup_eq_none_iff]
    intro keyword member
    rw [bne_iff_ne]
    rintro rfl
    exact isName.noKeyword (List.mem_map_of_mem member)
  rw [Kind.ofWord, noKind]
  rfl

theorem IsName.standalone {name : String} (isName : IsName name) :
    (Terminal.ofName name).Standalone := by
  have standalone := Terminal.standalone_word isName.nonempty isName.letters
  rwa [isName.ofWord_eq] at standalone

theorem standalone_ofInt {value : Int64} (noSign : 0 ≤ value) :
    Terminal.Standalone ⟨.integer, Decimal.ofInt value.toInt⟩ := by
  obtain ⟨number, same⟩ := Int.eq_ofNat_of_zero_le (Int64.le_iff_toInt_le.mp noSign)
  have written : (Decimal.ofInt value.toInt).toList = Nat.toDigits 10 number := by
    rw [same]
    exact String.toList_ofList
  refine Terminal.standalone_integer ?_ ?_ <;> rw [written]
  · exact Nat.toDigits_ne_nil
  · exact fun _ member => Decimal.isDigit_of_mem_toDigits member

/-! ### Sources -/

/-- Words that all stand alone. -/
def AllStandalone (words : List Terminal) : Prop :=
  ∀ word ∈ words, word.Standalone

namespace AllStandalone

variable {words others : List Terminal}

theorem nil : AllStandalone [] := nofun

theorem cons {word : Terminal} (first : word.Standalone) (rest : AllStandalone words) :
    AllStandalone (word :: words) :=
  List.forall_mem_cons.mpr ⟨first, rest⟩

theorem append (first : AllStandalone words) (rest : AllStandalone others) :
    AllStandalone (words ++ others) :=
  List.forall_mem_append.mpr ⟨first, rest⟩

theorem sign {kind : Kind} (isSign : kind ∈ signKinds) : AllStandalone [kind.word] :=
  cons (standalone_sign isSign) nil

theorem bracketed (inside : AllStandalone words) : AllStandalone (bracketed words) :=
  cons (standalone_sign (by decide)) (inside.append (sign (by decide)))

theorem braced (inside : AllStandalone words) : AllStandalone (braced words) :=
  cons (standalone_sign (by decide)) (inside.append (sign (by decide)))

theorem operand (inside : AllStandalone words) (needed : Prop) [Decidable needed] :
    AllStandalone (if needed then MonkeyLang.bracketed words else words) := by
  split
  · exact inside.bracketed
  · exact inside

theorem intercalate {items : List (List Terminal)} (all : ∀ words ∈ items, AllStandalone words) :
    AllStandalone ([Kind.comma.word].intercalate items) := by
  cases items with
  | nil => exact nil
  | cons first items =>
    rw [intercalate_cons]
    obtain ⟨standalone, others⟩ := List.forall_mem_cons.mp all
    refine standalone.append fun word member => ?_
    obtain ⟨item, isItem, member⟩ := List.mem_flatMap.mp member
    exact cons (standalone_sign (by decide)) (others item isItem) word member

end AllStandalone

mutual

/-- Every word of an expression that can be written stands alone. -/
theorem Expression.standalone : (expression : Expression) → expression.Writable →
    AllStandalone expression.words
  | .identifier _ => fun isName => .cons isName.standalone .nil
  | .integer _ => fun noSign => .cons (standalone_ofInt noSign) .nil
  | .string _ => fun noQuote => .cons (Terminal.standalone_string noQuote) .nil
  | .boolean true => fun _ => .cons (standalone_keyword (by decide)) .nil
  | .boolean false => fun _ => .cons (standalone_keyword (by decide)) .nil
  | .unary operator operand => fun writable =>
    .cons (standalone_sign operator.kind_mem) ((operand.standalone writable).operand _)
  | .binary left operator right => fun ⟨writableLeft, writableRight⟩ =>
    ((left.standalone writableLeft).operand _).append
      (.cons (standalone_sign operator.kind_mem) ((right.standalone writableRight).operand _))
  | .conditional condition consequence none => fun ⟨writable, writableBlock⟩ =>
    .cons (standalone_keyword (by decide))
      ((condition.standalone writable).bracketed.append
        (standalone_statements consequence writableBlock).braced)
  | .conditional condition consequence (some alternative) =>
    fun ⟨writable, writableBlock, writableOther⟩ =>
    .cons (standalone_keyword (by decide))
      ((condition.standalone writable).bracketed.append
        ((standalone_statements consequence writableBlock).braced.append
          (.cons (standalone_keyword (by decide))
            (standalone_statements alternative writableOther).braced)))
  | .function _ body => fun ⟨areNames, writableBody⟩ =>
    .cons (standalone_keyword (by decide))
      ((AllStandalone.intercalate
          (List.forall_mem_map.mpr fun name member =>
            .cons (areNames name member).standalone .nil)).bracketed.append
        (standalone_statements body writableBody).braced)
  | .call callee arguments => fun ⟨writable, writableAll⟩ =>
    ((callee.standalone writable).operand _).append
      (AllStandalone.intercalate (standalone_expressions arguments writableAll)).bracketed
  | .array elements => fun writableAll =>
    .cons (standalone_sign (by decide))
      ((AllStandalone.intercalate (standalone_expressions elements writableAll)).append
        (.sign (by decide)))
  | .index collection position => fun ⟨writable, writablePosition⟩ =>
    ((collection.standalone writable).operand _).append
      (.cons (standalone_sign (by decide))
        ((position.standalone writablePosition).append (.sign (by decide))))
  | .hash pairs => fun writableAll =>
    (AllStandalone.intercalate (standalone_pairs pairs writableAll)).braced
termination_by structural expression => expression

theorem standalone_expressions : (trees : List Expression) → WritableExpressions trees →
    ∀ words ∈ wordsOfExpressions trees, AllStandalone words
  | [] => nofun
  | tree :: trees => fun ⟨writable, writableAll⟩ =>
    List.forall_mem_cons.mpr ⟨tree.standalone writable, standalone_expressions trees writableAll⟩
termination_by structural trees => trees

theorem standalone_pairs : (trees : List (Expression × Expression)) → WritablePairs trees →
    ∀ words ∈ wordsOfPairs trees, AllStandalone words
  | [] => nofun
  | (key, value) :: trees => fun ⟨writableKey, writableValue, writableAll⟩ =>
    List.forall_mem_cons.mpr
      ⟨(key.standalone writableKey).append
        (.cons (standalone_sign (by decide)) (value.standalone writableValue)),
      standalone_pairs trees writableAll⟩
termination_by structural trees => trees

/-- Every word of a statement that can be written stands alone. -/
theorem Statement.standalone : (statement : Statement) → statement.Writable →
    AllStandalone statement.words
  | .binding _ value => fun ⟨isName, writable⟩ =>
    .cons (standalone_keyword (by decide))
      (.cons isName.standalone
        (.cons (standalone_sign (by decide))
          ((value.standalone writable).append (.sign (by decide)))))
  | .returning value => fun writable =>
    .cons (standalone_keyword (by decide))
      ((value.standalone writable).append (.sign (by decide)))
  | .expression value => fun writable =>
    (value.standalone writable).append (.sign (by decide))
termination_by structural statement => statement

theorem standalone_statements : (trees : List Statement) → WritableStatements trees →
    AllStandalone (wordsOfStatements trees)
  | [] => nofun
  | tree :: trees => fun ⟨writable, writableAll⟩ =>
    (tree.standalone writable).append (standalone_statements trees writableAll)
termination_by structural trees => trees

end

/-- A program with as few parentheses as possible, its words joined by blanks. -/
def Program.spelling (program : Program) : String :=
  String.intercalate " " ((wordsOfStatements program.statements).map Terminal.spelling)

/-- Every program that can be written is what the parser reads from its spelling, and nothing is
wrong with it. -/
theorem Parsed.ofSource_spelling (program : Program)
    (writable : WritableStatements program.statements) :
    Parsed.ofSource program.spelling = ⟨program, []⟩ := by
  have terminals := Token.terminals_ofSource (standalone_statements _ writable)
  refine (ofTokens_eq_iff _ _).mpr ⟨[⟨.endOfInput, ""⟩], ?_⟩
  rw [Program.spelling, terminals]
  exact spelled_statements (spelled_ofStatements _) rfl (by decide)

/-- A program in which every kind of operand stands with and without parentheses. -/
def mixedOperands : Program :=
  ⟨[.binding "f" (.function ["a", "b"]
      [.returning (.binary (.unary .negate (.binary (.identifier "a") .add (.identifier "b")))
        .multiply (.binary (.integer 2) .divide (.unary .not (.unary .negate (.integer 3)))))]),
    .expression (.call (.index (.hash [(.string "k", .boolean true)]) (.string "k"))
      [.binary (.binary (.integer 1) .less (.integer 2)) .equal (.boolean false), .array []]),
    .expression (.conditional (.call (.unary .not (.identifier "f")) [])
      [.expression (.binary (.binary (.identifier "a") .subtract (.identifier "b")) .subtract
        (.binary (.integer 0) .subtract (.integer 9223372036854775807)))]
      (some []))]⟩

theorem Parsed.ofSource_spelling_mixedOperands :
    WritableStatements mixedOperands.statements ∧
      mixedOperands.spelling =
        "let f = fn ( a , b ) \x7b return - ( a + b ) * ( 2 / ! - 3 ) ; \x7d ; "
          ++ "\x7b \"k\" : true \x7d [ \"k\" ] ( 1 < 2 == false , [ ] ) ; "
          ++ "if ( ( ! f ) ( ) ) \x7b a - b - ( 0 - 9223372036854775807 ) ; \x7d "
          ++ "else \x7b \x7d ;" ∧
      Parsed.ofSource mixedOperands.spelling = ⟨mixedOperands, []⟩ := by
  have writable : WritableStatements mixedOperands.statements := by
    simp only [mixedOperands, WritableStatements, Statement.Writable, Expression.Writable,
      WritableExpressions, WritablePairs]
    decide
  exact ⟨writable, by decide +kernel, Parsed.ofSource_spelling mixedOperands writable⟩

end MonkeyLang
