/-
This file is about texts in which lexemes stand side by side. What keeps them
apart is what they are made of: a word or a number ends in front of a sign, a
bracket or a blank, and most signs end by themselves. Only `=` and `!` might
become part of a longer sign.

So a text that ends with a word or a number is cut into its own lexemes in front
of whatever does not go on with them, and a text that ends with a sign in front
of everything.
-/

import MonkeyLang.Program.Text
import MonkeyLang.Proofs.Grammar.Words
import MonkeyLang.Proofs.Scanning

namespace MonkeyLang

open MonkeyLang.Parser Text

/-! ### Texts and their terminals -/

/-- A text is cut into lexemes of the given terminals, the end of input among them. -/
def Scans (source : List Char) (terminals : List Terminal) : Prop :=
  ∀ line, ∃ lexemes, Cuts line source lexemes ∧
    lexemes.map (fun lexeme => lexeme.token.terminal) = terminals

/-- Neither a word nor a number goes on with what comes next. -/
def Delimited (rest : List Char) : Prop :=
  ∀ c ∈ rest.head?, isLetter c = false ∧ isDigit c = false

/-- A text is cut into the given terminals wherever it is delimited. -/
def Spells (source : List Char) (terminals : List Terminal) : Prop :=
  ∀ ⦃rest : List Char⦄ ⦃behind : List Terminal⦄, Delimited rest → Scans rest behind →
    Scans (source ++ rest) (terminals ++ behind)

theorem Delimited.cons {c : Char} (neither : isLetter c = false ∧ isDigit c = false)
    (rest : List Char) : Delimited (c :: rest) := by
  intro next isNext
  obtain rfl := Option.some.inj isNext
  exact neither

/-- The signs that no longer one starts with, each with its kind. -/
def loneSigns : List (Char × Kind) :=
  [('+', .plus), ('-', .minus), ('*', .asterisk), ('/', .slash), ('<', .less), ('>', .greater),
    (',', .comma), (';', .semicolon), (':', .colon), ('(', .openParen), (')', .closeParen),
    ('[', .openBracket), (']', .closeBracket), ('\x7b', .openBrace), ('\x7d', .closeBrace)]

theorem kindOfSingle_of_mem_loneSigns {c : Char} {kind : Kind} (isSign : (c, kind) ∈ loneSigns) :
    kind.spelling.toList = [c] ∧ kind ≠ .string ∧ (c ≠ '\n' ∧ isBlank c = false) ∧
      Lexeme.Single c ∧ Lexeme.kindOfSingle c = kind := by
  have all : ∀ pair ∈ loneSigns, pair.2.spelling.toList = [pair.1] ∧ pair.2 ≠ .string ∧
      (pair.1 ≠ '\n' ∧ isBlank pair.1 = false) ∧ Lexeme.Single pair.1 ∧
        Lexeme.kindOfSingle pair.1 = pair.2 := by decide
  exact all _ isSign

namespace Scans

variable {rest : List Char} {behind : List Terminal}

theorem ends : Scans [] [⟨.endOfInput, ""⟩] :=
  fun _ => ⟨_, .ends, rfl⟩

theorem blanks {gap : List Char} (all : gap.all isBlank = true) (scans : Scans rest behind) :
    Scans (gap ++ rest) behind := by
  induction gap with
  | nil => exact scans
  | cons c gap inductionHypothesis =>
    rw [List.all_cons, Bool.and_eq_true] at all
    obtain ⟨isBlank, more⟩ := all
    intro line
    obtain ⟨lexemes, cuts, same⟩ := inductionHypothesis more line
    exact ⟨lexemes, .blank isBlank cuts, same⟩

theorem blank (scans : Scans rest behind) : Scans (' ' :: rest) behind :=
  scans.blanks (by decide : [' '].all isBlank = true)

theorem piece (terminal : Terminal) {first : Char} {tail : List Char}
    (spelled : terminal.text.toList = first :: tail) (noString : terminal.kind ≠ .string)
    (noLayout : first ≠ '\n' ∧ isBlank first = false)
    (cut : Lexeme.front first (tail ++ rest) = (terminal.kind, tail)) (scans : Scans rest behind) :
    Scans (terminal.text.toList ++ rest) (terminal :: behind) := by
  intro line
  obtain ⟨lexemes, cuts, same⟩ := scans (Lexeme.lastLine ⟨terminal.kind, first :: tail, line⟩)
  rw [spelled]
  refine ⟨_, .piece noLayout.1 noLayout.2 cut cuts, ?_⟩
  have text := Terminal.text_spelling_of_ne noString line
  rw [Terminal.spelling_of_ne noString, spelled] at text
  rw [List.map_cons, same, Lexeme.token, Token.terminal, text]

/-- A sign that no longer one starts with is cut off whatever comes next. -/
theorem sign (c : Char) (kind : Kind) (isSign : (c, kind) ∈ loneSigns)
    (scans : Scans rest behind) : Scans (c :: rest) (kind.word :: behind) := by
  obtain ⟨spelled, noString, noLayout, single, isKind⟩ := kindOfSingle_of_mem_loneSigns isSign
  have cut : Lexeme.front c ([] ++ rest) = (kind, []) := by
    rw [Lexeme.front_single single, isKind]
  have all := scans.piece kind.word spelled noString noLayout cut
  rwa [show kind.word.text.toList = [c] from spelled] at all

/-- The sign between a name and its value, with the blank behind it. -/
theorem assign (scans : Scans rest behind) :
    Scans ('=' :: ' ' :: rest) (Kind.assign.word :: behind) :=
  scans.blank.piece Kind.assign.word rfl nofun (by decide) rfl

/-- No sign is longer than the one of an operation. -/
theorem operation (operator : BinaryOperator) (scans : Scans rest behind) :
    Scans (operator.symbol.toList ++ rest) (operator.kind.word :: behind) := by
  cases operator with
  | equal => exact scans.piece Kind.equal.word rfl nofun (by decide) rfl
  | notEqual => exact scans.piece Kind.notEqual.word rfl nofun (by decide) rfl
  | _ => exact scans.sign _ _ (by decide)

/-- A text that starts with `=` does not start with an operand. -/
theorem headKind_notMem {terminals : List Terminal} (scans : Scans ('=' :: rest) terminals) :
    headKind terminals ∉ operandKinds := by
  obtain ⟨lexemes, cuts, rfl⟩ := scans 1
  cases cuts with
  | blank isBlank _ => exact absurd isBlank (by decide)
  | @piece _ _ tail rest kind _ _ _ cut _ =>
    show kind ∉ operandKinds
    rw [Lexeme.front_equals] at cut
    split at cut
    · obtain ⟨rfl, -⟩ := Prod.mk.inj cut
      decide
    · obtain ⟨rfl, -⟩ := Prod.mk.inj cut
      decide

/-- The operator in front of an operand is cut off: no operand makes a longer sign of it. -/
theorem operator (operator : UnaryOperator) (scans : Scans rest behind)
    (isOperand : headKind behind ∈ operandKinds) :
    Scans (operator.symbol.toList ++ rest) (operator.kind.word :: behind) := by
  cases operator with
  | negate => exact scans.sign '-' .minus (by decide)
  | not =>
    have noEquals : rest.head? ≠ some '=' := by
      cases rest with
      | nil => exact nofun
      | cons c rest =>
        rintro ⟨⟩
        exact scans.headKind_notMem isOperand
    have cut : Lexeme.front '!' ([] ++ rest) = (.bang, []) := by
      rw [List.nil_append, Lexeme.front_bang, if_neg (by simpa using noEquals)]
    exact scans.piece Kind.bang.word rfl nofun (by decide) cut

end Scans

namespace Spells

/-- The digits of a number. -/
theorem digits (number : Nat) :
    Spells (Nat.toDigits 10 number) [⟨.integer, Decimal.ofNat number⟩] := by
  intro rest behind delimited scans
  have written : (Decimal.ofNat number).toList = Nat.toDigits 10 number := String.toList_ofList
  have nonempty : Nat.toDigits 10 number ≠ [] := Nat.toDigits_ne_nil
  obtain ⟨digit, digits, same⟩ := List.exists_cons_of_ne_nil nonempty
  have all : ∀ c ∈ digit :: digits, isDigit c = true :=
    same ▸ fun _ member => Decimal.isDigit_of_mem_toDigits member
  have noLayout := no_layout_of_holds (all digit List.mem_cons_self) (by decide)
  rw [← written]
  exact scans.piece ⟨.integer, Decimal.ofNat number⟩ (written.trans same) nofun noLayout
    (Lexeme.front_integer all fun c isNext => (delimited c isNext).2)

/-- An integer without a sign. -/
theorem natural {value : Int64} (noSign : 0 ≤ value) :
    Spells (Decimal.ofInt value.toInt).toList [⟨.integer, Decimal.ofInt value.toInt⟩] := by
  obtain ⟨number, same⟩ := Int.eq_ofNat_of_zero_le (Int64.le_iff_toInt_le.mp noSign)
  have written : (Decimal.ofInt (number : Int)).toList = Nat.toDigits 10 number :=
    String.toList_ofList
  rw [same, written]
  exact digits number

/-- A nonempty run of letters. -/
theorem letters (word : String) (nonempty : word.toList ≠ [])
    (letters : ∀ c ∈ word.toList, isLetter c = true) :
    Spells word.toList [⟨Kind.ofWord word, word⟩] := by
  intro rest behind delimited scans
  obtain ⟨letter, tail, same⟩ := List.exists_cons_of_ne_nil nonempty
  rw [same] at letters
  have noLayout := no_layout_of_holds (letters letter List.mem_cons_self) (by decide)
  have cut := Lexeme.front_word letters fun c isNext => (delimited c isNext).1
  rw [← same, String.ofList_toList] at cut
  exact scans.piece ⟨Kind.ofWord word, word⟩ same (Kind.ofWord_ne (by decide)) noLayout cut

/-- A truth value. -/
theorem boolean (value : Bool) :
    Spells (textOfBool value).toList (Expression.boolean value).words := by
  cases value with
  | true => exact letters "true" (by decide) (List.all_eq_true.mp (by decide))
  | false => exact letters "false" (by decide) (List.all_eq_true.mp (by decide))

/-- Items with commas between them, and with blanks behind the commas or not. -/
theorem intercalate (gap : List Char) (blanks : gap.all isBlank = true)
    {texts : List (List Char)} {words : List (List Terminal)}
    (all : List.Forall₂ (fun text words => Spells text words) texts words) :
    Spells ((',' :: gap).intercalate texts) ([Kind.comma.word].intercalate words) := by
  intro rest behind delimited scans
  induction all with
  | nil => exact scans
  | @cons text words texts others first more inductionHypothesis =>
    cases more with
    | nil =>
      rw [List.intercalate_singleton, List.intercalate_singleton]
      exact first delimited scans
    | cons =>
      rw [List.intercalate_cons_cons, List.intercalate_cons_cons]
      simp only [List.append_assoc]
      exact first (.cons (by decide) _)
        ((inductionHypothesis.blanks blanks).sign ',' .comma (by decide))

/-- What stands in parentheses. -/
theorem grouped {source : List Char} {words : List Terminal} (spells : Spells source words) :
    Spells ('(' :: (source ++ [')'])) (bracketed words) := by
  intro rest behind _ scans
  have closed := scans.sign ')' .closeParen (by decide)
  simpa [bracketed] using (spells (.cons (by decide) _) closed).sign '(' .openParen (by decide)

/-- A source that spells the words of an expression is a program of this one statement. -/
theorem ofSource_eq {source : String} {words : List Terminal} {expression : Expression}
    (spells : Spells source.toList words) (alone : ReadAlone words expression) :
    Parsed.ofSource source = ⟨⟨[.expression expression]⟩, []⟩ := by
  have noRest : Delimited [] := nofun
  have scans := spells noRest Scans.ends
  rw [List.append_nil] at scans
  obtain ⟨lexemes, cuts, terminals⟩ := scans 1
  refine (ofTokens_eq_iff _ _).mpr ⟨[⟨.endOfInput, ""⟩], ?_⟩
  rw [Token.ofSource, Lexeme.ofSource_eq_iff.mpr cuts, List.map_map]
  show Reads _ (lexemes.map fun lexeme => lexeme.token.terminal) _
  rw [terminals]
  have closes : (headKind [(⟨.endOfInput, ""⟩ : Terminal)]).Closes := by decide
  have reads : Reads (.expression .lowest expression) (words ++ [⟨.endOfInput, ""⟩])
      [⟨.endOfInput, ""⟩] := alone closes
  have statement : Reads (.statement (.expression expression)) (words ++ [⟨.endOfInput, ""⟩])
      [⟨.endOfInput, ""⟩] := statement_expression alone closes
  have more : endsProgram (headKind (words ++ [⟨.endOfInput, ""⟩])) = false :=
    beq_false_of_ne (reads.headKind_ne (by decide))
  exact .statements more statement (.noStatements rfl)

end Spells

end MonkeyLang
