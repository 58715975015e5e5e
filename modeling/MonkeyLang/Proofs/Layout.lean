/-
This file proves that layout does not matter. Every token of every source,
unknown characters included, is cut off the same when a blank follows, so the
tokens of a source written with single blanks between them are the same tokens
again. And the parser cannot tell sources apart that have the same tokens but
for their lines: the programs are equal, and what is wrong with them is wrong
for the same reasons in the same order.
-/

import Mathlib.Data.List.Forall2
import MonkeyLang.Proofs.Grammar.Spelling
import MonkeyLang.Proofs.Parser.Lockstep
import MonkeyLang.Proofs.Tokenisation

namespace MonkeyLang

open MonkeyLang.Parser Text

/-! ### Tokens as they are written -/

/-- A lexeme as it stands in the source. A string that the end of the source cut off gets its second
quote. -/
def Lexeme.written (lexeme : Lexeme) : String :=
  if lexeme.kind = .string ∧ lexeme.raw.count '"' = 1 then
    String.ofList (lexeme.raw ++ ['"'])
  else
    String.ofList lexeme.raw

/-- The tokens of a source up to the end of input, with single blanks between them. -/
def respaced (source : String) : String :=
  String.intercalate " " ((Lexeme.ofSource source).dropLast.map Lexeme.written)

/-! ### Every token stands alone -/

/-- A character that the language does not know is cut off alone. -/
theorem Terminal.standalone_illegal {c : Char} (noLayout : c ∉ layout)
    (noLetter : isLetter c = false) (noDigit : isDigit c = false) (noQuote : c ≠ '"')
    (isIllegal : Lexeme.kindOfSingle c = .illegal) :
    Standalone ⟨.illegal, String.singleton c⟩ := by
  have other : Kind.illegal ≠ .string := by decide
  have single : Lexeme.Single c := by
    refine ⟨noLetter, noDigit, noQuote, ?_, ?_⟩ <;> rintro rfl <;>
      exact absurd isIllegal (by decide)
  refine ⟨⟨c, [], ?_, ?_, fun rest _ => ?_⟩, text_spelling_of_ne other⟩
  · rw [spelling_of_ne other, String.toList_singleton]
  · rw [mem_layout_iff, not_or, Bool.not_eq_true] at noLayout
    exact noLayout
  · rw [List.nil_append, Lexeme.front_single single, isIllegal]

namespace Lexeme

theorem written_of_ne {kind : Kind} (other : kind ≠ .string) (raw : List Char) (line : Nat) :
    written ⟨kind, raw, line⟩ = String.ofList raw :=
  if_neg fun isString => other isString.1

/-- Whatever is cut off a text stands alone when it is written. -/
theorem Cut.standalone {kind : Kind} {raw rest : List Char} (cut : Cut kind raw rest)
    (noLayout : ∀ c ∈ raw.head?, c ∉ layout) (line : Nat) :
    (token ⟨kind, raw, line⟩).terminal.Standalone ∧
      (token ⟨kind, raw, line⟩).terminal.spelling = written ⟨kind, raw, line⟩ := by
  have written_eq (other : kind ≠ .string) :
      (token ⟨kind, raw, line⟩).terminal.spelling = written ⟨kind, raw, line⟩ := by
    rw [written_of_ne other, token_of_ne other, Token.terminal, Terminal.spelling_of_ne other]
  cases cut with
  | word nonempty letters _ =>
    have other : Kind.ofWord (String.ofList raw) ≠ .string := Kind.ofWord_ne (by decide)
    refine ⟨?_, written_eq other⟩
    rw [token_of_ne other]
    refine Terminal.standalone_word ?_ ?_ <;> rwa [String.toList_ofList]
  | integer nonempty digits _ =>
    have other : Kind.integer ≠ .string := by decide
    refine ⟨?_, written_eq other⟩
    rw [token_of_ne other]
    refine Terminal.standalone_integer ?_ ?_ <;> rwa [String.toList_ofList]
  | @closedString inside _ noQuote =>
    rw [token_string noQuote _ (.inr rfl)]
    refine ⟨Terminal.standalone_string (by rwa [String.toList_ofList]), ?_⟩
    have twice : ('"' :: (inside ++ ['"'])).count '"' = 2 := by
      simp [List.count_eq_zero.mpr noQuote]
    rw [written, if_neg (by simp [twice]), ← String.toList_inj]
    simp [Terminal.spelling, Token.terminal]
  | @openString inside noQuote =>
    have same := token_string noQuote [] (.inl rfl) line
    rw [List.append_nil] at same
    rw [same]
    refine ⟨Terminal.standalone_string (by rwa [String.toList_ofList]), ?_⟩
    have once : ('"' :: inside).count '"' = 1 := by
      simp [List.count_eq_zero.mpr noQuote]
    rw [written, if_pos ⟨rfl, once⟩, ← String.toList_inj]
    simp [Terminal.spelling, Token.terminal]
  | equal =>
    exact ⟨standalone_sign (show Kind.equal ∈ signKinds by decide), written_eq (by decide)⟩
  | notEqual =>
    exact ⟨standalone_sign (show Kind.notEqual ∈ signKinds by decide), written_eq (by decide)⟩
  | @single c _ noLetter noDigit noQuote _ =>
    rcases kindOfSingle_cases c with ⟨isSign, same⟩ | ⟨isIllegal, -⟩
    · have other : kindOfSingle c ≠ .string := fun isString =>
        absurd (isString ▸ isSign) (by decide)
      have spelled : ∀ kind ∈ signKinds, kind.spelling = kind.name := by decide
      refine ⟨?_, written_eq other⟩
      rw [token_of_ne other, ← same, String.ofList_toList, ← spelled _ isSign]
      exact standalone_sign isSign
    · refine ⟨?_, written_eq (by rw [isIllegal]; decide)⟩
      rw [isIllegal, token_of_ne (by decide)]
      exact Terminal.standalone_illegal (noLayout c rfl) noLetter noDigit noQuote isIllegal

end Lexeme

/-- Written with single blanks between them, the tokens of a source are the same tokens. -/
theorem Token.terminals_respaced (source : String) :
    (Token.ofSource (respaced source)).map Token.terminal =
      (Token.ofSource source).map Token.terminal := by
  obtain ⟨pieces, last, same, all⟩ :=
    (Lexeme.ofSource_eq_iff.mp rfl : Cuts 1 source.toList _).pieces
  have standalone : ∀ piece ∈ pieces, piece.token.terminal.Standalone ∧
      piece.token.terminal.spelling = piece.written := by
    rintro ⟨kind, raw, line⟩ member
    obtain ⟨noLayout, -, rest, isCut⟩ := all _ member
    refine isCut.standalone (fun c isFirst => ?_) line
    rw [mem_layout_iff, not_or, Bool.not_eq_true]
    exact noLayout c isFirst
  have written : pieces.map Lexeme.written =
      (pieces.map fun piece => piece.token.terminal).map Terminal.spelling := by
    rw [List.map_map]
    exact List.map_congr_left fun piece member => (standalone piece member).2.symm
  have alone := List.forall_mem_map.mpr fun piece member => (standalone piece member).1
  rw [respaced, same, List.dropLast_concat, written, Token.terminals_ofSource alone,
    Token.ofSource, same, List.map_map, List.map_append]
  rfl

/-! ### Sources with the same terminals -/

/-- Two cursors in front of the same terminals, behind diagnostics that differ in their lines. -/
structure Cursor.SameButLines (cursor cursor' : Cursor) : Prop where
  terminals : cursor'.terminals = cursor.terminals
  diagnostics : List.Forall₂ Diagnostic.SameButLine cursor.diagnostics.toList
    cursor'.diagnostics.toList

/-- Behind the last token the end of input is next. -/
theorem Cursor.terminal_next (cursor : Cursor) :
    cursor.next.terminal = cursor.terminals.headD ⟨.endOfInput, ""⟩ := by
  unfold next terminals
  cases cursor.rest <;> rfl

theorem Cursor.SameButLines.terminal_next {cursor cursor' : Cursor}
    (same : cursor.SameButLines cursor') : cursor'.next.terminal = cursor.next.terminal := by
  rw [Cursor.terminal_next, Cursor.terminal_next, same.terminals]

theorem Cursor.SameButLines.record {cursor cursor' : Cursor} {diagnostic diagnostic' : Diagnostic}
    (same : cursor.SameButLines cursor') (alike : diagnostic.SameButLine diagnostic') :
    (cursor.record diagnostic).SameButLines (cursor'.record diagnostic') := by
  refine ⟨same.terminals, ?_⟩
  simp only [Cursor.record, Array.toList_push]
  exact List.rel_append same.diagnostics (.cons alike .nil)

theorem lockstep_sameButLines : Lockstep Cursor.SameButLines where
  kind same := congrArg Terminal.kind same.terminal_next
  text same _ := congrArg Terminal.text same.terminal_next
  advance same := ⟨by simp only [Cursor.terminals_advance, same.terminals], same.diagnostics⟩
  missed same _ _ alike := same.record alike
  refused same _ _ alike :=
    Cursor.SameButLines.record
      ⟨by simp only [Cursor.terminals_advance, same.terminals], same.diagnostics⟩ alike

/-- Layout does not matter. The tokens of every source can be written with single blanks between
them, and sources whose tokens differ in their lines at most are read to the same program and to
diagnostics that differ in their lines at most. -/
theorem layout_does_not_matter :
    (∀ source, (Token.ofSource (respaced source)).map Token.terminal =
      (Token.ofSource source).map Token.terminal) ∧
    ∀ source source', (Token.ofSource source).map Token.terminal =
        (Token.ofSource source').map Token.terminal →
      (Parsed.ofSource source).program = (Parsed.ofSource source').program ∧
      List.Forall₂ Diagnostic.SameButLine (Parsed.ofSource source).diagnostics
        (Parsed.ofSource source').diagnostics := by
  refine ⟨Token.terminals_respaced, fun source source' same => ?_⟩
  have length : (Token.ofSource source).length = (Token.ofSource source').length := by
    simpa using congrArg List.length same
  obtain ⟨sameProgram, alike⟩ := lockstep_sameButLines.reading length ⟨same.symm, .nil⟩
  rw [Parsed.ofSource, Parsed.ofSource, Parsed.ofTokens_eq, Parsed.ofTokens_eq]
  exact ⟨congrArg Program.mk sameProgram, alike.diagnostics⟩

theorem layout_does_not_matter_broken :
    respaced "let x=-1\n)\nlet 2@\"a" = "let x = - 1 ) let 2 @ \"a\"" ∧
      (Token.ofSource "let x=-1\n)\nlet 2@\"a").map Token.terminal =
        (Token.ofSource "let x = - 1 ) let 2 @ \"a\"").map Token.terminal ∧
      (Parsed.ofSource "let x=-1\n)\nlet 2@\"a").diagnostics =
        [.noOperand .closeParen 2, .unexpected .identifier .integer 3, .noOperand .illegal 3] ∧
      (Parsed.ofSource "let x=-1\n)\nlet 2@\"a").program =
        (Parsed.ofSource "let x = - 1 ) let 2 @ \"a\"").program ∧
      List.Forall₂ Diagnostic.SameButLine (Parsed.ofSource "let x=-1\n)\nlet 2@\"a").diagnostics
        (Parsed.ofSource "let x = - 1 ) let 2 @ \"a\"").diagnostics := by
  have same : (Token.ofSource "let x=-1\n)\nlet 2@\"a").map Token.terminal =
      (Token.ofSource "let x = - 1 ) let 2 @ \"a\"").map Token.terminal := by decide +kernel
  exact ⟨by decide +kernel, same, by decide +kernel, layout_does_not_matter.2 _ _ same⟩

end MonkeyLang
