/-
This file proves that the diagnostics of a source come in the order of the
source and that each points at a token that is there. A diagnostic is kept about
the next token or about the one that was just left behind, and never about one
that an earlier diagnostic is ahead of; so the positions of the tokens pointed
at never decrease, through all nested blocks in which reading goes on.

Behind the end of input the parser still finds an end of input next. It is taken
for the last token of the source, which has the same line.
-/

import Mathlib.Data.List.Forall2
import MonkeyLang.Proofs.Parser.Lockstep
import MonkeyLang.Proofs.Scanning

namespace MonkeyLang

open MonkeyLang.Parser

/-! ### The lines of tokens -/

/-- No lexeme stands outside the lines of the text. -/
theorem Cuts.line_bounds {line : Nat} {source : List Char} {lexemes : List Lexeme}
    (cuts : Cuts line source lexemes) :
    ∀ lexeme ∈ lexemes, line ≤ lexeme.line ∧ lexeme.line ≤ line + source.count '\n' := by
  induction cuts with
  | ends => simp
  | lineFeed _ inductionHypothesis =>
    intro lexeme member
    have bounds := inductionHypothesis lexeme member
    rw [List.count_cons_self]
    omega
  | blank _ _ inductionHypothesis =>
    intro lexeme member
    have bounds := inductionHypothesis lexeme member
    rw [List.count_cons]
    omega
  | @piece line first tail rest kind _ _ _ _ _ inductionHypothesis =>
    rw [← List.cons_append, List.count_append]
    refine List.forall_mem_cons.mpr ⟨⟨Nat.le_refl _, Nat.le_add_right _ _⟩, ?_⟩
    intro lexeme member
    have bounds : line + (first :: tail).count '\n' ≤ lexeme.line ∧
        lexeme.line ≤ line + (first :: tail).count '\n' + rest.count '\n' :=
      inductionHypothesis lexeme member
    omega

/-- Lexemes stand in the order of their lines. -/
theorem Cuts.pairwise_line {line : Nat} {source : List Char} {lexemes : List Lexeme}
    (cuts : Cuts line source lexemes) :
    lexemes.Pairwise fun first second => first.line ≤ second.line := by
  induction cuts with
  | ends => exact List.pairwise_singleton _ _
  | lineFeed _ inductionHypothesis => exact inductionHypothesis
  | blank _ _ inductionHypothesis => exact inductionHypothesis
  | piece _ _ _ cuts inductionHypothesis =>
    refine List.pairwise_cons.mpr ⟨fun lexeme member => ?_, inductionHypothesis⟩
    exact Nat.le_trans (Nat.le_add_right _ _) (cuts.line_bounds lexeme member).1

/-! ### Diagnostics with their positions -/

/-- Diagnostics that point at tokens of a stream, at positions that do not decrease. -/
structure PointInOrder (tokens : List Token) (diagnostics : List Diagnostic)
    (positions : List Nat) : Prop where
  ordered : positions.Pairwise (· ≤ ·)
  points : List.Forall₂
    (fun diagnostic position => ∃ token, tokens[position]? = some token ∧
      diagnostic.PointsAt token)
    diagnostics positions

namespace PointInOrder

variable {tokens : List Token} {diagnostics : List Diagnostic} {positions : List Nat}

theorem nil : PointInOrder tokens [] [] :=
  ⟨.nil, .nil⟩

/-- The next diagnostic points nowhere in front of the others. -/
theorem concat (inOrder : PointInOrder tokens diagnostics positions) {diagnostic : Diagnostic}
    {position : Nat} {token : Token} (behind : ∀ other ∈ positions, other ≤ position)
    (found : tokens[position]? = some token) (points : diagnostic.PointsAt token) :
    PointInOrder tokens (diagnostics ++ [diagnostic]) (positions ++ [position]) := by
  refine ⟨List.pairwise_append.mpr ⟨inOrder.ordered, List.pairwise_singleton _ _, ?_⟩,
    List.rel_append inOrder.points (.cons ⟨token, found, points⟩ .nil)⟩
  simpa using behind

/-- What points at tokens in order tells their lines in order. -/
theorem pairwise_line (inOrder : PointInOrder tokens diagnostics positions)
    (lines : tokens.Pairwise fun first second => first.line ≤ second.line) :
    (diagnostics.map Diagnostic.line).Pairwise (· ≤ ·) := by
  obtain ⟨sameLength, each⟩ := List.forall₂_iff_get.mp inOrder.points
  rw [List.pairwise_iff_getElem]
  intro first second isFirst isSecond less
  rw [List.length_map] at isFirst isSecond
  have ordered := List.pairwise_iff_getElem.mp inOrder.ordered first second
    (sameLength ▸ isFirst) (sameLength ▸ isSecond) less
  obtain ⟨token, found, points⟩ := each first isFirst (sameLength ▸ isFirst)
  obtain ⟨token', found', points'⟩ := each second isSecond (sameLength ▸ isSecond)
  obtain ⟨short, rfl⟩ := List.getElem?_eq_some_iff.mp found
  obtain ⟨short', rfl⟩ := List.getElem?_eq_some_iff.mp found'
  rw [List.getElem_map, List.getElem_map]
  refine points.line_eq ▸ points'.line_eq ▸ ?_
  rcases Nat.lt_or_eq_of_le ordered with less | same
  · exact List.pairwise_iff_getElem.mp lines _ _ short short' less
  · simp only [List.get_eq_getElem, same, Nat.le_refl]

/-- What is pointed at is a token of the stream. -/
theorem exists_token (inOrder : PointInOrder tokens diagnostics positions) {diagnostic : Diagnostic}
    (member : diagnostic ∈ diagnostics) : ∃ token ∈ tokens, diagnostic.PointsAt token := by
  obtain ⟨sameLength, each⟩ := List.forall₂_iff_get.mp inOrder.points
  obtain ⟨index, short, rfl⟩ := List.getElem_of_mem member
  obtain ⟨token, found, points⟩ := each index short (sameLength ▸ short)
  exact ⟨token, List.mem_of_getElem? found, points⟩

end PointInOrder

/-! ### Cursors in a stream of tokens -/

/-- A position in a stream with one token more than the given, and not behind the next token. -/
def Cursor.Reaches (tokens : List Token) (cursor : Cursor) (position : Nat) : Prop :=
  position ≤ tokens.length ∧ position + cursor.rest.length ≤ tokens.length + 1

/-- A cursor somewhere in a stream of tokens, which ends with an end of input. What was wrong so far
points at tokens of the stream, and at none behind the next one. -/
structure Cursor.Tracks (tokens : List Token) (last : Token) (cursor : Cursor) : Prop where
  rest : cursor.rest <:+ tokens ++ [last]
  past : last = ⟨.endOfInput, "", cursor.lastLine⟩
  diagnostics : ∃ positions, PointInOrder (tokens ++ [last]) cursor.diagnostics.toList positions ∧
    ∀ position ∈ positions, cursor.Reaches tokens position

section Tracking

variable {tokens : List Token} {last : Token} {cursor : Cursor}

theorem Cursor.Reaches.advance {position : Nat} (reaches : cursor.Reaches tokens position) :
    cursor.advance.Reaches tokens position :=
  ⟨reaches.1, Nat.le_trans (Nat.add_le_add_left cursor.length_advance_le _) reaches.2⟩

namespace Cursor.Tracks

/-- The next token is one of the stream, and its position is the greatest that is reached. -/
theorem exists_next (tracks : cursor.Tracks tokens last) :
    ∃ position, (tokens ++ [last])[position]? = some cursor.next ∧
      cursor.Reaches tokens position ∧
      ∀ other, cursor.Reaches tokens other → other ≤ position := by
  obtain ⟨read, whole⟩ := tracks.rest
  have length : read.length + cursor.rest.length = tokens.length + 1 := by
    simpa using congrArg List.length whole
  unfold next
  cases ahead : cursor.rest with
  | nil =>
    refine ⟨tokens.length, ?_, ⟨Nat.le_refl _, ?_⟩, fun _ reaches => reaches.1⟩
    · rw [List.getElem?_concat_length, tracks.past]
    · rw [ahead]
      exact Nat.le_succ _
  | cons token others =>
    refine ⟨read.length, ?_, ⟨?_, Nat.le_of_eq length⟩, fun other reaches => ?_⟩
    · rw [← whole, ahead, List.getElem?_append_right (Nat.le_refl _), Nat.sub_self]
      rfl
    · rw [ahead, List.length_cons] at length
      omega
    · exact Nat.le_of_add_le_add_right (Nat.le_trans reaches.2 (Nat.le_of_eq length.symm))

theorem advance (tracks : cursor.Tracks tokens last) : cursor.advance.Tracks tokens last := by
  obtain ⟨positions, inOrder, reached⟩ := tracks.diagnostics
  exact ⟨(List.tail_suffix _).trans tracks.rest, tracks.past, positions, inOrder,
    fun position member => (reached position member).advance⟩

/-- A diagnostic about the next token is kept in front of it or behind it. -/
theorem record (tracks : cursor.Tracks tokens last) {diagnostic : Diagnostic}
    (points : diagnostic.PointsAt cursor.next) :
    (cursor.record diagnostic).Tracks tokens last ∧
      (cursor.advance.record diagnostic).Tracks tokens last := by
  obtain ⟨positions, inOrder, reached⟩ := tracks.diagnostics
  obtain ⟨position, found, reaches, greatest⟩ := tracks.exists_next
  have points : PointInOrder (tokens ++ [last]) (cursor.diagnostics.push diagnostic).toList
      (positions ++ [position]) := by
    rw [Array.toList_push]
    exact inOrder.concat (fun other member => greatest other (reached other member)) found points
  have allReached : ∀ other ∈ positions ++ [position], cursor.Reaches tokens other :=
    List.forall_mem_append.mpr ⟨reached, by simpa using reaches⟩
  exact ⟨⟨tracks.rest, tracks.past, _, points, allReached⟩,
    ⟨tracks.advance.rest, tracks.past, _, points,
      fun other member => (allReached other member).advance⟩⟩

end Cursor.Tracks

end Tracking

theorem lockstep_tracks (tokens : List Token) (last : Token) :
    Lockstep fun cursor cursor' => cursor = cursor' ∧ cursor.Tracks tokens last :=
  .alone .advance (fun tracks points => (tracks.record points).1)
    fun tracks points => (tracks.record points).2

/-! ### Sources -/

/-- The diagnostics of a source point at its tokens, in their order. So their lines never decrease,
and they are lines of the source. -/
theorem diagnostics_in_source_order (source : String) :
    (∃ positions, PointInOrder (Token.ofSource source) (Parsed.ofSource source).diagnostics
      positions) ∧
    ((Parsed.ofSource source).diagnostics.map Diagnostic.line).Pairwise (· ≤ ·) ∧
    ∀ diagnostic ∈ (Parsed.ofSource source).diagnostics,
      1 ≤ diagnostic.line ∧ diagnostic.line ≤ 1 + source.toList.count '\n' := by
  have cuts : Cuts 1 source.toList (Lexeme.ofSource source) := Lexeme.ofSource_eq_iff.mp rfl
  obtain ⟨pieces, line, same, -⟩ := cuts.pieces
  have tokens : Token.ofSource source = pieces.map Lexeme.token ++ [⟨.endOfInput, "", line⟩] := by
    rw [Token.ofSource, same, List.map_append]
    rfl
  have start : (Cursor.ofTokens (Token.ofSource source)).Tracks (pieces.map Lexeme.token)
      ⟨.endOfInput, "", line⟩ := by
    refine ⟨?_, ?_, [], .nil, List.forall_mem_nil _⟩
    · rw [← tokens]
      exact List.suffix_refl _
    · rw [tokens]
      simp [Cursor.ofTokens]
  obtain ⟨-, -, -, -, positions, inOrder, -⟩ := (lockstep_tracks _ _).reading rfl ⟨rfl, start⟩
  rw [← tokens] at inOrder
  rw [Parsed.ofSource, Parsed.ofTokens_eq]
  refine ⟨⟨positions, inOrder⟩, inOrder.pairwise_line ?_, fun diagnostic member => ?_⟩
  · rw [Token.ofSource, List.pairwise_map]
    exact cuts.pairwise_line
  · obtain ⟨token, isToken, points⟩ := inOrder.exists_token member
    obtain ⟨lexeme, isLexeme, rfl⟩ := List.mem_map.mp isToken
    rw [points.line_eq]
    exact cuts.line_bounds lexeme isLexeme

end MonkeyLang
