/-
This file says how little of what is behind a phrase reading depends on: on the
kind of the next terminal, and on nothing if the phrase is a statement that ends
with its semicolon. So programs can be put behind one another, each read as it
is by itself.

Two things may go wrong at the seam. A statement without a semicolon may go on
behind it, and a block that the input ends may go on too. Neither happens if the
first program ends with a semicolon and has as many opening as closing braces:
the braces rule out that a block is still open, and so the semicolon, which
nothing but a statement takes, belongs to a statement of the program itself.
-/

import MonkeyLang.Proofs.Parser.Soundness

namespace MonkeyLang

/-! ### Braces -/

/-- How a kind of token changes the number of open braces, where the end of input closes one. -/
def Kind.weight : Kind → Int
  | .openBrace => 1
  | .closeBrace => -1
  | .endOfInput => -1
  | _ => 0

/-- How many more braces are opened than closed. -/
def weight : List Terminal → Int
  | [] => 0
  | terminal :: rest => terminal.kind.weight + weight rest

@[simp] theorem weight_cons (terminal : Terminal) (rest : List Terminal) :
    weight (terminal :: rest) = terminal.kind.weight + weight rest := rfl

theorem weight_append (left right : List Terminal) :
    weight (left ++ right) = weight left + weight right := by
  induction left with
  | nil => exact (Int.zero_add _).symm
  | cons terminal rest inductionHypothesis =>
    rw [List.cons_append, weight_cons, weight_cons, inductionHypothesis, Int.add_assoc]

theorem Kind.weight_eq {kind : Kind} (more : kind ≠ .endOfInput) :
    kind.weight = ((if kind == .openBrace then 1 else 0 : Nat) : Int) -
      ((if kind == .closeBrace then 1 else 0 : Nat) : Int) := by
  cases kind <;> first | rfl | exact absurd rfl more

/-- In front of the end of input only braces weigh anything. -/
theorem weight_eq_count {terminals : List Terminal}
    (more : ∀ terminal ∈ terminals, terminal.kind ≠ .endOfInput) :
    weight terminals = (terminals.map Terminal.kind).count .openBrace -
      (terminals.map Terminal.kind).count .closeBrace := by
  induction terminals with
  | nil => rfl
  | cons terminal rest inductionHypothesis =>
    rw [weight_cons, inductionHypothesis fun other member => more other (.tail _ member),
      Kind.weight_eq (more terminal (.head _)), List.map_cons, List.count_cons, List.count_cons]
    push_cast
    omega

theorem Kind.neg_one_le_weight (kind : Kind) : -1 ≤ kind.weight := by
  cases kind <;> decide

@[simp] theorem UnaryOperator.weight_kind (operator : UnaryOperator) :
    operator.kind.weight = 0 := by
  cases operator <;> rfl

@[simp] theorem BinaryOperator.weight_kind (operator : BinaryOperator) :
    operator.kind.weight = 0 := by
  cases operator <;> rfl

theorem weight_dropSemicolon (terminals : List Terminal) :
    weight (dropSemicolon terminals) = weight terminals := by
  cases terminals with
  | nil => rfl
  | cons terminal rest =>
    rw [dropSemicolon]
    split
    · next isSemicolon => simp [isSemicolon, Kind.weight]
    · rfl

theorem weight_tail_le (terminals : List Terminal) :
    weight terminals.tail ≤ weight terminals + 1 := by
  cases terminals with
  | nil => decide
  | cons terminal rest =>
    have atLeast := terminal.kind.neg_one_le_weight
    simp only [List.tail_cons, weight_cons]
    omega

theorem ReadsMoreNames.weight_eq {terminals rest : List Terminal} {names : List String}
    (reads : ReadsMoreNames terminals names rest) : weight terminals = weight rest := by
  induction reads with
  | stop => rfl
  | next isComma isName _ inductionHypothesis =>
    simpa [isComma, isName, Kind.weight] using inductionHypothesis

theorem ReadsNames.weight_eq {terminals rest : List Terminal} {names : List String}
    (reads : ReadsNames terminals names rest) : weight terminals = weight rest := by
  cases reads with
  | none isClose => simp [isClose, Kind.weight]
  | some isName more isClose =>
    have moreEq := more.weight_eq
    simpa [isName, isClose, Kind.weight] using moreEq

/-- What a phrase may close beyond what it opens. -/
def Phrase.weight : Phrase → Int
  | .items close _ => close.weight
  | _ => 0

/-- A phrase that is read opens at least as many braces as it closes. -/
theorem Reads.weight_le {phrase : Phrase} {terminals rest : List Terminal}
    (reads : Reads phrase terminals rest) :
    weight rest + phrase.weight ≤ weight terminals := by
  induction reads with
  | function isWord isParen names _ body =>
    have namesEq := names.weight_eq
    simp only [Phrase.weight, weight_cons, isWord, isParen, Kind.weight] at body ⊢
    omega
  | unary isSign _ operand =>
    simp only [Phrase.weight, weight_cons, isSign, UnaryOperator.weight_kind] at operand ⊢
    omega
  | operation isSign _ _ _ right more =>
    simp only [Phrase.weight, weight_cons, isSign, BinaryOperator.weight_kind] at right more ⊢
    omega
  | @block _ _ _ rest isBrace _ body =>
    -- Whatever ends the block takes back no more than its opening brace.
    have closed := weight_tail_le rest
    simp only [Phrase.weight, weight_cons, isBrace, Kind.weight] at body ⊢
    omega
  | _ => simp only [Phrase.weight, weight_cons, weight_dropSemicolon, Kind.weight, *] at *; omega

/-! ### What is behind a phrase -/

/-- The terminals do not end with a semicolon. -/
def Closed (terminals : List Terminal) : Prop :=
  ∀ last ∈ terminals.getLast?, last.kind ≠ .semicolon

theorem closed_nil : Closed [] :=
  nofun

/-- Only the last terminal counts. -/
theorem closed_concat (terminals : List Terminal) {last : Terminal} {kind : Kind}
    (isKind : last.kind = kind) (other : kind ≠ .semicolon) : Closed (terminals ++ [last]) := by
  intro found isLast
  rw [List.getLast?_concat] at isLast
  obtain rfl := Option.some.inj isLast
  rwa [isKind]

theorem Closed.append {left right : List Terminal} (closed : Closed left)
    (closed' : Closed right) : Closed (left ++ right) := by
  intro last isLast
  rw [List.getLast?_append] at isLast
  cases found : right.getLast? with
  | none => exact closed last (by rwa [found] at isLast)
  | some found' => exact closed' last (by rwa [found] at isLast ⊢)

theorem Closed.cons {first : Terminal} {rest : List Terminal} {kind : Kind}
    (isKind : first.kind = kind) (other : kind ≠ .semicolon) (closed : Closed rest) :
    Closed (first :: rest) :=
  (closed_concat [] isKind other).append closed

theorem headKind_append {front rest rest' : List Terminal}
    (head : headKind rest' = headKind rest) :
    headKind (front ++ rest') = headKind (front ++ rest) := by
  cases front with
  | nil => exact head
  | cons => rfl

/-- Of what is behind, reading depends on the kind of the next terminal only. The terminals that
are taken are closed if so claimed. -/
def Local (closed : Prop) (reads : List Terminal → List Terminal → Prop)
    (terminals rest : List Terminal) : Prop :=
  ∃ front, terminals = front ++ rest ∧ (closed → Closed front) ∧
    ∀ rest', headKind rest' = headKind rest → reads (front ++ rest') rest'

namespace Local

variable {closed : Prop} {reads reads' : List Terminal → List Terminal → Prop}
  {terminals middle rest : List Terminal}

theorem imp (first : Local closed reads terminals rest)
    (rule : ∀ terminals' rest', headKind terminals' = headKind terminals →
      headKind rest' = headKind rest → reads terminals' rest' → reads' terminals' rest') :
    Local closed reads' terminals rest := by
  obtain ⟨front, rfl, isClosed, follows⟩ := first
  exact ⟨front, rfl, isClosed,
    fun rest' head => rule _ _ (headKind_append head) head (follows rest' head)⟩

/-- Nothing is taken, but the next terminal may be looked at. -/
theorem nothing (follows : ∀ rest', headKind rest' = headKind rest → reads rest' rest') :
    Local closed reads rest rest :=
  ⟨[], rfl, fun _ => closed_nil, follows⟩

theorem single {first : Terminal} {kind : Kind} (isKind : first.kind = kind)
    (other : kind ≠ .semicolon) (follows : ∀ rest, reads (first :: rest) rest) :
    Local closed reads (first :: rest) rest :=
  ⟨[first], rfl, fun _ => closed_concat [] isKind other, fun rest' _ => follows rest'⟩

/-- A terminal in front. -/
theorem opening {first : Terminal} {kind : Kind} (inside : Local closed reads terminals rest)
    (isKind : first.kind = kind) (other : kind ≠ .semicolon) :
    Local closed (fun terminals rest => ∃ inside, terminals = first :: inside ∧ reads inside rest)
      (first :: terminals) rest := by
  obtain ⟨front, rfl, isClosed, follows⟩ := inside
  exact ⟨first :: front, rfl, fun all => (isClosed all).cons isKind other,
    fun rest' head => ⟨front ++ rest', rfl, follows rest' head⟩⟩

/-- A terminal behind. -/
theorem closing {last : Terminal} {kind : Kind} {closed' : Prop}
    (inside : Local closed reads terminals (last :: rest)) (isKind : last.kind = kind)
    (other : kind ≠ .semicolon) :
    Local closed' (fun terminals rest => reads terminals (last :: rest)) terminals rest := by
  obtain ⟨front, rfl, -, follows⟩ := inside
  refine ⟨front ++ [last], List.append_cons .., fun _ => closed_concat front isKind other,
    fun rest' _ => ?_⟩
  rw [← List.append_cons]
  exact follows (last :: rest') rfl

/-- One behind another. -/
theorem andThen (first : Local closed reads terminals middle)
    (second : Local closed reads' middle rest) :
    Local closed (fun terminals rest => ∃ middle', headKind middle' = headKind middle ∧
      reads terminals middle' ∧ reads' middle' rest) terminals rest := by
  obtain ⟨right, rfl, isClosed', follows'⟩ := second
  obtain ⟨left, rfl, isClosed, follows⟩ := first
  refine ⟨left ++ right, (List.append_assoc ..).symm,
    fun all => (isClosed all).append (isClosed' all), fun rest' head => ?_⟩
  have middle : headKind (right ++ rest') = headKind (right ++ rest) := headKind_append head
  rw [List.append_assoc]
  exact ⟨right ++ rest', middle, follows _ middle, follows' rest' head⟩

theorem ne_nil (first : Local closed reads terminals rest) (more : rest ≠ []) :
    terminals ≠ [] := by
  obtain ⟨front, rfl, -⟩ := first
  exact List.append_ne_nil_of_right_ne_nil front more

end Local

theorem ReadsMoreNames.local {terminals rest : List Terminal} {names : List String}
    (reads : ReadsMoreNames terminals names rest) :
    Local True (ReadsMoreNames · names ·) terminals rest := by
  induction reads with
  | stop noComma => exact .nothing fun rest' head => .stop (head ▸ noComma)
  | next isComma isName _ inductionHypothesis =>
    refine ((inductionHypothesis.opening isName (by decide)).opening isComma (by decide)).imp ?_
    rintro _ _ - - ⟨_, rfl, _, rfl, more⟩
    exact .next isComma isName more

theorem ReadsNames.local {terminals rest : List Terminal} {names : List String}
    (reads : ReadsNames terminals names rest) :
    Local True (ReadsNames · names ·) terminals rest := by
  cases reads with
  | none isClose => exact .single isClose (by decide) fun _ => .none isClose
  | some isName more isClose =>
    refine ((more.local.closing isClose (by decide)).opening isName (by decide)).imp ?_
    rintro _ _ - - ⟨_, rfl, more⟩
    exact .some isName more isClose

/-! ### Phrases -/

/-- The same of a statement with its semicolon, except that nothing at all depends on what is behind
if there is one. -/
def Ended (reads : List Terminal → List Terminal → Prop) (terminals rest : List Terminal) : Prop :=
  ∃ front, terminals = front ++ rest ∧
    ∀ rest', headKind rest' = headKind rest ∨ ¬Closed front → reads (front ++ rest') rest'

section Ended

variable {reads reads' : List Terminal → List Terminal → Prop} {terminals rest : List Terminal}

theorem Ended.local (ended : Ended reads terminals rest) : Local False reads terminals rest := by
  obtain ⟨front, same, follows⟩ := ended
  exact ⟨front, same, nofun, fun rest' head => follows rest' (.inl head)⟩

/-- A semicolon that is there is taken, and one that is not there is not missed. -/
theorem Local.ended (first : Local True reads terminals rest) (more : rest ≠ [])
    (rule : ∀ terminals' rest', headKind terminals' = headKind terminals →
      reads terminals' rest' → reads' terminals' (dropSemicolon rest')) :
    Ended reads' terminals (dropSemicolon rest) := by
  obtain ⟨front, rfl, isClosed, follows⟩ := first
  obtain ⟨next, behind, rfl⟩ := List.exists_cons_of_ne_nil more
  by_cases isSemicolon : next.kind = .semicolon
  · have dropped (rest' : List Terminal) : dropSemicolon (next :: rest') = rest' :=
      if_pos isSemicolon
    refine ⟨front ++ [next], ?_, fun rest' _ => ?_⟩
    · rw [dropped, ← List.append_cons]
    · rw [← List.append_cons]
      have head : headKind (next :: rest') = headKind (next :: behind) := rfl
      have follows' := rule _ _ (headKind_append head) (follows (next :: rest') head)
      rwa [dropped] at follows'
  · have kept {rest' : List Terminal} (head : headKind rest' = next.kind) :
        dropSemicolon rest' = rest' := by
      cases rest' with
      | nil => rfl
      | cons next' rest' => exact if_neg (fun same => isSemicolon (head.symm.trans same))
    refine ⟨front, by rw [kept rfl], fun rest' seen => ?_⟩
    rw [kept rfl] at seen
    have head := seen.resolve_right (not_not_intro (isClosed trivial))
    have follows' := rule _ _ (headKind_append head) (follows rest' head)
    rwa [kept head] at follows'

end Ended

/-- What is so said of each phrase. -/
def ReadsLocally (phrase : Phrase) (terminals rest : List Terminal) : Prop :=
  match phrase with
  | .statement _ => Ended (Reads phrase) terminals rest
  | .statements .. => Local False (Reads phrase) terminals rest
  | .items close _ => close ≠ .semicolon → Local True (Reads phrase) terminals rest
  | _ => Local True (Reads phrase) terminals rest

/-- Statements go on up to where they are to stop. -/
theorem Reads.stops {stops : Kind → Bool} {trees : List Statement}
    {terminals rest : List Terminal} (reads : Reads (.statements stops trees) terminals rest) :
    stops (headKind rest) = true := by
  induction trees generalizing terminals with
  | nil =>
    cases reads with
    | noStatements stop => exact stop
  | cons _ _ inductionHypothesis =>
    cases reads with
    | statements _ _ more => exact inductionHypothesis more

theorem ne_nil_of_dropSemicolon {terminals : List Terminal} (more : dropSemicolon terminals ≠ []) :
    terminals ≠ [] := by
  rintro rfl
  exact more rfl

/-- Everything is read locally, as long as something is behind it. -/
theorem Reads.local {phrase : Phrase} {terminals rest : List Terminal}
    (reads : Reads phrase terminals rest) (more : rest ≠ []) :
    ReadsLocally phrase terminals rest := by
  have some {first : Terminal} {rest : List Terminal} : first :: rest ≠ [] :=
    List.cons_ne_nil first rest
  induction reads with
  | expression _ _ operand continuations =>
    have second := continuations more
    refine ((operand (second.ne_nil more)).andThen second).imp ?_
    rintro _ _ - - ⟨_, -, operand, continuations⟩
    exact .expression operand continuations
  | identifier isName => exact .single isName (by decide) fun _ => .identifier isName
  | integer isInteger value =>
    exact .single isInteger (by decide) fun _ => .integer isInteger value
  | string isString => exact .single isString (by decide) fun _ => .string isString
  | trueWord isWord => exact .single isWord (by decide) fun _ => .trueWord isWord
  | falseWord isWord => exact .single isWord (by decide) fun _ => .falseWord isWord
  | @unary _ operator _ _ _ isSign _ operand =>
    have other : operator.kind ≠ .semicolon := by cases operator <;> decide
    refine ((operand more).opening isSign other).imp ?_
    rintro _ _ - - ⟨_, rfl, operand⟩
    exact .unary isSign operand
  | grouped isParen _ isClose inside =>
    refine (((inside some).closing isClose (by decide)).opening isParen (by decide)).imp ?_
    rintro _ _ - - ⟨_, rfl, inside⟩
    exact .grouped isParen inside isClose
  | conditional isWord isParen _ isClose _ noElse condition block =>
    refine (((((condition some).closing isClose (by decide)).andThen (block more)).opening
      isParen (by decide)).opening isWord (by decide)).imp ?_
    rintro _ _ - head ⟨_, rfl, _, rfl, _, -, condition, block⟩
    exact .conditional isWord isParen condition isClose block (head ▸ noElse)
  | alternative isWord isParen _ isClose _ isElse _ condition block block' =>
    refine (((((condition some).closing isClose (by decide)).andThen
      (((block some).closing isElse (by decide)).andThen (block' more))).opening isParen
      (by decide)).opening isWord (by decide)).imp ?_
    rintro _ _ - - ⟨_, rfl, _, rfl, _, -, condition, _, -, block, block'⟩
    exact .alternative isWord isParen condition isClose block isElse block'
  | function isWord isParen names _ block =>
    refine (((names.local.andThen (block more)).opening isParen (by decide)).opening isWord
      (by decide)).imp ?_
    rintro _ _ - - ⟨_, rfl, _, rfl, _, -, names, block⟩
    exact .function isWord isParen names block
  | array isBracket _ items =>
    refine ((items more (by decide)).opening isBracket (by decide)).imp ?_
    rintro _ _ - - ⟨_, rfl, items⟩
    exact .array isBracket items
  | hash isBrace _ isClose pairs =>
    refine (((pairs some).closing isClose (by decide)).opening isBrace (by decide)).imp ?_
    rintro _ _ - - ⟨_, rfl, pairs⟩
    exact .hash isBrace pairs isClose
  | halt halts =>
    refine .nothing fun _ head => .halt ?_
    rwa [Parser.Halts, head]
  | @operation _ _ operator _ _ _ _ _ _ isSign tighter _ _ right continuations =>
    have other : operator.kind ≠ .semicolon := by cases operator <;> decide
    have second := continuations more
    refine (((right (second.ne_nil more)).andThen second).opening isSign other).imp ?_
    rintro _ _ - - ⟨_, rfl, _, -, right, continuations⟩
    exact .operation isSign tighter right continuations
  | call isParen tighter _ _ items continuations =>
    have second := continuations more
    have first := items (second.ne_nil more) (by decide)
    refine ((first.andThen second).opening isParen (by decide)).imp ?_
    rintro _ _ - - ⟨_, rfl, _, -, items, continuations⟩
    exact .call isParen tighter items continuations
  | index isBracket tighter _ isClose _ position continuations =>
    refine ((((position some).closing isClose (by decide)).andThen
      (continuations more)).opening isBracket (by decide)).imp ?_
    rintro _ _ - - ⟨_, rfl, _, -, position, continuations⟩
    exact .index isBracket tighter position isClose continuations
  | noItems noEnd => exact fun other => .single rfl other fun _ => .noItems noEnd
  | items noEnd isMore _ _ first moreItems =>
    intro other
    have rest := moreItems some
    refine (((first (rest.ne_nil some)).andThen rest).closing rfl other).imp ?_
    rintro _ _ head - ⟨_, -, first, moreItems⟩
    exact .items noEnd (head ▸ isMore) first moreItems
  | lastItem noComma => exact .nothing fun _ head => .lastItem (head ▸ noComma)
  | nextItem isComma _ _ item items =>
    have second := items more
    refine (((item (second.ne_nil more)).andThen second).opening isComma (by decide)).imp ?_
    rintro _ _ - - ⟨_, rfl, _, -, item, items⟩
    exact .nextItem isComma item items
  | noPairs isClose => exact .nothing fun _ head => .noPairs (head.trans isClose)
  | lastPair isMore _ isColon _ isClose key value =>
    refine (((key some).closing isColon (by decide)).andThen (value more)).imp ?_
    rintro _ _ head last ⟨_, -, key, value⟩
    exact .lastPair (head ▸ isMore) key isColon value (last.trans isClose)
  | nextPair isMore _ isColon _ isComma _ key value pairs =>
    refine (((key some).closing isColon (by decide)).andThen
      (((value some).closing isComma (by decide)).andThen (pairs more))).imp ?_
    rintro _ _ head - ⟨_, -, key, _, -, value, pairs⟩
    exact .nextPair (head ▸ isMore) key isColon value isComma pairs
  | binding isWord isName isAssign _ value =>
    have behind := ne_nil_of_dropSemicolon more
    refine ((((value behind).opening isAssign (by decide)).opening isName (by decide)).opening
      isWord (by decide)).ended behind ?_
    rintro _ _ - ⟨_, rfl, _, rfl, _, rfl, value⟩
    exact .binding isWord isName isAssign value
  | returning isWord _ value =>
    have behind := ne_nil_of_dropSemicolon more
    refine ((value behind).opening isWord (by decide)).ended behind ?_
    rintro _ _ - ⟨_, rfl, value⟩
    exact .returning isWord value
  | evaluated noLet noReturn _ value =>
    have behind := ne_nil_of_dropSemicolon more
    exact (value behind).ended behind fun _ _ head value =>
      .evaluated (head ▸ noLet) (head ▸ noReturn) value
  | noStatements stop => exact .nothing fun _ head => .noStatements (head ▸ stop)
  | statements goesOn _ _ statement statements =>
    have second := statements more
    refine ((statement (second.ne_nil more)).local.andThen second).imp ?_
    rintro _ _ head - ⟨_, -, statement, statements⟩
    exact .statements (head ▸ goesOn) statement statements
  | @block _ _ _ rest isBrace body inside =>
    obtain ⟨last, behind, rfl⟩ : ∃ last behind, rest = last :: behind :=
      List.exists_cons_of_ne_nil fun same => more (congrArg List.tail same)
    -- A block that is not cut off by the end of all terminals ends with a brace.
    have other : last.kind ≠ .semicolon := by
      intro isSemicolon
      have stops : Parser.endsBlock last.kind = true := body.stops
      rw [isSemicolon] at stops
      exact absurd stops (by decide)
    refine (((inside some).closing rfl other).opening isBrace (by decide)).imp ?_
    rintro _ _ - - ⟨_, rfl, body⟩
    exact .block isBrace body

/-! ### Programs behind one another -/

/-- Terminals behind which no block and no statement goes on, if they are those of a program that
reads cleanly. -/
structure Terminated (terminals : List Terminal) : Prop where
  more : ∀ terminal ∈ terminals, terminal.kind ≠ .endOfInput
  balanced : weight terminals = 0
  semicolon : ∃ last, terminals.getLast? = some last ∧ last.kind = .semicolon

namespace Terminated

variable {terminals : List Terminal} (terminated : Terminated terminals)

include terminated

theorem not_closed : ¬Closed terminals := by
  obtain ⟨last, isLast, isSemicolon⟩ := terminated.semicolon
  exact fun closed => closed last isLast isSemicolon

theorem ne_string : ∀ terminal ∈ terminals.getLast?, terminal.kind ≠ .string := by
  obtain ⟨last, isLast, isSemicolon⟩ := terminated.semicolon
  intro terminal isLast'
  obtain rfl : last = terminal := Option.some.inj (isLast.symm.trans isLast')
  rw [isSemicolon]
  decide

theorem ne_nil : terminals ≠ [] := by
  rintro rfl
  exact terminated.not_closed closed_nil

end Terminated

theorem headKind_append_of_ne_nil {front : List Terminal} (some : front ≠ [])
    (rest rest' : List Terminal) : headKind (front ++ rest) = headKind (front ++ rest') := by
  cases front with
  | nil => exact absurd rfl some
  | cons => rfl

theorem Closed.append_left {right : List Terminal} (closed : Closed right) (some : right ≠ [])
    (left : List Terminal) : Closed (left ++ right) := by
  rwa [Closed, List.getLast?_append, List.getLast?_eq_some_getLast some, Option.some_or,
    ← List.getLast?_eq_some_getLast some]

/-- Reads statements one behind another, each of them in front of something to be read. -/
inductive ReadsInTurn : List Statement → List Terminal → List Terminal → Prop
  | nothing {terminals : List Terminal} : ReadsInTurn [] terminals terminals
  | next {tree : Statement} {trees : List Statement} {terminals middle rest : List Terminal} :
      endsProgram (headKind terminals) = false → Reads (.statement tree) terminals middle →
      ReadsInTurn trees middle rest → ReadsInTurn (tree :: trees) terminals rest

/-- What follows is read behind them. -/
theorem ReadsInTurn.andThen {trees more : List Statement} {terminals middle last : List Terminal}
    (reads : ReadsInTurn trees terminals middle)
    (follows : Reads (.statements endsProgram more) middle last) :
    Reads (.statements endsProgram (trees ++ more)) terminals last := by
  induction reads with
  | nothing => exact follows
  | next goesOn statement _ inductionHypothesis =>
    exact .statements goesOn statement (inductionHypothesis follows)

/-- Statements that end with a semicolon, if there are any, are read in front of everything. -/
theorem Reads.inTurn {trees : List Statement} {front rest : List Terminal}
    (reads : Reads (.statements endsProgram trees) (front ++ rest) rest) (behind : rest ≠ [])
    (semicolon : front ≠ [] → ¬Closed front) (terminals : List Terminal) :
    ReadsInTurn trees (front ++ terminals) terminals := by
  have stops := reads.stops
  generalize whole : front ++ rest = ahead at reads
  induction trees generalizing front ahead with
  | nil =>
    cases reads with
    | noStatements =>
      obtain rfl : front = [] := List.append_left_eq_self.mp whole
      exact .nothing
  | cons tree trees inductionHypothesis =>
    cases reads with
    | statements goesOn statement statements =>
      obtain ⟨right, rfl, -⟩ : Local False _ _ _ := statements.local behind
      obtain ⟨left, rfl, readsLeft⟩ : Ended _ _ _ :=
        statement.local (List.append_ne_nil_of_right_ne_nil right behind)
      obtain rfl : front = left ++ right :=
        List.append_cancel_right (whole.trans (List.append_assoc ..).symm)
      have some : left ++ right ≠ [] := by
        intro none
        rw [← List.append_assoc, none, List.nil_append, stops] at goesOn
        exact absurd goesOn nofun
      have goesOn' : endsProgram (headKind (left ++ right ++ terminals)) = false := by
        rwa [headKind_append_of_ne_nil some terminals rest, List.append_assoc]
      have first : Reads (.statement tree) (left ++ (right ++ terminals)) (right ++ terminals) := by
        refine readsLeft _ ?_
        by_cases none : right = []
        · subst none
          rw [List.append_nil] at semicolon some
          exact .inr (semicolon some)
        · exact .inl (headKind_append_of_ne_nil none terminals rest)
      have semicolon' : right ≠ [] → ¬Closed right :=
        fun some' closed => semicolon some (closed.append_left some' left)
      rw [← List.append_assoc] at first
      exact .next goesOn' first (inductionHypothesis semicolon' _ rfl statements)

/-- A program that has as many opening as closing braces is read up to the end of input, so that no
block in it is still open. -/
theorem Reads.rest_eq {trees : List Statement} {front rest : List Terminal} {last : Terminal}
    (reads : Reads (.statements endsProgram trees) (front ++ [last]) rest)
    (isLast : last.kind = .endOfInput) (more : ∀ terminal ∈ front, terminal.kind ≠ .endOfInput)
    (balanced : weight front = 0) : rest = [last] := by
  have behind : rest ≠ [] := by
    rintro rfl
    have closed : (0 : Int) ≤ weight (front ++ [last]) := reads.weight_le
    simp only [weight_append, weight_cons, balanced, isLast] at closed
    exact absurd closed (by decide)
  obtain ⟨taken, same, -⟩ : Local False _ _ _ := reads.local behind
  have stops := reads.stops
  obtain ⟨before, rfl, isSuffix⟩ :=
    (List.suffix_concat_iff.mp ⟨taken, same.symm⟩).resolve_left behind
  cases before with
  | nil => rfl
  | cons first others =>
    have isEnd : first.kind = .endOfInput := by simpa [endsProgram] using stops
    exact absurd isEnd (more first (isSuffix.subset List.mem_cons_self))

end MonkeyLang
