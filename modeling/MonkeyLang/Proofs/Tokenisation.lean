/-
This file proves that scanning loses nothing. Every source is made up of layout
and of the raw texts of its tokens, in the order of the tokens, and each raw
text reaches as far as it can: words and integers are whole runs, `==` and `!=`
are never split, and a string ends with the first quote.

That a run is whole towards what stands in front of it is no matter of the piece
alone. The induction carries along that the place where scanning has arrived is
in no run.

The last part compares a piece with all the forms a lexeme can have. It is the
longest beginning of the text that has one, and it is a single unknown character
only where no beginning has.
-/

import MonkeyLang.Proofs.Scanning

namespace MonkeyLang

open Text

/-! ### Where a token stands -/

/-- A run of a class that goes on neither to the front nor to the back. -/
structure WholeRun (holds : Char → Bool) (before raw after : List Char) : Prop where
  nonempty : raw ≠ []
  all : ∀ c ∈ raw, holds c = true
  starts : ∀ c ∈ before.getLast?, holds c = false
  stops : ∀ c ∈ after.head?, holds c = false

/-- A token with its characters in a source, between those in front of it and those behind it. -/
inductive Token.Stands (before : List Char) : Token → (raw after : List Char) → Prop
  /-- A word of the table is the keyword it is there. -/
  | keyword {raw after : List Char} {kind : Kind} {line : Nat} :
      WholeRun isLetter before raw after → (String.ofList raw, kind) ∈ keywords →
      Stands before ⟨kind, String.ofList raw, line⟩ raw after
  /-- Every other word is an identifier. -/
  | identifier {raw after : List Char} {line : Nat} :
      WholeRun isLetter before raw after → String.ofList raw ∉ keywords.map Prod.fst →
      Stands before ⟨.identifier, String.ofList raw, line⟩ raw after
  | integer {raw after : List Char} {line : Nat} : WholeRun isDigit before raw after →
      Stands before ⟨.integer, String.ofList raw, line⟩ raw after
  | closedString {inside after : List Char} {line : Nat} : '"' ∉ inside →
      Stands before ⟨.string, String.ofList inside, line⟩ ('"' :: (inside ++ ['"'])) after
  /-- Only at the end of the source a string may lack its second quote. -/
  | openString {inside : List Char} {line : Nat} : '"' ∉ inside →
      Stands before ⟨.string, String.ofList inside, line⟩ ('"' :: inside) []
  /-- Neither `=` nor `!` stands alone in front of `=`. -/
  | sign {kind : Kind} {after : List Char} {line : Nat} : kind ∈ signKinds →
      (kind = .assign ∨ kind = .bang → after.head? ≠ some '=') →
      Stands before ⟨kind, kind.name, line⟩ kind.name.toList after
  /-- A character that is in no class, no quote and no sign. -/
  | illegal {c : Char} {after : List Char} {line : Nat} : c ∉ layout → isLetter c = false →
      isDigit c = false → c ≠ '"' → (∀ kind ∈ signKinds, kind.name.toList ≠ [c]) →
      Stands before ⟨.illegal, String.singleton c, line⟩ [c] after

/-- No run of the class goes on here. -/
def ApartIn (holds : Char → Bool) (before rest : List Char) : Prop :=
  ∀ c ∈ before.getLast?, holds c = true → ∀ next ∈ rest.head?, holds next = false

/-- Neither a word nor an integer goes on here. -/
structure Apart (before rest : List Char) : Prop where
  letters : ApartIn isLetter before rest
  digits : ApartIn isDigit before rest

section Runs

variable {holds other : Char → Bool} {before raw rest : List Char}

/-- No run goes on behind what does not end with a character of the class. -/
theorem apartIn_of_notMem (nonempty : raw ≠ []) (outside : ∀ c ∈ raw.getLast?, other c = false) :
    ApartIn other (before ++ raw) rest := by
  intro c isLast isIn
  rw [List.getLast?_append, List.getLast?_eq_some_getLast nonempty, Option.some_or] at isLast
  rw [List.getLast?_eq_some_getLast nonempty] at outside
  exact absurd (isIn.symm.trans (outside c isLast)) nofun

/-- What stands where no run goes on, and what is a run up to the rest, is a whole run. -/
theorem ApartIn.wholeRun (apart : ApartIn holds before (raw ++ rest)) (nonempty : raw ≠ [])
    (all : ∀ c ∈ raw, holds c = true) (stops : ∀ c ∈ rest.head?, holds c = false) :
    WholeRun holds before raw rest := by
  refine ⟨nonempty, all, fun c isLast => ?_, stops⟩
  obtain ⟨first, tail, rfl⟩ := List.exists_cons_of_ne_nil nonempty
  have isIn := all first List.mem_cons_self
  cases found : holds c with
  | true => exact absurd (isIn.symm.trans (apart c isLast found first rfl)) nofun
  | false => rfl

/-- Behind a whole run the run does not go on. -/
theorem WholeRun.apartIn (run : WholeRun holds before raw rest) :
    ApartIn holds (before ++ raw) rest :=
  fun _ _ _ => run.stops

/-- Behind a whole run no run of another class goes on. -/
theorem WholeRun.apartIn_of_disjoint (run : WholeRun holds before raw rest)
    (disjoint : ∀ c, holds c = true → other c = false) : ApartIn other (before ++ raw) rest :=
  apartIn_of_notMem run.nonempty fun c isLast =>
    disjoint c (run.all c (List.mem_of_mem_getLast? isLast))

/-- Behind a character of neither class no run goes on. -/
theorem apart_of_neither {c : Char} (isLast : raw.getLast? = some c)
    (neither : isLetter c = false ∧ isDigit c = false) : Apart (before ++ raw) rest := by
  have nonempty : raw ≠ [] := by
    rintro rfl
    exact absurd isLast nofun
  constructor <;> refine apartIn_of_notMem nonempty fun last member => ?_
  · obtain rfl := Option.some.inj (isLast.symm.trans member)
    exact neither.1
  · obtain rfl := Option.some.inj (isLast.symm.trans member)
    exact neither.2

end Runs

/-! ### One piece -/

/-- A word is a keyword of the table, or it is not in the table and an identifier. -/
theorem Kind.ofWord_cases (word : String) :
    (word, Kind.ofWord word) ∈ keywords ∨
      Kind.ofWord word = .identifier ∧ word ∉ keywords.map Prod.fst := by
  unfold Kind.ofWord
  cases found : keywords.lookup word with
  | none =>
    refine .inr ⟨rfl, fun member => ?_⟩
    obtain ⟨keyword, isKeyword, rfl⟩ := List.mem_map.mp member
    have other := List.lookup_eq_none_iff.mp found keyword isKeyword
    exact absurd rfl (bne_iff_ne.mp other)
  | some kind =>
    obtain ⟨front, back, same, -⟩ := List.lookup_eq_some_iff.mp found
    rw [same]
    exact .inl (List.mem_append_right _ List.mem_cons_self)

theorem Lexeme.token_of_ne {kind : Kind} {raw : List Char} {line : Nat}
    (other : kind ≠ .string) : token ⟨kind, raw, line⟩ = ⟨kind, String.ofList raw, line⟩ := by
  unfold token text
  split
  · contradiction
  · rfl

theorem Lexeme.token_string {inside : List Char} (noQuote : '"' ∉ inside)
    (ending : List Char) (quote : ending = [] ∨ ending = ['"']) (line : Nat) :
    token ⟨.string, '"' :: (inside ++ ending), line⟩ = ⟨.string, String.ofList inside, line⟩ := by
  have stops : ∀ c ∈ ending.head?, (c != '"') = false := by
    rcases quote with rfl | rfl
    · exact nofun
    · rintro _ ⟨⟩
      rfl
  have run := takeWhile_append_of_head (bne_of_noQuote noQuote) stops
  show Token.mk _ (String.ofList _) _ = _
  rw [List.drop_succ_cons, List.drop_zero, run]

/-- A piece of a source stands there as its token, and no run goes on behind it. -/
theorem Lexeme.Cut.stands {before raw rest : List Char} {kind : Kind} (cut : Cut kind raw rest)
    (apart : Apart before (raw ++ rest)) (noLayout : ∀ c ∈ raw.head?, c ∉ layout) (line : Nat) :
    (token ⟨kind, raw, line⟩).Stands before raw rest ∧ Apart (before ++ raw) rest := by
  cases cut with
  | word nonempty letters stops =>
    have run := apart.letters.wholeRun nonempty letters stops
    rw [token_of_ne (Kind.ofWord_ne (by decide))]
    refine ⟨?_, run.apartIn, run.apartIn_of_disjoint fun c isIn => ?_⟩
    · rcases Kind.ofWord_cases (String.ofList raw) with isKeyword | ⟨same, noKeyword⟩
      · exact .keyword run isKeyword
      · rw [same]
        exact .identifier run noKeyword
    · cases digit : isDigit c with
      | true => exact absurd (isIn.symm.trans (isLetter_eq_false_of_isDigit digit)) nofun
      | false => rfl
  | integer nonempty digits stops =>
    have run := apart.digits.wholeRun nonempty digits stops
    rw [token_of_ne (by decide)]
    exact ⟨.integer run, run.apartIn_of_disjoint fun _ => isLetter_eq_false_of_isDigit,
      run.apartIn⟩
  | @closedString inside _ noQuote =>
    rw [token_string noQuote _ (.inr rfl)]
    refine ⟨.closedString noQuote, apart_of_neither (c := '"') ?_ (by decide)⟩
    rw [← List.cons_append, List.getLast?_concat]
  | @openString inside noQuote =>
    have same := token_string noQuote [] (.inl rfl) line
    rw [List.append_nil] at same
    rw [same]
    have noRun (holds : Char → Bool) : ApartIn holds (before ++ '"' :: inside) [] :=
      fun _ _ _ _ isNext => absurd isNext nofun
    exact ⟨.openString noQuote, noRun _, noRun _⟩
  | equal =>
    exact ⟨Token.Stands.sign (show Kind.equal ∈ signKinds by decide)
        fun isShort => absurd isShort (by decide),
      apart_of_neither rfl (by decide)⟩
  | notEqual =>
    exact ⟨Token.Stands.sign (show Kind.notEqual ∈ signKinds by decide)
        fun isShort => absurd isShort (by decide),
      apart_of_neither rfl (by decide)⟩
  | @single c _ noLetter noDigit noQuote noSign =>
    refine ⟨?_, apart_of_neither rfl ⟨noLetter, noDigit⟩⟩
    rcases kindOfSingle_cases c with ⟨isSign, same⟩ | ⟨isIllegal, noKind⟩
    · have other : kindOfSingle c ≠ .string := fun isString =>
        absurd (isString ▸ isSign) (by decide)
      rw [token_of_ne other, ← same, String.ofList_toList]
      refine .sign isSign fun isKind => noSign ?_
      rcases isKind with isKind | isKind <;> rw [isKind] at same
      · exact .inl (List.cons.inj same).1.symm
      · exact .inr (List.cons.inj same).1.symm
    · rw [isIllegal, token_of_ne (by decide)]
      exact .illegal (noLayout c rfl) noLetter noDigit noQuote noKind

/-- No token that stands in a source is the end of input. -/
theorem Token.Stands.ne_endOfInput {before raw after : List Char} {token : Token}
    (stands : token.Stands before raw after) : token.kind ≠ .endOfInput := by
  cases stands with
  | keyword _ isKeyword =>
    have all : ∀ keyword ∈ keywords, keyword.2 ≠ .endOfInput := by decide
    exact all _ isKeyword
  | @sign kind _ _ isSign _ =>
    have all : ∀ kind ∈ signKinds, kind ≠ .endOfInput := by decide
    exact all kind isSign
  | _ => exact nofun

/-! ### Whole sources -/

/-- A token with the layout in front of it and its own characters. -/
structure Portion where
  gap : List Char
  raw : List Char
  token : Token

/-- The characters that portions take up. -/
def sourceOfPortions (portions : List Portion) : List Char :=
  portions.flatMap fun portion => portion.gap ++ portion.raw

/-- In a text that stands behind another, each portion stands as its token, behind nothing but
layout. -/
def PortionsStand (before : List Char) (portions : List Portion) (ending : List Char) : Prop :=
  ∀ front portion back, portions = front ++ portion :: back → (∀ c ∈ portion.gap, c ∈ layout) ∧
    portion.token.Stands (before ++ sourceOfPortions front ++ portion.gap) portion.raw
      (sourceOfPortions back ++ ending)

theorem PortionsStand.nil {before ending : List Char} : PortionsStand before [] ending :=
  fun front _ _ split => absurd split.symm (List.append_ne_nil_of_right_ne_nil front nofun)

theorem PortionsStand.cons {before ending : List Char} {portion : Portion}
    {portions : List Portion} (layouts : ∀ c ∈ portion.gap, c ∈ layout)
    (stands : portion.token.Stands (before ++ portion.gap) portion.raw
      (sourceOfPortions portions ++ ending))
    (others : PortionsStand (before ++ portion.gap ++ portion.raw) portions ending) :
    PortionsStand before (portion :: portions) ending := by
  intro front each back split
  cases front with
  | nil =>
    obtain ⟨rfl, rfl⟩ := List.cons.inj split
    simpa [sourceOfPortions] using And.intro layouts stands
  | cons first front =>
    obtain ⟨rfl, rfl⟩ := List.cons.inj split
    simpa [sourceOfPortions] using others front each back rfl

/-- Layout is what scanning skips. -/
theorem mem_layout_iff {c : Char} : c ∈ layout ↔ c = '\n' ∨ isBlank c = true := by
  simp [layout, isBlank, or_assoc]

/-- One more character of layout is passed. -/
theorem Apart.behind_layout {gap : List Char} {c : Char} (isLayout : c ∈ layout)
    (layouts : ∀ c ∈ gap, c ∈ layout) (before rest : List Char) :
    (∀ d ∈ gap ++ [c], d ∈ layout) ∧ Apart (before ++ (gap ++ [c])) rest := by
  have outside {holds : Char → Bool} (none : layout.any holds = false) : holds c = false :=
    Bool.not_eq_true _ ▸ List.any_eq_false.mp none c isLayout
  refine ⟨List.forall_mem_append.mpr ⟨layouts, by simpa using isLayout⟩, ?_⟩
  rw [← List.append_assoc]
  exact apart_of_neither rfl ⟨outside (by decide), outside (by decide)⟩

/-- What is cut into lexemes is made up of portions that stand, layout that is already passed
included. -/
theorem Cuts.exists_portions {line : Nat} {source : List Char} {lexemes : List Lexeme}
    (cuts : Cuts line source lexemes) {before gap : List Char} (layouts : ∀ c ∈ gap, c ∈ layout)
    (apart : Apart (before ++ gap) source) :
    ∃ portions ending last, gap ++ source = sourceOfPortions portions ++ ending ∧
      lexemes.map Lexeme.token = portions.map Portion.token ++ [⟨.endOfInput, "", last⟩] ∧
      (∀ c ∈ ending, c ∈ layout) ∧ PortionsStand before portions ending := by
  induction cuts generalizing before gap with
  | @ends line => exact ⟨[], gap, line, by simp [sourceOfPortions], rfl, layouts, .nil⟩
  | lineFeed _ inductionHypothesis =>
    obtain ⟨passed, apart⟩ := Apart.behind_layout (c := '\n') (by decide) layouts before _
    simpa using inductionHypothesis passed apart
  | blank isBlank _ inductionHypothesis =>
    have isLayout := mem_layout_iff.mpr (.inr isBlank)
    obtain ⟨passed, apart⟩ := Apart.behind_layout isLayout layouts before _
    simpa using inductionHypothesis passed apart
  | @piece line first tail rest kind lexemes notFeed notBlank cut _ inductionHypothesis =>
    have noLayout : ∀ c ∈ (first :: tail).head?, c ∉ layout := by
      rintro _ ⟨⟩ isLayout
      rcases mem_layout_iff.mp isLayout with isFeed | isBlank
      · exact notFeed isFeed
      · exact absurd (isBlank.symm.trans notBlank) nofun
    obtain ⟨stands, behind⟩ := (Lexeme.front_eq_iff.mp cut).stands apart noLayout line
    rw [← List.append_nil (before ++ gap ++ first :: tail)] at behind
    have noGap : ∀ c ∈ ([] : List Char), c ∈ layout := nofun
    obtain ⟨portions, ending, last, same, tokens, ends, others⟩ :=
      inductionHypothesis noGap behind
    refine ⟨⟨gap, first :: tail, Lexeme.token ⟨kind, first :: tail, line⟩⟩ :: portions, ending,
      last, ?_, ?_, ends, .cons layouts ?_ others⟩
    · rw [List.nil_append] at same
      simp [sourceOfPortions, same]
    · rw [List.map_cons, List.map_cons, tokens, List.cons_append]
    · rwa [← same]

/-- Every source is made up of portions and layout at its end. The tokens of the portions are the
tokens of the source, in the same order, up to the end of input, which has an empty text and comes
once. Each portion consists of layout and of the characters of its token, which stand there as this
token: they reach as far as they can. -/
theorem Token.ofSource_portions (source : String) :
    ∃ portions ending last, source.toList = sourceOfPortions portions ++ ending ∧
      Token.ofSource source = portions.map Portion.token ++ [⟨.endOfInput, "", last⟩] ∧
      (∀ portion ∈ portions, portion.token.kind ≠ .endOfInput) ∧ (∀ c ∈ ending, c ∈ layout) ∧
      PortionsStand [] portions ending := by
  have noGap : ∀ c ∈ ([] : List Char), c ∈ layout := nofun
  have start : Apart ([] ++ []) source.toList :=
    ⟨fun _ isLast => absurd isLast nofun, fun _ isLast => absurd isLast nofun⟩
  obtain ⟨portions, ending, last, same, tokens, ends, stand⟩ :=
    (Lexeme.ofSource_eq_iff.mp rfl : Cuts 1 source.toList _).exists_portions noGap start
  refine ⟨portions, ending, last, same, tokens, fun portion member => ?_, ends, stand⟩
  obtain ⟨front, back, split⟩ := List.append_of_mem member
  exact (stand front portion back split).2.ne_endOfInput

/-! ### The longest form -/

namespace Lexeme

/-- The forms that lexemes can have, each with the kind it makes. A word of the table has two. -/
inductive Form : Kind → List Char → Prop
  | sign {kind : Kind} : kind ∈ signKinds → Form kind kind.name.toList
  | keyword {word : String} {kind : Kind} : (word, kind) ∈ keywords → Form kind word.toList
  | identifier {raw : List Char} : raw ≠ [] → (∀ c ∈ raw, isLetter c = true) →
      Form .identifier raw
  | integer {raw : List Char} : raw ≠ [] → (∀ c ∈ raw, isDigit c = true) → Form .integer raw
  | closedString {inside : List Char} : '"' ∉ inside → Form .string ('"' :: (inside ++ ['"']))
  | openString {inside : List Char} : '"' ∉ inside → Form .string ('"' :: inside)

/-- What the first character of a form says about the kind and about the other characters. -/
structure Shape (kind : Kind) (c : Char) (tail : List Char) : Prop where
  letters : isLetter c = true → (∀ d ∈ tail, isLetter d = true) ∧
    (kind = .identifier ∨ (String.ofList (c :: tail), kind) ∈ keywords)
  digits : isDigit c = true → (∀ d ∈ tail, isDigit d = true) ∧ kind = .integer
  quoted : c = '"' → (∃ inside, '"' ∉ inside ∧ (tail = inside ∨ tail = inside ++ ['"'])) ∧
    kind = .string
  sign : isLetter c = false → isDigit c = false → c ≠ '"' →
    kind ∈ signKinds ∧ kind.name.toList = c :: tail

theorem Shape.of_letters {kind : Kind} {c : Char} {tail : List Char}
    (letters : ∀ d ∈ c :: tail, isLetter d = true)
    (isWord : kind = .identifier ∨ (String.ofList (c :: tail), kind) ∈ keywords) :
    Shape kind c tail := by
  obtain ⟨isFirst, others⟩ := List.forall_mem_cons.mp letters
  refine ⟨fun _ => ⟨others, isWord⟩, fun isIn => ?_, fun isQuote => ?_, fun isOut => ?_⟩
  · exact absurd (isFirst.symm.trans (isLetter_eq_false_of_isDigit isIn)) nofun
  · exact absurd isFirst (by rw [isQuote]; decide)
  · exact absurd (isFirst.symm.trans isOut) nofun

theorem Shape.of_digits {c : Char} {tail : List Char}
    (digits : ∀ d ∈ c :: tail, isDigit d = true) : Shape .integer c tail := by
  obtain ⟨isFirst, others⟩ := List.forall_mem_cons.mp digits
  refine ⟨fun isIn => ?_, fun _ => ⟨others, rfl⟩, fun isQuote => ?_, fun _ isOut => ?_⟩
  · exact absurd (isIn.symm.trans (isLetter_eq_false_of_isDigit isFirst)) nofun
  · exact absurd isFirst (by rw [isQuote]; decide)
  · exact absurd (isFirst.symm.trans isOut) nofun

theorem Shape.of_quote {inside ending : List Char} (noQuote : '"' ∉ inside)
    (ends : ending = [] ∨ ending = ['"']) : Shape .string '"' (inside ++ ending) := by
  refine ⟨fun isIn => absurd isIn (by decide), fun isIn => absurd isIn (by decide),
    fun _ => ⟨⟨inside, noQuote, ?_⟩, rfl⟩, fun _ _ other => absurd rfl other⟩
  exact ends.imp (fun none => by rw [none, List.append_nil]) fun quote => by rw [quote]

/-- The first character of a sign is in no class and no quote. -/
theorem exists_cons_of_mem_signKinds {kind : Kind} (isSign : kind ∈ signKinds) :
    ∃ c tail, kind.name.toList = c :: tail ∧ isLetter c = false ∧ isDigit c = false ∧ c ≠ '"' := by
  have all : ∀ kind ∈ signKinds, kind.name.toList ≠ [] ∧
      isLetter (kind.name.toList.headD ' ') = false ∧
        isDigit (kind.name.toList.headD ' ') = false ∧ kind.name.toList.headD ' ' ≠ '"' := by
    decide
  obtain ⟨nonempty, neither⟩ := all kind isSign
  obtain ⟨c, tail, same⟩ := List.exists_cons_of_ne_nil nonempty
  rw [same] at neither
  exact ⟨c, tail, same, neither⟩

theorem Form.exists_shape {kind : Kind} {raw : List Char} (form : Form kind raw) :
    ∃ c tail, raw = c :: tail ∧ Shape kind c tail := by
  cases form with
  | sign isSign =>
    obtain ⟨c, tail, same, noLetter, noDigit, noQuote⟩ := exists_cons_of_mem_signKinds isSign
    exact ⟨c, tail, same, fun isIn => absurd (isIn.symm.trans noLetter) nofun,
      fun isIn => absurd (isIn.symm.trans noDigit) nofun, fun isQuote => absurd isQuote noQuote,
      fun _ _ _ => ⟨isSign, same⟩⟩
  | @keyword word _ isKeyword =>
    have all : ∀ keyword ∈ keywords, keyword.1.toList ≠ [] ∧
        keyword.1.toList.all isLetter = true := by decide
    obtain ⟨nonempty, letters⟩ := all _ isKeyword
    obtain ⟨c, tail, same⟩ := List.exists_cons_of_ne_nil nonempty
    rw [same, List.all_eq_true] at letters
    refine ⟨c, tail, same, .of_letters letters (.inr ?_)⟩
    rwa [← same, String.ofList_toList]
  | identifier nonempty letters =>
    obtain ⟨c, tail, rfl⟩ := List.exists_cons_of_ne_nil nonempty
    exact ⟨c, tail, rfl, .of_letters letters (.inl rfl)⟩
  | integer nonempty digits =>
    obtain ⟨c, tail, rfl⟩ := List.exists_cons_of_ne_nil nonempty
    exact ⟨c, tail, rfl, .of_digits digits⟩
  | closedString noQuote => exact ⟨_, _, rfl, .of_quote noQuote (.inr rfl)⟩
  | @openString inside noQuote =>
    exact ⟨_, inside, rfl, by simpa using Shape.of_quote noQuote (.inl rfl)⟩

/-- No form goes on behind a piece. -/
theorem Cut.not_form {kind other : Kind} {raw rest more : List Char} {next : Char}
    (cut : Cut kind raw (next :: rest)) : ¬Form other (raw ++ next :: more) := by
  intro form
  obtain ⟨c, tail, same, shape⟩ := form.exists_shape
  cases cut with
  | word nonempty letters stops =>
    obtain ⟨first, inner, rfl⟩ := List.exists_cons_of_ne_nil nonempty
    obtain ⟨rfl, rfl⟩ := List.cons.inj same
    have isIn := (shape.letters (letters _ List.mem_cons_self)).1 next (by simp)
    exact absurd (isIn.symm.trans (stops next rfl)) nofun
  | integer nonempty digits stops =>
    obtain ⟨first, inner, rfl⟩ := List.exists_cons_of_ne_nil nonempty
    obtain ⟨rfl, rfl⟩ := List.cons.inj same
    have isIn := (shape.digits (digits _ List.mem_cons_self)).1 next (by simp)
    exact absurd (isIn.symm.trans (stops next rfl)) nofun
  | @closedString inside _ noQuote =>
    obtain ⟨rfl, rfl⟩ := List.cons.inj same
    obtain ⟨⟨run, noneInRun, same | same⟩, -⟩ := shape.quoted rfl
    · exact noneInRun (by simp [← same])
    · have whole : inside ++ '"' :: next :: more = run ++ ['"'] := by simpa using same
      have tails := congrArg stringTail whole
      rw [stringTail_append noQuote, stringTail_append noneInRun, ← whole] at tails
      simpa using congrArg List.length tails
  | equal =>
    obtain ⟨rfl, rfl⟩ := List.cons.inj same
    obtain ⟨isSign, name⟩ := shape.sign (by decide) (by decide) (by decide)
    have all : ∀ kind ∈ signKinds, kind.name.toList.length ≤ 2 := by decide
    have short := all other isSign
    rw [name] at short
    simp at short
  | notEqual =>
    obtain ⟨rfl, rfl⟩ := List.cons.inj same
    obtain ⟨isSign, name⟩ := shape.sign (by decide) (by decide) (by decide)
    have all : ∀ kind ∈ signKinds, kind.name.toList.length ≤ 2 := by decide
    have short := all other isSign
    rw [name] at short
    simp at short
  | @single first _ noLetter noDigit noQuote noSign =>
    obtain ⟨rfl, rfl⟩ := List.cons.inj same
    obtain ⟨isSign, name⟩ := shape.sign noLetter noDigit noQuote
    have all : ∀ kind ∈ signKinds, 1 < kind.name.toList.length →
        (kind.name.toList.headD ' ' = '=' ∨ kind.name.toList.headD ' ' = '!') ∧
          kind.name.toList.tail = ['='] := by decide
    obtain ⟨isFirst, isTail⟩ := all other isSign (by rw [name]; simp)
    rw [name] at isFirst isTail
    obtain ⟨rfl, -⟩ := List.cons.inj isTail
    exact noSign isFirst rfl

/-- A sign has no other kind than the one it is the name of. -/
theorem Form.eq_of_sign {kind other : Kind} (isSign : kind ∈ signKinds)
    (form : Form other kind.name.toList) : other = kind := by
  have unique : ∀ kind ∈ signKinds, ∀ other ∈ signKinds,
      other.name.toList = kind.name.toList → other = kind := by decide
  obtain ⟨first, inner, isName, noLetter, noDigit, noQuote⟩ := exists_cons_of_mem_signKinds isSign
  obtain ⟨c, tail, same, shape⟩ := form.exists_shape
  obtain ⟨rfl, rfl⟩ := List.cons.inj (isName.symm.trans same)
  obtain ⟨isOther, name⟩ := shape.sign noLetter noDigit noQuote
  exact unique kind isSign other isOther (name.trans same.symm)

/-- A piece has its form, and no other kind claims it but that of identifiers, unless it is one
unknown character. -/
theorem Cut.form {kind : Kind} {raw rest : List Char} (cut : Cut kind raw rest) :
    Form kind raw ∧ (∀ other, Form other raw → other ≠ .identifier → other = kind) ∨
      kind = .illegal ∧ raw.length = 1 ∧
        ∀ other beginning, Form other beginning → ¬beginning <+: raw ++ rest := by
  cases cut with
  | word nonempty letters stops =>
    obtain ⟨first, inner, rfl⟩ := List.exists_cons_of_ne_nil nonempty
    refine .inl ⟨?_, fun other form noIdentifier => ?_⟩
    · rcases Kind.ofWord_cases (String.ofList (first :: inner)) with isKeyword | ⟨same, -⟩
      · simpa using Form.keyword isKeyword
      · rw [same]
        exact .identifier nonempty letters
    · obtain ⟨c, tail, same, shape⟩ := form.exists_shape
      obtain ⟨rfl, rfl⟩ := List.cons.inj same
      have isKeyword := (shape.letters (letters _ List.mem_cons_self)).2.resolve_left noIdentifier
      have all : ∀ keyword ∈ keywords, keyword.2 = Kind.ofWord keyword.1 := by decide
      exact all _ isKeyword
  | integer nonempty digits stops =>
    refine .inl ⟨.integer nonempty digits, fun other form _ => ?_⟩
    obtain ⟨c, tail, rfl, shape⟩ := form.exists_shape
    exact (shape.digits (digits _ List.mem_cons_self)).2
  | closedString noQuote =>
    refine .inl ⟨.closedString noQuote, fun other form _ => ?_⟩
    obtain ⟨c, tail, same, shape⟩ := form.exists_shape
    exact (shape.quoted (List.cons.inj same).1.symm).2
  | openString noQuote =>
    refine .inl ⟨.openString noQuote, fun other form _ => ?_⟩
    obtain ⟨c, tail, same, shape⟩ := form.exists_shape
    exact (shape.quoted (List.cons.inj same).1.symm).2
  | equal =>
    have isSign : Kind.equal ∈ signKinds := by decide
    exact .inl ⟨.sign isSign, fun _ form _ => form.eq_of_sign isSign⟩
  | notEqual =>
    have isSign : Kind.notEqual ∈ signKinds := by decide
    exact .inl ⟨.sign isSign, fun _ form _ => form.eq_of_sign isSign⟩
  | @single first _ noLetter noDigit noQuote noSign =>
    rcases kindOfSingle_cases first with ⟨isSign, same⟩ | ⟨isIllegal, noKind⟩
    · rw [← same]
      exact .inl ⟨.sign isSign, fun _ form _ => form.eq_of_sign isSign⟩
    · refine .inr ⟨isIllegal, rfl, fun other beginning form isPrefix => ?_⟩
      obtain ⟨c, tail, rfl, shape⟩ := form.exists_shape
      obtain ⟨rfl, -⟩ := List.cons_prefix_cons.mp isPrefix
      obtain ⟨isSign, name⟩ := shape.sign noLetter noDigit noQuote
      have all : ∀ kind ∈ signKinds, ∃ short ∈ signKinds,
          short.name.toList = [kind.name.toList.headD ' '] := by decide
      obtain ⟨short, isShort, same⟩ := all other isSign
      rw [name] at same
      exact noKind short isShort same

/-- A piece is the longest beginning of the text that has a form. -/
theorem Cut.longest {kind other : Kind} {raw rest longer : List Char} (cut : Cut kind raw rest)
    (form : Form other longer) (isPrefix : longer <+: raw ++ rest) :
    longer.length ≤ raw.length := by
  refine Nat.le_of_not_lt fun more => ?_
  obtain ⟨extra, rfl⟩ : raw <+: longer :=
    List.prefix_of_prefix_length_le (List.prefix_append raw rest) isPrefix
      (Nat.le_of_lt more)
  obtain ⟨next, others, rfl⟩ : ∃ next others, extra = next :: others :=
    List.exists_cons_of_ne_nil fun none => by simp [none] at more
  obtain ⟨behind, rfl⟩ := (List.prefix_append_right_inj raw).mp isPrefix
  exact cut.not_form form

end Lexeme

end MonkeyLang
