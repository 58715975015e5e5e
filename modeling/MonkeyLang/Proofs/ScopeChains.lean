/-
This file proves that chains of frames are no longer than functions are nested
in the text of programs. The frame of a call is enclosed by the frame in which
the function was made, not by that of the caller; so calls inside calls make no
chain longer, however many of them are active.

The invariant speaks of functions: the chain of the frame in which a function
was made leaves room for as many more frames as there are functions nested in
it, itself included.
-/

import MonkeyLang.Proofs.Preservation

namespace MonkeyLang

open Machine

/-! ### Chains -/

namespace Scopes

/-- The frames from a frame outward, up to one that no other encloses. Each is older than the one
before it. -/
inductive Chain (scopes : Scopes) : Nat → List Nat → Prop
  | outermost {number : Nat} {frame : Frame} : scopes.frame? number = some frame →
      frame.outer = none → Chain scopes number [number]
  | enclosed {number outer : Nat} {frame : Frame} {chain : List Nat} :
      scopes.frame? number = some frame → frame.outer = some outer → outer < number →
      Chain scopes outer chain → Chain scopes number (number :: chain)

/-- The value of a name in a frame, and in how many frames the name is looked up. -/
def search (scopes : Scopes) (number : Nat) (name : String) : Option Value × Nat :=
  match scopes.frame? number with
  | none => (none, 1)
  | some frame =>
    match frame.find? name with
    | some value => (some value, 1)
    | none =>
      match frame.outer with
      | none => (none, 1)
      | some outer =>
        if outer < number then
          let (found, visited) := scopes.search outer name
          (found, visited + 1)
        else (none, 1)
termination_by number

variable {scopes later : Scopes} {number : Nat} {chain : List Nat}

theorem search_fst (scopes : Scopes) (number : Nat) (name : String) :
    (scopes.search number name).1 = scopes.get? number name := by
  induction number using Nat.strongRecOn with
  | ind number inductionHypothesis =>
    rw [search, get?]
    cases scopes.frame? number with
    | none => rfl
    | some frame =>
      dsimp only
      cases frame.find? name with
      | some value => rfl
      | none =>
        cases frame.outer with
        | none => rfl
        | some outer =>
          dsimp only
          split
          · exact inductionHypothesis outer ‹_›
          · rfl

namespace Chain

theorem exists_frame? (isChain : scopes.Chain number chain) :
    ∃ frame, scopes.frame? number = some frame := by
  cases isChain with
  | outermost found => exact ⟨_, found⟩
  | enclosed found => exact ⟨_, found⟩

theorem lt_size (isChain : scopes.Chain number chain) : number < scopes.size := by
  obtain ⟨frame, found⟩ := isChain.exists_frame?
  exact lt_size_of_frame? found

/-- A frame has one chain only. -/
theorem unique {other : List Nat} (isChain : scopes.Chain number chain)
    (isOther : scopes.Chain number other) : chain = other := by
  induction isChain generalizing other with
  | outermost found outermost =>
    cases isOther with
    | outermost => rfl
    | enclosed found' outer =>
      obtain rfl := Option.some.inj (found.symm.trans found')
      exact absurd (outermost.symm.trans outer) nofun
  | enclosed found outer _ _ inductionHypothesis =>
    cases isOther with
    | outermost found' outermost =>
      obtain rfl := Option.some.inj (found.symm.trans found')
      exact absurd (outermost.symm.trans outer) nofun
    | enclosed found' outer' _ isOther =>
      obtain rfl := Option.some.inj (found.symm.trans found')
      obtain rfl := Option.some.inj (outer.symm.trans outer')
      rw [inductionHypothesis isOther]

theorem grown (isChain : scopes.Chain number chain) (grown : scopes.Grown later) :
    later.Chain number chain := by
  induction isChain with
  | outermost found outermost =>
    obtain ⟨frame, found, same⟩ := grown _ _ found
    exact .outermost found (same.trans outermost)
  | enclosed found outer older _ inductionHypothesis =>
    obtain ⟨frame, found, same⟩ := grown _ _ found
    exact .enclosed found (same.trans outer) older inductionHypothesis

/-- A name is looked up in the frames of the chain at most. -/
theorem search_snd_le (isChain : scopes.Chain number chain) (name : String) :
    (scopes.search number name).2 ≤ chain.length := by
  induction isChain with
  | outermost found outermost =>
    rw [search, found]
    dsimp only
    rw [outermost]
    cases Frame.find? _ name <;> exact Nat.le_refl 1
  | enclosed found outer older _ inductionHypothesis =>
    rw [search, found]
    dsimp only
    rw [outer]
    cases Frame.find? _ name with
    | some value => exact Nat.succ_le_succ (Nat.zero_le _)
    | none =>
      dsimp only
      rw [if_pos older]
      exact Nat.succ_le_succ inductionHypothesis

end Chain

end Scopes

/-! ### The invariant -/

/-- The chain of a frame leaves room for more frames, within a bound. -/
def Scopes.HasRoom (bound : Nat) (scopes : Scopes) (frame further : Nat) : Prop :=
  ∃ chain, scopes.Chain frame chain ∧ chain.length + further ≤ bound

/-- The frame in which a function was made has room for the frame of its call, and for those of the
functions nested in it. -/
def Value.FitsChains (bound : Nat) (scopes : Scopes) : Value → Prop
  | .function closure =>
    scopes.HasRoom bound closure.frame (nestingOfStatements closure.body + 1)
  | _ => True

namespace Scopes.HasRoom

variable {bound frame further fewer : Nat} {scopes later : Scopes}

theorem less (room : scopes.HasRoom bound frame further) (le : fewer ≤ further) :
    scopes.HasRoom bound frame fewer := by
  obtain ⟨chain, isChain, fits⟩ := room
  exact ⟨chain, isChain, by omega⟩

theorem grown (room : scopes.HasRoom bound frame further) (grown : scopes.Grown later) :
    later.HasRoom bound frame further := by
  obtain ⟨chain, isChain, fits⟩ := room
  exact ⟨chain, isChain.grown grown, fits⟩

/-- A new frame takes the room that the frame around it has for one. -/
theorem add (room : scopes.HasRoom bound frame (further + 1)) {inner : Frame}
    (outer : inner.outer = some frame) :
    (scopes.add inner).HasRoom bound scopes.size further := by
  obtain ⟨chain, isChain, fits⟩ := room
  refine ⟨scopes.size :: chain, ?_, by rw [List.length_cons]; omega⟩
  exact .enclosed (scopes.frame?_add_size inner) outer isChain.lt_size
    (isChain.grown (scopes.grown_add inner))

end Scopes.HasRoom

/-- Chains stay within a bound. -/
def Invariant.chains (bound : Nat) : Invariant where
  holds := Value.FitsChains bound
  room := Scopes.HasRoom bound
  plain {scopes value} plain := by
    cases value with
    | function => exact absurd plain Bool.false_ne_true
    | _ => exact trivial
  array := trivial
  emptyHash := trivial
  insert _ _ := trivial
  made room := room
  called fits outer := Scopes.HasRoom.add fits outer
  less room le := room.less le
  holds_grown {earlier later value} grown fits := by
    cases value with
    | function => exact Scopes.HasRoom.grown fits grown
    | _ => exact trivial
  room_grown grown room := room.grown grown

/-! ### Sessions -/

/-- How many functions stand one inside another in any of some programs, at most. -/
def nestingOfPrograms (programs : List Program) : Nat :=
  programs.foldr (fun program most => max program.nesting most) 0

theorem Program.nesting_le {programs : List Program} {program : Program}
    (member : program ∈ programs) : program.nesting ≤ nestingOfPrograms programs := by
  induction programs with
  | nil => exact absurd member List.not_mem_nil
  | cons first rest inductionHypothesis =>
    rcases List.mem_cons.mp member with rfl | member
    · exact Nat.le_max_left _ _
    · exact Nat.le_trans (inductionHypothesis member) (Nat.le_max_right _ _)

theorem Scopes.chain_initial : Machine.initial.scopes.Chain rootFrame [rootFrame] := by
  have found : Machine.initial.scopes.frame? rootFrame = some ⟨[], none⟩ := rfl
  exact .outermost found rfl

/-- Before any program, there is only the outermost frame. -/
theorem Invariant.sound_initial (bound : Nat) :
    (chains (bound + 1)).Sound Machine.initial.scopes := by
  have one : Machine.initial.scopes.HasRoom (bound + 1) rootFrame 0 :=
    ⟨[rootFrame], Scopes.chain_initial, Nat.succ_le_succ (Nat.zero_le _)⟩
  exact Sound.empty.add one nofun

/-- At every moment of a session, the chain of every frame has at most one frame more than functions
are nested in the programs, and a name is looked up in no more frames than that. -/
theorem chains_bounded_by_nesting (limit : Nat) (programs : List Program) :
    let start : Moment := ⟨.initial, [rootFrame]⟩
    let moments := sessionHistory limit rootFrame programs .initial
    Course start moments ⟨executeAll limit rootFrame programs .initial, [rootFrame]⟩ ∧
    ∀ moment ∈ start :: moments, ∀ number < moment.machine.scopes.size,
      ∃ chain, moment.machine.scopes.Chain number chain ∧
        (∀ other, moment.machine.scopes.Chain number other → other = chain) ∧
        chain.length ≤ nestingOfPrograms programs + 1 ∧
        ∀ name, (moment.machine.scopes.search number name).1 =
            moment.machine.scopes.get? number name ∧
          (moment.machine.scopes.search number name).2 ≤ nestingOfPrograms programs + 1 := by
  intro start moments
  refine ⟨course_sessionHistory limit rootFrame programs .initial, ?_⟩
  have sound := Invariant.sound_initial (nestingOfPrograms programs)
  have during := Invariant.sound_sessionHistory limit rootFrame programs .initial sound
    fun program member => ⟨[rootFrame], Scopes.chain_initial, by
      have := program.nesting_le member
      rw [List.length_singleton]
      omega⟩
  have always : ∀ moment ∈ start :: moments,
      (Invariant.chains (nestingOfPrograms programs + 1)).Sound moment.machine.scopes :=
    List.forall_mem_cons.mpr ⟨sound, during⟩
  intro moment member number old
  obtain ⟨chain, isChain, fits⟩ := (always moment member).room old
  refine ⟨chain, isChain, fun other isOther => isOther.unique isChain, fits, fun name =>
    ⟨Scopes.search_fst _ _ _, ?_⟩⟩
  exact Nat.le_trans (isChain.search_snd_le name) fits

end MonkeyLang
