/-
This file proves that looking a name up finds its nearest binding, whatever has
been done to the scopes before. What can be done is told by a history: frames
are made, alone or enclosed by one that is there, and names are bound in frames.
What a frame is enclosed by and what a name was last bound to in it can be read
off the history alone; so can the chain of a frame and the first frame on it in
which a name was ever bound.

That each operation keeps scopes in step with its history is one step, and the
run over a whole history goes by induction on it. A frame is always older than
those that it encloses, so the chain of a frame exists, and the look-up follows
it to its end.
-/

import Mathlib.Data.List.Basic
import MonkeyLang.Proofs.Isolation

namespace MonkeyLang

namespace Scopes

/-! ### Histories -/

/-- What can be done to scopes. Frames go by their numbers, in the order in which they are made. -/
inductive Operation
  /-- Makes a frame that no other encloses. -/
  | root
  /-- Makes a frame that the given one encloses. -/
  | enclosed (outer : Nat)
  /-- Binds a name in a frame. -/
  | set (frame : Nat) (name : String) (value : Value)

/-- What an operation does to scopes. -/
def Operation.apply (scopes : Scopes) : Operation → Scopes
  | root => scopes.add ⟨[], none⟩
  | enclosed outer => scopes.add ⟨[], some outer⟩
  | set frame name value => scopes.set frame name value

/-- The scopes behind operations. -/
def after (operations : List Operation) : Scopes :=
  operations.foldl Operation.apply .empty

/-- What encloses the frame that an operation makes, if it makes one. -/
def Operation.makes? : Operation → Option (Option Nat)
  | root => some none
  | enclosed outer => some (some outer)
  | set _ _ _ => none

/-- The value to which an operation binds a name in a frame, if it does. -/
def Operation.binds? (frame : Nat) (name : String) : Operation → Option Value
  | set other wanted value => if other = frame ∧ wanted = name then some value else none
  | _ => none

/-- What encloses each frame, in the order in which the frames are made. -/
def outers (operations : List Operation) : List (Option Nat) :=
  operations.filterMap Operation.makes?

/-- The values to which a name is bound in a frame, one after another. -/
def valuesOf (operations : List Operation) (frame : Nat) (name : String) : List Value :=
  operations.filterMap (Operation.binds? frame name)

/-- Behind operations that have made so many frames, each operation refers to frames that there
are. -/
inductive InOrder : Nat → List Operation → Prop
  | nil {size : Nat} : InOrder size []
  | root {size : Nat} {rest : List Operation} : InOrder (size + 1) rest →
      InOrder size (.root :: rest)
  | enclosed {size outer : Nat} {rest : List Operation} : outer < size → InOrder (size + 1) rest →
      InOrder size (.enclosed outer :: rest)
  | set {size frame : Nat} {name : String} {value : Value} {rest : List Operation} : frame < size →
      InOrder size rest → InOrder size (.set frame name value :: rest)

/-- The frames from a frame outward, up to one that no other encloses. -/
inductive Outward (outers : List (Option Nat)) : Nat → List Nat → Prop
  | outermost {number : Nat} : outers[number]? = some none → Outward outers number [number]
  | enclosed {number outer : Nat} {chain : List Nat} : outers[number]? = some (some outer) →
      Outward outers outer chain → Outward outers number (number :: chain)

/-! ### One more operation -/

theorem after_concat (operations : List Operation) (operation : Operation) :
    after (operations ++ [operation]) = operation.apply (after operations) := by
  rw [after, List.foldl_concat]
  rfl

theorem outers_concat (operations : List Operation) (operation : Operation) :
    outers (operations ++ [operation]) = outers operations ++ operation.makes?.toList := by
  rw [outers, List.filterMap_append]
  cases made : operation.makes? <;> simp [outers, made]

/-- A binding makes no frame. -/
theorem outers_set (operations : List Operation) (frame : Nat) (name : String) (value : Value) :
    outers (operations ++ [.set frame name value]) = outers operations := by
  rw [outers_concat]
  exact List.append_nil _

theorem valuesOf_concat (operations : List Operation) (operation : Operation) (frame : Nat)
    (name : String) : valuesOf (operations ++ [operation]) frame name =
      valuesOf operations frame name ++ (operation.binds? frame name).toList := by
  rw [valuesOf, List.filterMap_append]
  cases bound : operation.binds? frame name <;> simp [valuesOf, bound]

/-! ### Scopes in step with a history -/

/-- The value of a name in a frame itself. -/
def own? (scopes : Scopes) (number : Nat) (name : String) : Option Value :=
  (scopes.frame? number).bind fun frame => frame.find? name

theorem own?_add (scopes : Scopes) (outer : Option Nat) (number : Nat) (name : String) :
    (scopes.add ⟨[], outer⟩).own? number name = scopes.own? number name := by
  by_cases newest : number = scopes.size
  · have none : scopes.frame? scopes.size = none := Array.getElem?_eq_none (Nat.le_refl _)
    rw [newest, own?, own?, frame?_add_size, none]
    rfl
  · rw [own?, own?, frame?_add_of_ne newest]

theorem own?_set (scopes : Scopes) {frame : Nat} (old : frame < scopes.size) (name : String)
    (value : Value) (number : Nat) (wanted : String) :
    (scopes.set frame name value).own? number wanted =
      if frame = number ∧ name = wanted then some value else scopes.own? number wanted := by
  by_cases same : frame = number
  · subst same
    have found : scopes.frame? frame = some scopes.frames[frame] := Array.getElem?_eq_getElem old
    rw [own?, own?, frame?_set_self, found, Option.map_some, Option.bind_some, Option.bind_some,
      Frame.find?_bind]
    simp only [true_and]
  · rw [own?, own?, frame?_set_of_ne (Ne.symm same), if_neg fun both => same both.1]

/-- Scopes are what their history tells: frame for frame what encloses it and what was last bound
in it. -/
structure Follows (scopes : Scopes) (operations : List Operation) : Prop where
  outer : ∀ number : Nat,
    (scopes.frame? number).map Frame.outer = (outers operations)[number]?
  older : ∀ number outer : Nat, (outers operations)[number]? = some (some outer) → outer < number
  bound : ∀ (number : Nat) (name : String),
    scopes.own? number name = (valuesOf operations number name).getLast?

namespace Follows

variable {scopes : Scopes} {operations : List Operation}

theorem size_eq (follows : scopes.Follows operations) :
    scopes.size = (outers operations).length := by
  have outside (number : Nat) :
      scopes.size ≤ number ↔ (outers operations).length ≤ number := by
    rw [← List.getElem?_eq_none_iff, ← follows.outer, Option.map_eq_none_iff]
    exact Array.getElem?_eq_none_iff.symm
  exact Nat.le_antisymm ((outside _).mpr (Nat.le_refl _)) ((outside _).mp (Nat.le_refl _))

theorem empty : Scopes.empty.Follows [] :=
  ⟨fun _ => rfl, nofun, fun _ _ => rfl⟩

/-- One more frame. -/
theorem add (follows : scopes.Follows operations) {operation : Operation} {outer : Option Nat}
    (makes : operation.makes? = some outer) (older : ∀ number ∈ outer, number < scopes.size)
    (still : ∀ frame name, operation.binds? frame name = none) :
    (scopes.add ⟨[], outer⟩).Follows (operations ++ [operation]) := by
  have size := follows.size_eq
  have outers : outers (operations ++ [operation]) = outers operations ++ [outer] := by
    rw [outers_concat, makes]
    rfl
  refine ⟨fun number => ?_, fun number around found => ?_, fun number name => ?_⟩
  · rw [outers]
    rcases Nat.lt_trichotomy number scopes.size with old | newest | beyond
    · rw [frame?_add old, follows.outer, List.getElem?_append_left (size ▸ old)]
    · rw [newest, frame?_add_size, size, List.getElem?_concat_length]
      rfl
    · rw [frame?_add_of_ne (Nat.ne_of_gt beyond), follows.outer,
        List.getElem?_eq_none (size ▸ Nat.le_of_lt beyond), List.getElem?_eq_none]
      rw [List.length_append, List.length_singleton, ← size]
      exact beyond
  · rw [outers] at found
    rcases Nat.lt_or_ge number scopes.size with old | newest
    · rw [List.getElem?_append_left (size ▸ old)] at found
      exact follows.older number around found
    · rw [List.getElem?_append_right (size ▸ newest)] at found
      have same : some around = outer := by simpa using List.mem_of_getElem? found
      exact Nat.lt_of_lt_of_le (older around same.symm) newest
  · rw [own?_add, follows.bound, valuesOf_concat, still, Option.toList_none, List.append_nil]

/-- One more binding. -/
theorem set (follows : scopes.Follows operations) {frame : Nat} (old : frame < scopes.size)
    (name : String) (value : Value) :
    (scopes.set frame name value).Follows (operations ++ [.set frame name value]) := by
  have outers := outers_set operations frame name value
  refine ⟨fun number => ?_, fun number outer => ?_, fun number wanted => ?_⟩
  · rw [outers, ← follows.outer]
    by_cases same : number = frame
    · subst same
      rw [frame?_set_self, Option.map_map]
      rfl
    · rw [frame?_set_of_ne same]
  · rw [outers]
    exact follows.older number outer
  · rw [own?_set scopes old, valuesOf_concat, follows.bound, Operation.binds?]
    split
    · rw [Option.toList_some, List.getLast?_concat]
    · rw [Option.toList_none, List.append_nil]

end Follows

/-- Operations that refer to frames that there are keep scopes in step with their history. -/
theorem InOrder.follows {size : Nat} {operations : List Operation}
    (inOrder : InOrder size operations) : ∀ {scopes : Scopes} {earlier : List Operation},
    scopes.Follows earlier → scopes.size = size →
      (operations.foldl Operation.apply scopes).Follows (earlier ++ operations) := by
  induction inOrder with
  | nil =>
    intro scopes earlier follows _
    rwa [List.append_nil]
  | root _ inductionHypothesis =>
    intro scopes earlier follows same
    rw [List.append_cons]
    exact inductionHypothesis (follows.add rfl nofun fun _ _ => rfl)
      ((size_add _ _).trans (congrArg (· + 1) same))
  | enclosed old _ inductionHypothesis =>
    intro scopes earlier follows same
    have older : ∀ number ∈ some _, number < scopes.size := fun _ isOuter =>
      Option.some.inj isOuter ▸ same ▸ old
    rw [List.append_cons]
    exact inductionHypothesis (follows.add rfl older fun _ _ => rfl)
      ((size_add _ _).trans (congrArg (· + 1) same))
  | set old _ inductionHypothesis =>
    intro scopes earlier follows same
    rw [List.append_cons]
    exact inductionHypothesis (follows.set (same ▸ old) _ _) ((size_set _ _ _ _).trans same)

/-! ### Along the chain -/

theorem Outward.unique {outers : List (Option Nat)} {number : Nat} {chain other : List Nat}
    (outward : Outward outers number chain) (isOther : Outward outers number other) :
    other = chain := by
  induction outward generalizing other with
  | outermost found =>
    cases isOther with
    | outermost => rfl
    | enclosed found' => exact absurd (found.symm.trans found') nofun
  | enclosed found _ inductionHypothesis =>
    cases isOther with
    | outermost found' => exact absurd (found.symm.trans found') nofun
    | enclosed found' isOther =>
      obtain rfl := Option.some.inj (Option.some.inj (found.symm.trans found'))
      rw [inductionHypothesis isOther]

section Chains

variable {scopes : Scopes} {operations : List Operation} {number : Nat} {chain : List Nat}

/-- A chain starts with its frame, and all others on it are older. -/
theorem Follows.chain_le (follows : scopes.Follows operations)
    (outward : Outward (outers operations) number chain) :
    (∀ frame ∈ chain, frame ≤ number) ∧ chain.Pairwise (· > ·) := by
  induction outward with
  | outermost => simp
  | @enclosed number outer _ found _ inductionHypothesis =>
    obtain ⟨below, falling⟩ := inductionHypothesis
    have older := follows.older number outer found
    have all : ∀ frame ∈ _, frame < number := fun frame member =>
      Nat.lt_of_le_of_lt (below frame member) older
    refine ⟨List.forall_mem_cons.mpr ⟨Nat.le_refl _, fun frame member => ?_⟩,
      List.pairwise_cons.mpr ⟨all, falling⟩⟩
    exact Nat.le_of_lt (all frame member)

/-- Every frame has a chain, since what encloses it is older. -/
theorem Follows.exists_outward (follows : scopes.Follows operations)
    (made : number < (outers operations).length) :
    ∃ chain, Outward (outers operations) number chain := by
  induction number using Nat.strongRecOn with
  | ind number inductionHypothesis =>
    cases found : (outers operations)[number] with
    | none => exact ⟨_, .outermost (List.getElem?_eq_some_iff.mpr ⟨made, found⟩)⟩
    | some outer =>
      have encloses := List.getElem?_eq_some_iff.mpr ⟨made, found⟩
      have older := follows.older number outer encloses
      obtain ⟨chain, outward⟩ := inductionHypothesis outer older (Nat.lt_trans older made)
      exact ⟨_, .enclosed encloses outward⟩

/-- Looking a name up finds what was last bound to it in the first frame of the chain in which it
was bound at all. -/
theorem Follows.get?_eq (follows : scopes.Follows operations)
    (outward : Outward (outers operations) number chain) (name : String) :
    scopes.get? number name =
      chain.findSome? fun frame => (valuesOf operations frame name).getLast? := by
  induction outward with
  | @outermost number outermost =>
    obtain ⟨frame, found, alone⟩ := Option.map_eq_some_iff.mp
      ((follows.outer number).trans outermost)
    have bound := follows.bound number name
    rw [own?, found, Option.bind_some] at bound
    rw [get?_of_frame? found, alone, Option.bind_none, Option.or_none, bound,
      List.findSome?_singleton]
  | @enclosed number outer chain encloses _ inductionHypothesis =>
    obtain ⟨frame, found, around⟩ := Option.map_eq_some_iff.mp
      ((follows.outer number).trans encloses)
    have bound := follows.bound number name
    rw [own?, found, Option.bind_some] at bound
    rw [get?_of_frame? found, around, Option.bind_some,
      if_pos (follows.older number outer encloses), inductionHypothesis, bound,
      List.findSome?_cons]
    cases (valuesOf operations number name).getLast? <;> rfl

end Chains

/-! ### One further binding -/

/-- The frame is on the chain, and in none nearer on it is the name bound. -/
def Nearest (operations : List Operation) (chain : List Nat) (frame : Nat) (name : String) : Prop :=
  ∃ nearer further, chain = nearer ++ frame :: further ∧
    ∀ other ∈ nearer, valuesOf operations other name = []

section Update

variable {operations : List Operation} {frame : Nat} {name : String} {chain : List Nat}

theorem valuesOf_set_of_ne {number : Nat} {wanted : String}
    (other : ¬(frame = number ∧ name = wanted)) (value : Value) :
    valuesOf (operations ++ [.set frame name value]) number wanted =
      valuesOf operations number wanted := by
  rw [valuesOf_concat, Operation.binds?, if_neg other, Option.toList_none, List.append_nil]

theorem getLast?_valuesOf_set (value : Value) :
    (valuesOf (operations ++ [.set frame name value]) frame name).getLast? = some value := by
  rw [valuesOf_concat, Operation.binds?, if_pos ⟨rfl, rfl⟩, Option.toList_some,
    List.getLast?_concat]

/-- In frames other than the one that is bound in, the last values are what they were. -/
theorem findSome?_valuesOf_set_of_notMem {frames : List Nat} (outside : frame ∉ frames)
    (value : Value) :
    (frames.findSome? fun number =>
        (valuesOf (operations ++ [.set frame name value]) number name).getLast?) =
      frames.findSome? fun number => (valuesOf operations number name).getLast? := by
  induction frames with
  | nil => rfl
  | cons first frames inductionHypothesis =>
    obtain ⟨other, outside⟩ := not_or.mp (List.mem_cons.not.mp outside)
    rw [List.findSome?_cons, List.findSome?_cons, inductionHypothesis outside,
      valuesOf_set_of_ne fun same => other same.1]

/-- A binding in the first frame of the chain that has the name bound, or in front of it, is what
the search along the chain finds. -/
theorem Nearest.findSome?_eq (nearest : Nearest operations chain frame name)
    (falling : chain.Pairwise (· > ·)) (value : Value) :
    (chain.findSome? fun number =>
      (valuesOf (operations ++ [.set frame name value]) number name).getLast?) = some value := by
  obtain ⟨nearer, further, rfl, unbound⟩ := nearest
  have outside : frame ∉ nearer := fun member =>
    Nat.lt_irrefl frame ((List.pairwise_append.mp falling).2.2 _ member _ List.mem_cons_self)
  have none : (nearer.findSome? fun number => (valuesOf operations number name).getLast?) = none :=
    List.findSome?_eq_none_iff.mpr fun other member =>
      List.getLast?_eq_none_iff.mpr (unbound other member)
  rw [List.findSome?_append, findSome?_valuesOf_set_of_notMem outside, none, Option.none_or,
    List.findSome?_cons, getLast?_valuesOf_set]

/-- A binding of another name, or outside the chain, or behind a frame of it that has the name
bound, does not change what the search along the chain finds. -/
theorem findSome?_eq_of_hidden {wanted : String}
    (hidden : ¬(wanted = name ∧ Nearest operations chain frame name)) (value : Value) :
    (chain.findSome? fun number =>
        (valuesOf (operations ++ [.set frame name value]) number wanted).getLast?) =
      chain.findSome? fun number => (valuesOf operations number wanted).getLast? := by
  by_cases isName : wanted = name
  · subst isName
    by_cases member : frame ∈ chain
    · obtain ⟨nearer, further, rfl, outside⟩ := List.eq_append_cons_of_mem member
      have found : (nearer.findSome? fun number =>
          (valuesOf operations number wanted).getLast?).isSome = true := by
        refine Option.isSome_iff_ne_none.mpr fun none => hidden ⟨rfl, nearer, further, rfl, ?_⟩
        intro other member
        exact List.getLast?_eq_none_iff.mp (List.findSome?_eq_none_iff.mp none other member)
      rw [List.findSome?_append, List.findSome?_append,
        findSome?_valuesOf_set_of_notMem outside, Option.or_of_isSome found,
        Option.or_of_isSome found]
    · exact findSome?_valuesOf_set_of_notMem member value
  · have unchanged (number : Nat) : valuesOf (operations ++ [.set frame name value]) number wanted =
        valuesOf operations number wanted :=
      valuesOf_set_of_ne (fun both => isName both.2.symm) value
    simp only [unchanged]

end Update

/-! ### All histories -/

/-- What holds of frames and look-ups behind a history. -/
structure FindsNearest (operations : List Operation) : Prop where
  /-- Frames go by the order in which they were made, and nothing changes what encloses them. -/
  outer : ∀ number : Nat,
    ((after operations).frame? number).map Frame.outer = (outers operations)[number]?
  /-- A frame is made after the one that encloses it. -/
  older : ∀ number outer : Nat, (outers operations)[number]? = some (some outer) → outer < number
  /-- The way outward has an end, and never comes back to a frame. -/
  chain : ∀ number < (outers operations).length, ∃ chain, Outward (outers operations) number chain ∧
    (∀ other, Outward (outers operations) number other → other = chain) ∧ chain.Pairwise (· > ·)
  /-- A name leads to what was last bound to it in the first frame on the way in which it was ever
  bound, and to nothing if there is none. -/
  found : ∀ (number : Nat) (chain : List Nat), Outward (outers operations) number chain →
    ∀ name, (after operations).get? number name =
      chain.findSome? fun frame => (valuesOf operations frame name).getLast?
  /-- One further binding changes where the name leads from the frames that have no nearer binding
  of it, and nothing else. -/
  changed : ∀ (number : Nat) (chain : List Nat), Outward (outers operations) number chain →
    ∀ frame < (outers operations).length, ∀ (name : String) (value : Value),
      let later := after (operations ++ [.set frame name value])
      (Nearest operations chain frame name → later.get? number name = some value) ∧
        ∀ wanted, ¬(wanted = name ∧ Nearest operations chain frame name) →
          later.get? number wanted = (after operations).get? number wanted

/-- Whatever has been done to scopes, looking a name up finds its nearest binding. -/
theorem lookup_finds_nearest_binding (operations : List Operation)
    (inOrder : InOrder 0 operations) : FindsNearest operations := by
  have follows : (after operations).Follows operations := inOrder.follows .empty rfl
  refine ⟨follows.outer, follows.older, fun number made => ?_,
    fun number chain outward name => follows.get?_eq outward name,
    fun number chain outward frame made name value => ?_⟩
  · obtain ⟨chain, outward⟩ := follows.exists_outward made
    exact ⟨chain, outward, fun other isOther => outward.unique isOther,
      (follows.chain_le outward).2⟩
  · have further := follows.set (follows.size_eq ▸ made) name value
    have outwardLater : Outward (outers (operations ++ [.set frame name value])) number chain := by
      rwa [outers_set]
    rw [after_concat]
    refine ⟨fun nearest => ?_, fun wanted other => ?_⟩
    · exact (further.get?_eq outwardLater name).trans
        (nearest.findSome?_eq (follows.chain_le outward).2 value)
    · rw [follows.get?_eq outward]
      exact (further.get?_eq outwardLater wanted).trans (findSome?_eq_of_hidden other value)

theorem lookup_finds_nearest_binding_shadowed :
    let operations : List Operation :=
      [.root, .enclosed 0, .set 0 "x" (.integer 1), .enclosed 1, .set 1 "x" (.integer 2)]
    let later := after (operations ++ [.set 0 "x" (.integer 3)])
    InOrder 0 operations ∧ (after operations).get? 2 "x" = some (.integer 2) ∧
      later.get? 0 "x" = some (.integer 3) ∧ later.get? 2 "x" = some (.integer 2) := by
  intro operations later
  have inOrder : InOrder 0 operations :=
    .root (.enclosed (by decide) (.set (by decide) (.enclosed (by decide) (.set (by decide) .nil))))
  have finds := lookup_finds_nearest_binding operations inOrder
  have outermost : Outward (outers operations) 0 [0] := .outermost rfl
  have innermost : Outward (outers operations) 2 [2, 1, 0] :=
    .enclosed rfl (.enclosed rfl (.outermost rfl))
  have nearest : Nearest operations [0] 0 "x" := ⟨[], [], rfl, nofun⟩
  have shadowed : ¬Nearest operations [2, 1, 0] 0 "x" := by
    rintro ⟨nearer, further, split, unbound⟩
    obtain - | ⟨first, - | ⟨second, nearer⟩⟩ := nearer
    · exact absurd split (by simp)
    · exact absurd split (by simp)
    · obtain ⟨-, rfl, -⟩ : _ ∧ 1 = second ∧ _ := by simpa using split
      exact absurd (unbound 1 (by simp)) nofun
  have found : (after operations).get? 2 "x" = some (.integer 2) :=
    (finds.found 2 _ innermost "x").trans (by rfl)
  obtain ⟨seen, -⟩ := finds.changed 0 _ outermost 0 (by decide) "x" (.integer 3)
  obtain ⟨-, unseen⟩ := finds.changed 2 _ innermost 0 (by decide) "x" (.integer 3)
  exact ⟨inOrder, found, seen nearest, (unseen "x" fun both => shadowed both.2).trans found⟩

end Scopes

end MonkeyLang
