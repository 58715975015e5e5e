/-
This file proves that equality of values is an equivalence, and blind to the order
of entries. Hashes are compared from one side only: as many entries, and each of
the left found on the right. That this is symmetric is a matter of counting. As no
two entries of a hash have one hash key, hash keys on the left that are all on the
right, and no fewer, are all of those on the right.

So two hashes are equal just if they have the same hash keys and agree on what is
behind each. From there on, hash keys are to hashes what positions are to arrays.
-/

import Mathlib.Data.List.Nodup
import Mathlib.Data.List.Perm.Subperm
import MonkeyLang.Proofs.InsertionOrder
import MonkeyLang.Value.Equality

namespace MonkeyLang

open Machine

/-! ### Elements and entries -/

/-- Arrays are equal if they are equally long and equal at every position. -/
theorem sameElements_iff {left right : List Value} :
    sameElements left right = true ↔ left.length = right.length ∧
      ∀ (position : Nat) (one other : Value), left[position]? = some one →
        right[position]? = some other → one.same other = true := by
  induction left generalizing right with
  | nil => cases right <;> simp [sameElements]
  | cons first rest inductionHypothesis =>
    cases right with
    | nil => simp [sameElements]
    | cons first' rest' =>
      rw [sameElements, Bool.and_eq_true, inductionHypothesis]
      constructor
      · rintro ⟨same, length, others⟩
        refine ⟨congrArg Nat.succ length, fun position one other isOne isOther => ?_⟩
        cases position with
        | zero =>
          obtain rfl := Option.some.inj isOne
          obtain rfl := Option.some.inj isOther
          exact same
        | succ position => exact others position one other isOne isOther
      · rintro ⟨length, all⟩
        exact ⟨all 0 first first' rfl rfl, Nat.succ.inj length, fun position => all (position + 1)⟩

theorem sameElements_refl {elements : List Value}
    (refl : ∀ element ∈ elements, element.same element = true) :
    sameElements elements elements = true := by
  refine sameElements_iff.mpr ⟨rfl, fun position one other isOne isOther => ?_⟩
  obtain rfl := Option.some.inj (isOne.symm.trans isOther)
  exact refl one (List.mem_of_getElem? isOne)

theorem sameElements_symm {left right : List Value}
    (symm : ∀ one ∈ left, ∀ other ∈ right, one.same other = true → other.same one = true)
    (same : sameElements left right = true) : sameElements right left = true := by
  obtain ⟨length, all⟩ := sameElements_iff.mp same
  refine sameElements_iff.mpr ⟨length.symm, fun position other one isOther isOne => ?_⟩
  exact symm one (List.mem_of_getElem? isOne) other (List.mem_of_getElem? isOther)
    (all position one other isOne isOther)

theorem sameElements_trans {left middle right : List Value}
    (trans : ∀ one ∈ left, ∀ between ∈ middle, ∀ other ∈ right,
      one.same between = true → between.same other = true → one.same other = true)
    (first : sameElements left middle = true) (second : sameElements middle right = true) :
    sameElements left right = true := by
  obtain ⟨length, all⟩ := sameElements_iff.mp first
  obtain ⟨length', all'⟩ := sameElements_iff.mp second
  refine sameElements_iff.mpr ⟨length.trans length', fun position one other isOne isOther => ?_⟩
  have inside : position < middle.length := length ▸ (List.getElem?_eq_some_iff.mp isOne).1
  have isBetween : middle[position]? = some middle[position] := List.getElem?_eq_getElem inside
  exact trans one (List.mem_of_getElem? isOne) _ (List.getElem_mem inside) other
    (List.mem_of_getElem? isOther) (all position one _ isOne isBetween)
    (all' position _ other isBetween isOther)

/-- Every entry on the left leads to an equal one on the right. -/
theorem sameEntries_iff {left right : List (Entry Value)} :
    sameEntries left right = true ↔ ∀ one ∈ left, ∃ other,
      Entry.find? one.hashKey right = some other ∧
        one.key.same other.key = true ∧ one.value.same other.value = true := by
  induction left with
  | nil => simp [sameEntries]
  | cons first rest inductionHypothesis =>
    rw [sameEntries, Bool.and_eq_true, inductionHypothesis, List.forall_mem_cons]
    refine and_congr_left fun _ => ?_
    cases found : Entry.find? first.hashKey right with
    | none => simp
    | some other => simp

/-! ### Hashes that agree -/

theorem Value.key_mem_parts {entries : List (Entry Value)} {entry : Entry Value}
    (member : entry ∈ entries) : entry.key ∈ (hash entries).parts :=
  mem_parts_hash.mpr ⟨entry, member, .inl rfl⟩

theorem Value.value_mem_parts {entries : List (Entry Value)} {entry : Entry Value}
    (member : entry ∈ entries) : entry.value ∈ (hash entries).parts :=
  mem_parts_hash.mpr ⟨entry, member, .inr rfl⟩

namespace Entry

theorem Distinct.nodup {entries : List (Entry Value)} (distinct : Distinct entries) :
    (entries.map hashKey).Nodup :=
  List.pairwise_map.mpr distinct

theorem Distinct.eq_of_hashKey_eq {entries : List (Entry Value)} (distinct : Distinct entries)
    {one other : Entry Value} (isOne : one ∈ entries) (isOther : other ∈ entries)
    (same : one.hashKey = other.hashKey) : one = other :=
  List.inj_on_of_nodup_map distinct.nodup isOne isOther same

/-- Two hashes have the same hash keys, and behind each of them equal keys and equal values. -/
structure Agree (left right : List (Entry Value)) : Prop where
  mem_iff (hashKey : HashKey) :
    hashKey ∈ left.map Entry.hashKey ↔ hashKey ∈ right.map Entry.hashKey
  equal : ∀ one ∈ left, ∀ other ∈ right, one.hashKey = other.hashKey →
    one.key.same other.key = true ∧ one.value.same other.value = true

namespace Agree

section Equivalence

variable {left middle right : List (Entry Value)}

/-- The entry on the right with the hash key of one on the left. -/
theorem exists_mem (agree : Agree left right) {one : Entry Value} (isOne : one ∈ left) :
    ∃ other ∈ right, one.hashKey = other.hashKey := by
  obtain ⟨other, isOther, same⟩ :=
    List.mem_map.mp ((agree.mem_iff one.hashKey).mp (List.mem_map_of_mem isOne))
  exact ⟨other, isOther, same.symm⟩

theorem refl (distinct : Distinct left)
    (refl : ∀ part ∈ (Value.hash left).parts, part.same part = true) : Agree left left := by
  refine ⟨fun _ => .rfl, fun one isOne other isOther same => ?_⟩
  obtain rfl := distinct.eq_of_hashKey_eq isOne isOther same
  exact ⟨refl _ (Value.key_mem_parts isOne), refl _ (Value.value_mem_parts isOne)⟩

theorem symm (agree : Agree left right)
    (symm : ∀ one ∈ (Value.hash left).parts, ∀ other ∈ (Value.hash right).parts,
      one.same other = true → other.same one = true) : Agree right left := by
  refine ⟨fun hashKey => (agree.mem_iff hashKey).symm, fun other isOther one isOne same => ?_⟩
  obtain ⟨keys, values⟩ := agree.equal one isOne other isOther same.symm
  exact ⟨symm _ (Value.key_mem_parts isOne) _ (Value.key_mem_parts isOther) keys,
    symm _ (Value.value_mem_parts isOne) _ (Value.value_mem_parts isOther) values⟩

theorem trans (first : Agree left middle) (second : Agree middle right)
    (trans : ∀ one ∈ (Value.hash left).parts, ∀ between ∈ (Value.hash middle).parts,
      ∀ other ∈ (Value.hash right).parts, one.same between = true → between.same other = true →
      one.same other = true) : Agree left right := by
  refine ⟨fun hashKey => (first.mem_iff hashKey).trans (second.mem_iff hashKey),
    fun one isOne other isOther same => ?_⟩
  obtain ⟨between, isBetween, same'⟩ := first.exists_mem isOne
  obtain ⟨keys, values⟩ := first.equal one isOne between isBetween same'
  obtain ⟨keys', values'⟩ := second.equal between isBetween other isOther (same'.symm.trans same)
  exact ⟨trans _ (Value.key_mem_parts isOne) _ (Value.key_mem_parts isBetween) _
      (Value.key_mem_parts isOther) keys keys',
    trans _ (Value.value_mem_parts isOne) _ (Value.value_mem_parts isBetween) _
      (Value.value_mem_parts isOther) values values'⟩

end Equivalence

section Distinct

variable {left right : List (Entry Value)} (distinctLeft : Distinct left)
  (distinctRight : Distinct right)

include distinctLeft distinctRight

/-- If there are as many hash keys on both sides and each on the left is on the right, each on the
right is on the left. -/
theorem of_found (length : left.length = right.length)
    (found : ∀ one ∈ left, ∃ other, find? one.hashKey right = some other ∧
      one.key.same other.key = true ∧ one.value.same other.value = true) :
    Agree left right := by
  have subset : left.map hashKey ⊆ right.map hashKey := by
    intro hashKey member
    obtain ⟨one, isOne, rfl⟩ := List.mem_map.mp member
    obtain ⟨other, isFound, -⟩ := found one isOne
    obtain ⟨isOther, same⟩ := mem_of_find? isFound
    exact List.mem_map.mpr ⟨other, isOther, same⟩
  -- Distinct hash keys that are all on the right, and no fewer than there: it is the same ones.
  have all : (left.map hashKey).Perm (right.map hashKey) := by
    refine (List.subperm_of_subset distinctLeft.nodup subset).perm_of_length_le ?_
    rw [List.length_map, List.length_map]
    exact Nat.le_of_eq length.symm
  refine ⟨fun _ => all.mem_iff, fun one isOne other isOther same => ?_⟩
  obtain ⟨other', isFound, equal⟩ := found one isOne
  rw [same, distinctRight.find?_of_mem isOther] at isFound
  obtain rfl := Option.some.inj isFound
  exact equal

theorem length_eq (agree : Agree left right) : left.length = right.length := by
  have all : (left.map hashKey).Perm (right.map hashKey) :=
    (List.perm_ext_iff_of_nodup distinctLeft.nodup distinctRight.nodup).mpr agree.mem_iff
  simpa only [List.length_map] using all.length_eq

/-- Hashes are equal just if they agree. -/
theorem same_iff : (Value.hash left).same (.hash right) = true ↔ Agree left right := by
  rw [Value.same, Bool.and_eq_true, beq_iff_eq, sameEntries_iff]
  constructor
  · rintro ⟨length, found⟩
    exact of_found distinctLeft distinctRight length found
  · intro agree
    refine ⟨agree.length_eq distinctLeft distinctRight, fun one isOne => ?_⟩
    obtain ⟨other, isOther, same⟩ := agree.exists_mem isOne
    exact ⟨other, same ▸ distinctRight.find?_of_mem isOther,
      agree.equal one isOne other isOther same⟩

end Distinct

end Agree

end Entry

/-! ### An equivalence -/

namespace Value

/-- Values that are equal are one value, or they are arrays, hashes or functions. -/
theorem same_cases {left right : Value} (same : left.same right = true) : left = right ∨
    (∃ elements others, left = .array elements ∧ right = .array others) ∨
    (∃ entries others, left = .hash entries ∧ right = .hash others) ∨
    ∃ closure other, left = .function closure ∧ right = .function other := by
  cases left with
  | array elements => cases right with
    | array others => exact .inr (.inl ⟨elements, others, rfl, rfl⟩)
    | _ => exact absurd same Bool.false_ne_true
  | hash entries => cases right with
    | hash others => exact .inr (.inr (.inl ⟨entries, others, rfl, rfl⟩))
    | _ => exact absurd same Bool.false_ne_true
  | function closure => cases right with
    | function other => exact .inr (.inr (.inr ⟨closure, other, rfl, rfl⟩))
    | _ => exact absurd same Bool.false_ne_true
  | integer | string | boolean | null | builtin | error =>
    cases right <;> simp_all [Value.same]

theorem Throughout.distinct {entries : List (Entry Value)}
    (proper : (hash entries).Throughout WellKeyed) : Entry.Distinct entries :=
  (proper.self entries rfl).distinct

theorem same_refl {value : Value} (proper : value.Throughout WellKeyed) :
    value.same value = true := by
  induction proper with
  | @intro value own _ inductionHypothesis =>
    cases value with
    | array elements => exact sameElements_refl inductionHypothesis
    | hash entries =>
      have distinct := (own entries rfl).distinct
      exact (Entry.Agree.same_iff distinct distinct).mpr (.refl distinct inductionHypothesis)
    | _ => simp [Value.same]

theorem same_symm {left right : Value} (properLeft : left.Throughout WellKeyed)
    (properRight : right.Throughout WellKeyed) (same : left.same right = true) :
    right.same left = true := by
  -- The induction goes down the left value. Any part of the right one may stand against a part of
  -- it, since entries may be found anywhere.
  induction properLeft generalizing right with
  | @intro left own _ inductionHypothesis =>
    have symm : ∀ one ∈ left.parts, ∀ other ∈ right.parts, one.same other = true →
        other.same one = true :=
      fun one isOne other isOther => inductionHypothesis one isOne (properRight.part isOther)
    rcases same_cases same with rfl | ⟨elements, others, rfl, rfl⟩ | ⟨entries, others, rfl, rfl⟩ |
      ⟨closure, other, rfl, rfl⟩
    · exact same
    · exact sameElements_symm symm same
    · have distinct := (own entries rfl).distinct
      have agree := (Entry.Agree.same_iff distinct properRight.distinct).mp same
      exact (Entry.Agree.same_iff properRight.distinct distinct).mpr (agree.symm symm)
    · exact beq_iff_eq.mpr (beq_iff_eq.mp same).symm

theorem same_trans {left middle right : Value} (properLeft : left.Throughout WellKeyed)
    (properMiddle : middle.Throughout WellKeyed) (properRight : right.Throughout WellKeyed)
    (first : left.same middle = true) (second : middle.same right = true) :
    left.same right = true := by
  induction properLeft generalizing middle right with
  | @intro left own _ inductionHypothesis =>
    have trans : ∀ one ∈ left.parts, ∀ between ∈ middle.parts, ∀ other ∈ right.parts,
        one.same between = true → between.same other = true → one.same other = true :=
      fun one isOne between isBetween other isOther =>
        inductionHypothesis one isOne (properMiddle.part isBetween) (properRight.part isOther)
    rcases same_cases first with rfl | ⟨elements, middles, rfl, rfl⟩ |
      ⟨entries, middles, rfl, rfl⟩ | ⟨closure, between, rfl, rfl⟩
    · exact second
    · cases right with
      | array others => exact sameElements_trans trans first second
      | _ => exact absurd second Bool.false_ne_true
    · cases right with
      | hash others =>
        have distinct := (own entries rfl).distinct
        have agree := (Entry.Agree.same_iff distinct properMiddle.distinct).mp first
        have agree' := (Entry.Agree.same_iff properMiddle.distinct properRight.distinct).mp second
        exact (Entry.Agree.same_iff distinct properRight.distinct).mpr (agree.trans agree' trans)
      | _ => exact absurd second Bool.false_ne_true
    · cases right with
      | function other =>
        exact beq_iff_eq.mpr ((beq_iff_eq.mp first).trans (beq_iff_eq.mp second))
      | _ => exact absurd second Bool.false_ne_true

/-- Equal values have one hash key, or none. -/
theorem hashKey?_eq_of_same {left right : Value} (same : left.same right = true) :
    left.hashKey? = right.hashKey? := by
  rcases same_cases same with rfl | ⟨_, _, rfl, rfl⟩ | ⟨_, _, rfl, rfl⟩ | ⟨_, _, rfl, rfl⟩ <;> rfl

end Value

/-! ### Pairs in another order -/

namespace Entry

variable {pairs others : List (Value × Value)}

/-- Pairs that are told apart by the hash keys of their keys make hashes that agree, in whatever
order they come. -/
theorem agree_ofPairs (usable : ∀ pair ∈ pairs, pair.1.hashKey?.isSome = true)
    (distinct : (pairs.map fun pair => pair.1.hashKey?).Nodup) (permuted : pairs.Perm others)
    (equal : ∀ pair ∈ pairs, pair.1.same pair.1 = true ∧ pair.2.same pair.2 = true) :
    Agree (ofPairs pairs) (ofPairs others) := by
  have usable' : ∀ pair ∈ others, pair.1.hashKey?.isSome = true :=
    fun pair member => usable pair (permuted.mem_iff.mpr member)
  refine ⟨fun hashKey => ?_, fun one isOne other isOther same => ?_⟩
  · rw [(listsPairs_ofPairs usable).mem_iff, (listsPairs_ofPairs usable').mem_iff]
    exact (permuted.filterMap _).mem_iff
  · obtain ⟨pair, isPair, rfl⟩ := mem_ofPairs isOne
    obtain ⟨pair', isPair', rfl⟩ := mem_ofPairs isOther
    have member := permuted.mem_iff.mpr isPair'
    have hashKeys : pair.1.hashKey? = pair'.1.hashKey? := by
      rw [hashKey?_eq_of_isSome (usable _ isPair), hashKey?_eq_of_isSome (usable _ member), same]
    obtain rfl := List.inj_on_of_nodup_map distinct isPair member hashKeys
    exact equal pair isPair

end Entry

/-! ### Values of a session -/

section Sessions

variable {limit root : Nat} {programs : List Program} {start : Machine}
  (clean : ∀ entries, start.scopes.Holds root (.hash entries) → Entry.WellKeyed entries)

include clean

theorem Occurs.throughout_wellKeyed {value : Value}
    (occurs : Occurs limit root programs start value) : value.Throughout Value.WellKeyed := by
  refine trait_wellKeyed.throughout_of_occurs ?_ occurs
  rintro _ held entries rfl
  exact clean entries held

end Sessions

/-- Equality is an equivalence on the values of a session, and blind to the order of entries. Two
hashes are equal just if they have the same hash keys and, behind each of them, equal keys and equal
values. So hashes that are written out with the same pairs in different orders are equal, if no two
of the keys have one hash key. And equal integers, strings or truth values have one hash key. -/
theorem equality_ignores_order (limit root : Nat) (programs : List Program) (start : Machine)
    (clean : ∀ entries, start.scopes.Holds root (.hash entries) → Entry.WellKeyed entries) :
    (Equivalence fun left right : { value // Occurs limit root programs start value } =>
      left.val.same right.val = true) ∧
    (∀ left right, Occurs limit root programs start (.hash left) →
      Occurs limit root programs start (.hash right) →
      ((Value.hash left).same (.hash right) = true ↔ Entry.Agree left right)) ∧
    (∀ {apply apply' : Application} {frame frame' : Nat}
      {pairs pairs' : List (Expression × Expression)} {machine machine' last last' : Machine}
      {evaluated evaluated' : List (Value × Value)},
      (evaluateAll apply frame (inOrder pairs)).on machine = (.ok (inOrder evaluated), last) →
      (evaluateAll apply' frame' (inOrder pairs')).on machine' =
        (.ok (inOrder evaluated'), last') →
      (∀ value ∈ inOrder evaluated, Occurs limit root programs start value) →
      (∀ pair ∈ evaluated, pair.1.hashKey?.isSome = true) →
      (evaluated.map fun pair => pair.1.hashKey?).Nodup → evaluated.Perm evaluated' →
      ∃ entries entries',
        ((Expression.hash pairs).evaluate apply frame).on machine = (.ok (.hash entries), last) ∧
        ((Expression.hash pairs').evaluate apply' frame').on machine' =
          (.ok (.hash entries'), last') ∧
        (Value.hash entries).same (.hash entries') = true) ∧
    ∀ left right : Value, left.same right = true → left.hashKey? = right.hashKey? ∧
      (left.type ∈ keyTypes → left.hashKey?.isSome = true) := by
  have proper {value : Value} (occurs : Occurs limit root programs start value) :=
    occurs.throughout_wellKeyed clean
  refine ⟨⟨fun value => Value.same_refl (proper value.property),
      fun {left right} => Value.same_symm (proper left.property) (proper right.property),
      fun {left middle right} => Value.same_trans (proper left.property) (proper middle.property)
        (proper right.property)⟩,
    fun left right isLeft isRight =>
      Entry.Agree.same_iff (proper isLeft).distinct (proper isRight).distinct,
    fun {_ _ _ _ _ _ _ _ _ _ evaluated evaluated'} yields yields' occurs usable distinct
      permuted => ?_,
    fun _ _ same => ⟨Value.hashKey?_eq_of_same same, Value.isSome_hashKey?⟩⟩
  have keys : ∀ pair ∈ evaluated, pair.1.type ∈ keyTypes :=
    fun pair member => Value.type_mem_keyTypes (usable pair member)
  have keys' : ∀ pair ∈ evaluated', pair.1.type ∈ keyTypes :=
    fun pair member => keys pair (permuted.mem_iff.mpr member)
  have equal : ∀ pair ∈ evaluated, pair.1.same pair.1 = true ∧ pair.2.same pair.2 = true := by
    intro pair member
    have inside : ∀ value ∈ [pair.1, pair.2], value.same value = true := fun value isPart =>
      Value.same_refl (proper (occurs value (List.mem_flatMap.mpr ⟨pair, member, isPart⟩)))
    exact ⟨inside _ List.mem_cons_self, inside _ (List.mem_cons_of_mem _ List.mem_cons_self)⟩
  refine ⟨_, _, evaluatePairs_on [] yields keys, evaluatePairs_on [] yields' keys', ?_⟩
  exact (Entry.Agree.same_iff (.insertAll .nil _) (.insertAll .nil _)).mpr
    (Entry.agree_ofPairs usable distinct permuted equal)

/-- A hash that is bound, and its entries written out in either order. -/
theorem equality_ignores_order_reversed :
    let bound : List (Entry Value) :=
      [⟨⟨.integer, 1⟩, .integer 1, .array []⟩, ⟨⟨.boolean, 1⟩, .boolean true, .integer 1⟩]
    let start := Machine.initial.withBinding rootFrame "h" (.hash bound)
    let pairs : List (Expression × Expression) :=
      [(.integer 1, .array []), (.boolean true, .integer 1)]
    let evaluated : List (Value × Value) :=
      [(.integer 1, .array []), (.boolean true, .integer 1)]
    (∀ entries, start.scopes.Holds rootFrame (.hash entries) → Entry.WellKeyed entries) ∧
      Occurs 4 rootFrame [] start (.hash bound) ∧ Entry.Agree bound bound ∧
      (evaluateAll (applyAtDepth 4) rootFrame (inOrder pairs)).on start =
        (.ok (inOrder evaluated), start) ∧
      (evaluateAll (applyAtDepth 4) rootFrame (inOrder pairs.reverse)).on start =
        (.ok (inOrder evaluated.reverse), start) ∧
      (∀ value ∈ inOrder evaluated, Occurs 4 rootFrame [] start value) ∧
      (∀ pair ∈ evaluated, pair.1.hashKey?.isSome = true) ∧
      (evaluated.map fun pair => pair.1.hashKey?).Nodup ∧ evaluated.Perm evaluated.reverse ∧
      (∃ entries entries',
        ((Expression.hash pairs).evaluate (applyAtDepth 4) rootFrame).on start =
          (.ok (.hash entries), start) ∧
        ((Expression.hash pairs.reverse).evaluate (applyAtDepth 4) rootFrame).on start =
          (.ok (.hash entries'), start) ∧
        entries.map Entry.key = (entries'.map Entry.key).reverse ∧
        (Value.hash entries).same (.hash entries') = true) ∧
      (Value.boolean true).same (.boolean true) = true ∧
      (Value.boolean true).hashKey?.isSome = true := by
  intro bound start pairs evaluated
  have own : Entry.WellKeyed bound :=
    ⟨List.pairwise_pair.mpr (by decide),
      List.forall_mem_cons.mpr ⟨rfl, List.forall_mem_singleton.mpr rfl⟩⟩
  have wellKeyed : (Value.hash bound).Throughout Value.WellKeyed := by
    refine .intro (fun _ same => Value.hash.inj same ▸ own) fun part isPart => ?_
    have parts : part ∈ [Value.integer 1, .array [], .boolean true, .integer 1] := isPart
    simp only [List.mem_cons, List.not_mem_nil, or_false] at parts
    rcases parts with rfl | rfl | rfl | rfl
    · exact .ofParts (trait_wellKeyed.plain rfl) rfl
    · exact .ofParts trait_wellKeyed.array rfl
    · exact .ofParts (trait_wellKeyed.plain rfl) rfl
    · exact .ofParts (trait_wellKeyed.plain rfl) rfl
  have clean : ∀ entries, start.scopes.Holds rootFrame (.hash entries) →
      Entry.WellKeyed entries :=
    fun entries held => (wellKeyed.contains (contains_of_holds held)).self entries rfl
  obtain ⟨equivalence, agree, permuted, hashKeys⟩ :=
    equality_ignores_order 4 rootFrame [] start clean
  have occurs : Occurs 4 rootFrame [] start (.hash bound) :=
    .bound List.mem_cons_self (.inl .root) (rfl : start.scopes.frame? rootFrame =
      some ⟨[("h", .hash bound)], none⟩) List.mem_cons_self
  have yields : (evaluateAll (applyAtDepth 4) rootFrame (inOrder pairs)).on start =
      (.ok (inOrder evaluated), start) := rfl
  have yields' : (evaluateAll (applyAtDepth 4) rootFrame (inOrder pairs.reverse)).on start =
      (.ok (inOrder evaluated.reverse), start) := rfl
  have parts : ∀ value ∈ inOrder evaluated, Occurs 4 rootFrame [] start value :=
    fun _ isPart => .part occurs isPart
  have usable : ∀ pair ∈ evaluated, pair.1.hashKey?.isSome = true := by
    simp [evaluated, Value.hashKey?, Value.hashCode?]
  have distinct : (evaluated.map fun pair => pair.1.hashKey?).Nodup := by
    simp [evaluated, Value.hashKey?, Value.hashCode?, Value.type]
  have reversed := evaluated.reverse_perm.symm
  obtain ⟨entries, entries', evaluates, evaluates', same⟩ :=
    permuted yields yields' parts usable distinct reversed
  have written : ((Expression.hash pairs).evaluate (applyAtDepth 4) rootFrame).on start =
      (.ok (.hash (Entry.ofPairs evaluated)), start) := rfl
  have written' : ((Expression.hash pairs.reverse).evaluate (applyAtDepth 4) rootFrame).on start =
      (.ok (.hash (Entry.ofPairs evaluated.reverse)), start) := rfl
  obtain rfl := Value.hash.inj (Except.ok.inj (Prod.mk.inj (evaluates.symm.trans written)).1)
  obtain rfl := Value.hash.inj (Except.ok.inj (Prod.mk.inj (evaluates'.symm.trans written')).1)
  have self : (Value.hash bound).same (.hash bound) = true := equivalence.refl ⟨_, occurs⟩
  have equal : (Value.boolean true).same (.boolean true) = true := rfl
  exact ⟨clean, occurs, (agree bound bound occurs occurs).mp self, yields, yields', parts, usable,
    distinct, reversed, ⟨_, _, evaluates, evaluates', rfl, same⟩, equal,
    (hashKeys _ _ equal).2 (by simp [Value.type, keyTypes])⟩

end MonkeyLang
