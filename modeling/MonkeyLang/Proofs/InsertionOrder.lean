/-
This file proves that hashes are maps in the order of insertion. The hash that a
program writes out lists one entry for each hash key, where the hash key first
stands among the pairs, and the entry holds the key and the value that stand
last beside it. Position and content come from different pairs, so they are
described apart: the one by a first index, the other by a search from the end.

Whatever else a session does, it never breaks what look-up relies on: that no two
entries have one hash key, and that each has the hash key of its key.
-/

import MonkeyLang.Proofs.Traits

namespace MonkeyLang

open Machine

/-! ### Hash keys -/

/-- Values with one hash key are of one type, and equal unless they are strings. -/
theorem Value.of_hashKey?_eq {left right : Value} {hashKey : HashKey}
    (found : left.hashKey? = some hashKey) (found' : right.hashKey? = some hashKey) :
    left.type = right.type ∧ (left.type ≠ .string → left = right) := by
  rcases (sameKey_iff_eq left right).mp ((sameKey_iff found).mpr found') with
    ⟨rfl, -⟩ | ⟨first, second, rfl, rfl, -⟩
  · exact ⟨rfl, fun _ => rfl⟩
  · exact ⟨rfl, fun noString => absurd rfl noString⟩

namespace Entry

/-! ### Where entries stand -/

section Order

variable {α : Type}

/-- An insertion adds the hash key at the end, unless it is there already. -/
theorem map_hashKey_insert (new : Entry α) (entries : List (Entry α)) :
    (insert new entries).map hashKey =
      if new.hashKey ∈ entries.map hashKey then entries.map hashKey
      else entries.map hashKey ++ [new.hashKey] := by
  induction entries with
  | nil => rfl
  | cons first rest inductionHypothesis =>
    rw [insert]
    by_cases same : first.hashKey = new.hashKey
    · simp [same]
    · simp only [if_neg same, List.map_cons, inductionHypothesis, List.mem_cons, Ne.symm same,
        false_or]
      split <;> rfl

/-- Entries that stand where their hash keys first stand among all hash keys: one for each of the
hash keys inserted so far. -/
structure Placed (all inserted : List HashKey) (entries : List (Entry α)) : Prop where
  mem_iff (hashKey : HashKey) : hashKey ∈ entries.map Entry.hashKey ↔ hashKey ∈ inserted
  ordered : (entries.map Entry.hashKey).Pairwise fun one other =>
    all.idxOf one < all.idxOf other

theorem Placed.insert {all inserted behind : List HashKey} {entries : List (Entry α)}
    {new : Entry α} (placed : Placed all inserted entries)
    (whole : all = inserted ++ new.hashKey :: behind) :
    Placed all (inserted ++ [new.hashKey]) (Entry.insert new entries) := by
  by_cases old : new.hashKey ∈ inserted
  · have keys : (Entry.insert new entries).map hashKey = entries.map hashKey := by
      rw [map_hashKey_insert, if_pos ((placed.mem_iff _).mpr old)]
    refine ⟨fun hashKey => ?_, keys ▸ placed.ordered⟩
    rw [keys, placed.mem_iff, List.mem_append, List.mem_singleton]
    exact ⟨.inl, fun member => member.elim id fun same => same ▸ old⟩
  · have keys : (Entry.insert new entries).map hashKey =
        entries.map hashKey ++ [new.hashKey] := by
      rw [map_hashKey_insert, if_neg fun member => old ((placed.mem_iff _).mp member)]
    refine ⟨fun hashKey => ?_, ?_⟩
    · rw [keys, List.mem_append, List.mem_append, placed.mem_iff]
    · rw [keys]
      refine List.pairwise_append.mpr ⟨placed.ordered, List.pairwise_singleton _ _, ?_⟩
      intro one isOne other isNew
      obtain rfl := List.mem_singleton.mp isNew
      have isOld := (placed.mem_iff one).mp isOne
      rw [whole, List.idxOf_append_of_mem isOld, List.idxOf_append_of_notMem old,
        List.idxOf_cons_self]
      exact List.idxOf_lt_length_iff.mpr isOld

/-- After all insertions, entries stand where their hash keys first stand among those inserted. -/
theorem Placed.insertAll {all inserted : List HashKey} {entries : List (Entry α)}
    (placed : Placed all inserted entries) (new : List (Entry α))
    (whole : all = inserted ++ new.map hashKey) :
    Placed all all (insertAll new entries) := by
  induction new generalizing inserted entries with
  | nil =>
    rw [List.map_nil, List.append_nil] at whole
    exact whole ▸ placed
  | cons first new inductionHypothesis =>
    refine inductionHypothesis (placed.insert whole) ?_
    rw [whole, List.map_cons, List.append_assoc, List.singleton_append]

end Order

/-! ### What entries hold -/

section Pairs

variable {pairs : List (Value × Value)}
  (usable : ∀ pair ∈ pairs, pair.1.hashKey?.isSome = true)

/-- The hash keys of the keys in pairs. -/
def hashKeysOf (pairs : List (Value × Value)) : List HashKey :=
  pairs.filterMap fun pair => pair.1.hashKey?

/-- The hash of pairs that were inserted in order: it lists their hash keys, each once and where it
first stands, and holds for each the key and the value that stand last beside it. -/
structure ListsPairs (pairs : List (Value × Value)) (entries : List (Entry Value)) : Prop where
  mem_iff (hashKey : HashKey) :
    hashKey ∈ entries.map Entry.hashKey ↔ hashKey ∈ hashKeysOf pairs
  distinct : Distinct entries
  ordered : entries.Pairwise fun one other =>
    (hashKeysOf pairs).idxOf one.hashKey < (hashKeysOf pairs).idxOf other.hashKey
  last : ∀ entry ∈ entries, (pairs.findRev? fun pair => pair.1.hashKey? == some entry.hashKey) =
    some (entry.key, entry.value)
  indexed (key : Value) (hashKey : HashKey) : key.hashKey? = some hashKey →
    (Value.hash entries).indexedBy key = .ok (((pairs.findRev? fun pair =>
      pair.1.hashKey? == some hashKey).map Prod.snd).getD .null)

include usable

theorem hashKeysOf_eq : hashKeysOf pairs = (pairs.map ofPair).map hashKey := by
  rw [List.map_map, hashKeysOf, ← List.filterMap_eq_map]
  refine List.filterMap_congr fun pair member => ?_
  exact hashKey?_eq_of_isSome (usable pair member)

theorem listsPairs_ofPairs : ListsPairs pairs (ofPairs pairs) := by
  have none : Placed (hashKeysOf pairs) [] ([] : List (Entry Value)) :=
    ⟨fun _ => Iff.rfl, List.Pairwise.nil⟩
  have placed := none.insertAll (pairs.map ofPair) (hashKeysOf_eq usable)
  have ordered := placed.ordered
  rw [List.pairwise_map] at ordered
  have distinct : Distinct (ofPairs pairs) := .insertAll .nil _
  refine ⟨placed.mem_iff, distinct, ordered, fun entry member => ?_,
    fun key hashKey found => ?_⟩
  · have isFound := distinct.find?_of_mem member
    rw [find?_ofPairs_eq usable] at isFound
    obtain ⟨pair, isLast, rfl⟩ := Option.map_eq_some_iff.mp isFound
    exact isLast
  · rw [Value.indexedBy, found]
    simp only [find?_ofPairs_eq usable]
    cases pairs.findRev? fun pair => pair.1.hashKey? == some hashKey <;> rfl

end Pairs

/-! ### What look-up relies on -/

/-- No two entries have one hash key, and each has the hash key of its key. -/
structure WellKeyed (entries : List (Entry Value)) : Prop where
  distinct : Distinct entries
  own : ∀ entry ∈ entries, entry.key.hashKey? = some entry.hashKey

theorem WellKeyed.insert {entries : List (Entry Value)} (wellKeyed : WellKeyed entries)
    {hashKey : HashKey} {key value : Value} (found : key.hashKey? = some hashKey) :
    WellKeyed (Entry.insert ⟨hashKey, key, value⟩ entries) := by
  refine ⟨wellKeyed.distinct.insert _, fun entry member => ?_⟩
  rcases mem_insert member with rfl | member
  · exact found
  · exact wellKeyed.own entry member

end Entry

/-- If a value is a hash, its entries are as look-up wants them. -/
def Value.WellKeyed (value : Value) : Prop :=
  ∀ entries, value = .hash entries → Entry.WellKeyed entries

theorem trait_wellKeyed : Trait Value.WellKeyed where
  plain plain := by
    rintro entries rfl
    exact absurd plain Bool.false_ne_true
  array := nofun
  function := nofun
  emptyHash := by
    rintro _ ⟨⟩
    exact ⟨.nil, nofun⟩
  insert before found := by
    rintro _ ⟨⟩
    exact (before _ rfl).insert found

/-! ### Hashes in sessions -/

/-- Hashes are maps in the order of insertion, and the last insertion wins. A hash that is written
out, with keys that can all be used, lists one entry for each of their hash keys, in the order in
which these first stand, and each entry holds the key and the value that stand last; so indexing it
yields the value that stands last behind the hash key, or `null`. In a session that finds none but
hashes whose entries are told apart by the hash keys of their keys, no others ever occur. And the
hash key of anything but a string tells which value it is. -/
theorem hashes_keep_insertion_order :
    (∀ {apply : Application} {frame : Nat} {pairs : List (Expression × Expression)}
      {machine last : Machine} {evaluated : List (Value × Value)},
      (evaluateAll apply frame (inOrder pairs)).on machine = (.ok (inOrder evaluated), last) →
      (∀ pair ∈ evaluated, pair.1.hashKey?.isSome = true) →
      ∃ entries, ((Expression.hash pairs).evaluate apply frame).on machine =
          (.ok (.hash entries), last) ∧ Entry.ListsPairs evaluated entries) ∧
    (∀ (limit root : Nat) (programs : List Program) (start : Machine),
      (∀ entries, start.scopes.Holds root (.hash entries) → Entry.WellKeyed entries) →
      (∀ entries, Occurs limit root programs start (.hash entries) → Entry.WellKeyed entries) ∧
      ∀ moment ∈ ⟨start, [root]⟩ :: sessionHistory limit root programs start, ∀ entries,
        moment.machine.scopes.Holds root (.hash entries) → Entry.WellKeyed entries) ∧
    ∀ (left right : Value) (hashKey : HashKey), left.hashKey? = some hashKey →
      right.hashKey? = some hashKey →
      left.type = right.type ∧ (left.type ≠ .string → left = right) := by
  refine ⟨fun {_ _ _ _ _ evaluated} yields usable => ?_, fun limit root programs start clean => ?_,
    fun _ _ _ => Value.of_hashKey?_eq⟩
  · have keys : ∀ pair ∈ evaluated, pair.1.type ∈ keyTypes :=
      fun pair member => Value.type_mem_keyTypes (usable pair member)
    exact ⟨_, evaluatePairs_on [] yields keys, Entry.listsPairs_ofPairs usable⟩
  · have clean' : ∀ value, start.scopes.Holds root value → value.WellKeyed := by
      rintro _ held entries rfl
      exact clean entries held
    refine ⟨fun entries occurs => ?_, fun moment isMoment entries held => ?_⟩
    · exact (trait_wellKeyed.throughout_of_occurs clean' occurs).self entries rfl
    · exact trait_wellKeyed.of_held clean' moment isMoment _ held entries rfl

/-- A hash written out with a key that stands in front and in the end again, in a session that has
bound a hash before and in one that has bound nothing. -/
theorem hashes_keep_insertion_order_repeated :
    let pairs : List (Expression × Expression) :=
      [(.integer 1, .integer 10), (.string "one", .boolean true), (.integer 1, .integer 20)]
    let evaluated : List (Value × Value) :=
      [(.integer 1, .integer 10), (.string "one", .boolean true), (.integer 1, .integer 20)]
    let bound : List (Entry Value) := [⟨⟨.boolean, 1⟩, .boolean true, .null⟩]
    let start := Machine.initial.withBinding rootFrame "h" (.hash bound)
    let program : Program := ⟨[.binding "h" (.hash pairs)]⟩
    (evaluateAll (applyAtDepth 4) rootFrame (inOrder pairs)).on start =
        (.ok (inOrder evaluated), start) ∧
      (∀ pair ∈ evaluated, pair.1.hashKey?.isSome = true) ∧
      (∃ entries, ((Expression.hash pairs).evaluate (applyAtDepth 4) rootFrame).on start =
          (.ok (.hash entries), start) ∧
        (entries.map Entry.key = [.integer 1, .string "one"] ∧
          entries.map Entry.value = [.integer 20, .boolean true]) ∧
        (Value.hash entries).indexedBy (.integer 1) = .ok (.integer 20) ∧
        (Value.hash entries).indexedBy (.integer 2) = .ok .null) ∧
      (∀ entries, start.scopes.Holds rootFrame (.hash entries) → Entry.WellKeyed entries) ∧
      (∀ entries, Occurs 4 rootFrame [program] start (.hash entries) →
        Entry.WellKeyed entries) ∧
      (∀ entries, Occurs 4 rootFrame [program] .initial (.hash entries) →
        Entry.WellKeyed entries) ∧
      (Value.integer (-1)).hashKey? = some ⟨.integer, 18446744073709551615⟩ ∧
      ∀ other : Value, other.hashKey? = some ⟨.integer, 18446744073709551615⟩ →
        other = .integer (-1) := by
  intro pairs evaluated bound start program
  obtain ⟨literal, session, hashKeys⟩ := hashes_keep_insertion_order
  have yields : (evaluateAll (applyAtDepth 4) rootFrame (inOrder pairs)).on start =
      (.ok (inOrder evaluated), start) := rfl
  have usable : ∀ pair ∈ evaluated, pair.1.hashKey?.isSome = true := by
    simp [evaluated, Value.hashKey?, Value.hashCode?]
  have clean : ∀ entries, start.scopes.Holds rootFrame (.hash entries) →
      Entry.WellKeyed entries := by
    intro entries held
    have wellKeyed : (Value.hash bound).Throughout Value.WellKeyed := by
      refine .intro (trait_wellKeyed.insert trait_wellKeyed.emptyHash rfl) fun part isPart => ?_
      obtain rfl | rfl : part = .boolean true ∨ part = .null := by
        simpa [bound, Value.parts] using isPart
      · exact .ofParts (trait_wellKeyed.plain rfl) rfl
      · exact .ofParts (trait_wellKeyed.plain rfl) rfl
    exact (wellKeyed.contains (contains_of_holds held)).self entries rfl
  obtain ⟨entries, evaluates, lists⟩ := literal yields usable
  have same : ((Expression.hash pairs).evaluate (applyAtDepth 4) rootFrame).on start =
      (.ok (.hash (Entry.ofPairs evaluated)), start) := rfl
  obtain rfl := Value.hash.inj (Except.ok.inj (Prod.mk.inj (evaluates.symm.trans same)).1)
  refine ⟨yields, usable, ⟨_, evaluates, ⟨rfl, rfl⟩, ?_, ?_⟩, clean,
    (session 4 rootFrame [program] start clean).1,
    (session 4 rootFrame [program] .initial fun _ held => absurd held (not_holds_initial _)).1,
    rfl, fun other found => ?_⟩
  · exact lists.indexed (.integer 1) ⟨.integer, 1⟩ rfl
  · exact lists.indexed (.integer 2) ⟨.integer, 2⟩ rfl
  · exact ((hashKeys (.integer (-1)) other _ rfl found).2 (by simp [Value.type])).symm

end MonkeyLang
