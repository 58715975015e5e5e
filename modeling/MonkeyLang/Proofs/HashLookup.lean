/-
This file proves what a hash holds that a program writes out: behind each key the
value that stands last beside it. Which keys count as the same is settled by
their hash keys. Integers and truth values have a hash key to themselves, but
strings share theirs with every string of the same digest.
-/

import MonkeyLang.Evaluation
import MonkeyLang.Proofs.Running

namespace MonkeyLang

/-! ### Keys -/

/-- The types of values that can be keys. -/
def keyTypes : List ValueType :=
  [.integer, .string, .boolean]

/-- Whether two values are the same key: they are of one type and equal, except that two strings
need only share their digest. -/
def Value.sameKey : Value → Value → Bool
  | .integer left, .integer right => left == right
  | .boolean left, .boolean right => left == right
  | .string left, .string right => Digest.ofText left == Digest.ofText right
  | _, _ => false

namespace Value

/-- A value of these types has a hash key. -/
theorem exists_hashKey {key : Value} (isKey : key.type ∈ keyTypes) :
    ∃ hashKey, key.hashKey? = some hashKey := by
  cases key with
  | integer _ | string _ | boolean _ => exact ⟨_, rfl⟩
  | _ => exact absurd isKey (by simp [type, keyTypes])

theorem type_mem_keyTypes {key : Value} (usable : key.hashKey?.isSome = true) :
    key.type ∈ keyTypes := by
  cases key with
  | integer | string | boolean => simp [type, keyTypes]
  | _ => simp [hashKey?, hashCode?] at usable

theorem isSome_hashKey? {key : Value} (isKey : key.type ∈ keyTypes) :
    key.hashKey?.isSome = true :=
  Option.isSome_iff_exists.mpr (exists_hashKey isKey)

/-- Two values are the same key exactly if they have the same hash key. -/
theorem sameKey_iff {left right : Value} {hashKey : HashKey}
    (found : left.hashKey? = some hashKey) :
    left.sameKey right = true ↔ right.hashKey? = some hashKey := by
  rw [← found]
  cases left with
  | integer left =>
    cases right with
    | integer right =>
      show (left == right) = true ↔
        some (HashKey.mk .integer right.toUInt64) = some (HashKey.mk .integer left.toUInt64)
      rw [beq_iff_eq, Option.some.injEq, HashKey.mk.injEq]
      exact ⟨fun same => ⟨rfl, same ▸ rfl⟩, fun both => (congrArg Int64.ofUInt64 both.2).symm⟩
    | _ => simp [sameKey, hashKey?, hashCode?, type]
  | boolean left =>
    cases right with
    | boolean right => cases left <;> cases right <;> decide
    | _ => simp [sameKey, hashKey?, hashCode?, type]
  | string left =>
    cases right with
    | string right =>
      show (Digest.ofText left == Digest.ofText right) = true ↔
        some (HashKey.mk .string (Digest.ofText right)) =
          some (HashKey.mk .string (Digest.ofText left))
      rw [beq_iff_eq, Option.some.injEq, HashKey.mk.injEq]
      exact ⟨fun same => ⟨rfl, same.symm⟩, fun both => both.2.symm⟩
    | _ => simp [sameKey, hashKey?, hashCode?, type]
  | _ => simp [hashKey?, hashCode?] at found

/-- Only strings that share a digest are the same key without being the same value. -/
theorem sameKey_iff_eq (left right : Value) :
    left.sameKey right = true ↔ (left = right ∧ left.type ∈ keyTypes) ∨
      ∃ first second, left = .string first ∧ right = .string second ∧
        Digest.ofText first = Digest.ofText second := by
  cases left <;> cases right <;> simp [sameKey, type, keyTypes]
  rintro rfl
  rfl

end Value

/-! ### Entries -/

namespace Entry

variable {α : Type}

/-- Inserts entries, the first one first. -/
def insertAll (new entries : List (Entry α)) : List (Entry α) :=
  new.foldl (fun entries entry => insert entry entries) entries

theorem insertAll_cons (first : Entry α) (new entries : List (Entry α)) :
    insertAll (first :: new) entries = insertAll new (insert first entries) := rfl

/-- After all insertions a hash key leads to the last new entry that has it. -/
theorem find?_insertAll (hashKey : HashKey) (new entries : List (Entry α)) :
    find? hashKey (insertAll new entries) =
      (new.findRev? fun entry => entry.hashKey == hashKey).or (find? hashKey entries) := by
  induction new generalizing entries with
  | nil => rfl
  | cons first new inductionHypothesis =>
    rw [insertAll_cons, inductionHypothesis, find?_insert]
    simp only [List.findRev?_eq_find?_reverse, List.reverse_cons, List.find?_append,
      Option.or_assoc]
    by_cases same : first.hashKey = hashKey <;> simp [same]

theorem mem_insert {new entry : Entry α} {entries : List (Entry α)}
    (member : entry ∈ insert new entries) : entry = new ∨ entry ∈ entries := by
  induction entries with
  | nil => exact .inl (List.mem_singleton.mp member)
  | cons other rest inductionHypothesis =>
    rw [insert] at member
    split at member
    · rcases List.mem_cons.mp member with same | member
      · exact .inl same
      · exact .inr (List.mem_cons_of_mem _ member)
    · rcases List.mem_cons.mp member with rfl | member
      · exact .inr List.mem_cons_self
      · exact (inductionHypothesis member).imp_right (List.mem_cons_of_mem _)

/-- Every entry is one of those inserted. -/
theorem mem_insertAll {entry : Entry α} {new entries : List (Entry α)}
    (member : entry ∈ insertAll new entries) : entry ∈ new ∨ entry ∈ entries := by
  induction new generalizing entries with
  | nil => exact .inr member
  | cons first new inductionHypothesis =>
    rw [insertAll_cons] at member
    rcases inductionHypothesis member with isNew | member
    · exact .inl (List.mem_cons_of_mem _ isNew)
    · rcases mem_insert member with rfl | member
      · exact .inl List.mem_cons_self
      · exact .inr member

/-- No two entries have the same hash key. -/
def Distinct (entries : List (Entry α)) : Prop :=
  entries.Pairwise fun one other => one.hashKey ≠ other.hashKey

theorem Distinct.insert {entries : List (Entry α)} (distinct : Distinct entries)
    (new : Entry α) : Distinct (insert new entries) := by
  induction entries with
  | nil => exact List.pairwise_singleton _ _
  | cons entry rest inductionHypothesis =>
    obtain ⟨others, distinctRest⟩ := List.pairwise_cons.mp distinct
    rw [Entry.insert]
    split
    · next same =>
      refine List.pairwise_cons.mpr ⟨fun other member => ?_, distinctRest⟩
      rw [← same]
      exact others other member
    · next differs =>
      refine List.pairwise_cons.mpr ⟨fun other member => ?_, inductionHypothesis distinctRest⟩
      rcases mem_insert member with rfl | member
      · exact differs
      · exact others other member

theorem Distinct.insertAll {entries : List (Entry α)} (distinct : Distinct entries)
    (new : List (Entry α)) : Distinct (insertAll new entries) := by
  induction new generalizing entries with
  | nil => exact distinct
  | cons first new inductionHypothesis => exact inductionHypothesis (distinct.insert first)

/-- Among entries that are told apart, each is found by its hash key. -/
theorem Distinct.find?_of_mem {entries : List (Entry α)} (distinct : Distinct entries)
    {entry : Entry α} (member : entry ∈ entries) : find? entry.hashKey entries = some entry := by
  induction entries with
  | nil => exact absurd member List.not_mem_nil
  | cons first rest inductionHypothesis =>
    obtain ⟨others, distinctRest⟩ := List.pairwise_cons.mp distinct
    rw [find?]
    rcases List.mem_cons.mp member with rfl | member
    · exact if_pos rfl
    · rw [if_neg (others entry member)]
      exact inductionHypothesis distinctRest member

/-- What is found is an entry with the hash key. -/
theorem mem_of_find? {hashKey : HashKey} {entry : Entry α} {entries : List (Entry α)}
    (found : find? hashKey entries = some entry) : entry ∈ entries ∧ entry.hashKey = hashKey := by
  induction entries with
  | nil => exact absurd found nofun
  | cons other rest inductionHypothesis =>
    rw [find?] at found
    split at found
    · next same =>
      obtain rfl := Option.some.inj found
      exact ⟨List.mem_cons_self, same⟩
    · obtain ⟨member, same⟩ := inductionHypothesis found
      exact ⟨List.mem_cons_of_mem _ member, same⟩

end Entry

/-! ### Hashes in programs -/

/-- The entry for a key and the value beside it. -/
def Entry.ofPair (pair : Value × Value) : Entry Value :=
  ⟨pair.1.hashKey?.getD default, pair.1, pair.2⟩

/-- The entries for keys and the values beside them, inserted in order. -/
def Entry.ofPairs (pairs : List (Value × Value)) : List (Entry Value) :=
  Entry.insertAll (pairs.map Entry.ofPair) []

theorem Entry.hashKey_ofPair {pair : Value × Value} {hashKey : HashKey}
    (found : pair.1.hashKey? = some hashKey) : (Entry.ofPair pair).hashKey = hashKey := by
  rw [Entry.ofPair, found]
  rfl

theorem Entry.hashKey?_eq_of_isSome {pair : Value × Value}
    (usable : pair.1.hashKey?.isSome = true) :
    pair.1.hashKey? = some (Entry.ofPair pair).hashKey := by
  obtain ⟨hashKey, found⟩ := Option.isSome_iff_exists.mp usable
  rw [Entry.hashKey_ofPair found, found]

/-- Keys and values in the order in which they are written. -/
def inOrder {α : Type} (pairs : List (α × α)) : List α :=
  pairs.flatMap fun pair => [pair.1, pair.2]

theorem inOrder_cons {α : Type} (key value : α) (pairs : List (α × α)) :
    inOrder ((key, value) :: pairs) = key :: value :: inOrder pairs := rfl

theorem inOrder_eq_cons_cons {α : Type} {pairs : List (α × α)} {key value : α} {rest : List α}
    (same : inOrder pairs = key :: value :: rest) :
    ∃ others, pairs = (key, value) :: others ∧ rest = inOrder others := by
  cases pairs with
  | nil => exact absurd same nofun
  | cons first others =>
    obtain ⟨firstKey, firstValue⟩ := first
    rw [inOrder_cons, List.cons.injEq, List.cons.injEq] at same
    obtain ⟨rfl, rfl, rfl⟩ := same
    exact ⟨others, rfl, rfl⟩

section Evaluation

variable {apply : Application} {frame : Nat}

theorem evaluateAll_cons_on_eq_ok {expression : Expression} {rest : List Expression}
    {values : List Value} {machine last : Machine} :
    (evaluateAll apply frame (expression :: rest)).on machine = (.ok values, last) ↔
      ∃ value others middle, values = value :: others ∧
        (expression.evaluate apply frame).on machine = (.ok value, middle) ∧
        (evaluateAll apply frame rest).on middle = (.ok others, last) := by
  simp only [evaluateAll, on_bind_eq_ok, on_pure_eq_ok]
  constructor
  · rintro ⟨value, middle, first, others, _, rest, rfl, rfl⟩
    exact ⟨value, others, middle, rfl, first, rest⟩
  · rintro ⟨value, others, middle, rfl, first, rest⟩
    exact ⟨value, middle, first, others, last, rest, rfl, rfl⟩

/-- The pairs of a hash are inserted in order, when all of their keys have hash keys. -/
theorem evaluatePairs_on {pairs : List (Expression × Expression)} {machine last : Machine}
    {evaluated : List (Value × Value)} (entries : List (Entry Value))
    (yields : (evaluateAll apply frame (inOrder pairs)).on machine =
      (.ok (inOrder evaluated), last))
    (keys : ∀ pair ∈ evaluated, pair.1.type ∈ keyTypes) :
    (evaluatePairs apply frame pairs entries).on machine =
      (.ok (.hash (Entry.insertAll (evaluated.map Entry.ofPair) entries)), last) := by
  induction pairs generalizing machine evaluated entries with
  | nil =>
    rw [inOrder, List.flatMap_nil, evaluateAll, on_pure_eq_ok] at yields
    obtain ⟨none, rfl⟩ := yields
    obtain rfl : evaluated = [] := by
      cases evaluated with
      | nil => rfl
      | cons pair evaluated => exact absurd none nofun
    rfl
  | cons pair pairs inductionHypothesis =>
    obtain ⟨keyTree, valueTree⟩ := pair
    rw [inOrder_cons] at yields
    obtain ⟨key, _, second, same, yieldsKey, yields⟩ := evaluateAll_cons_on_eq_ok.mp yields
    obtain ⟨value, rest, third, rfl, yieldsValue, yields⟩ := evaluateAll_cons_on_eq_ok.mp yields
    obtain ⟨evaluated, rfl, rfl⟩ := inOrder_eq_cons_cons same
    obtain ⟨isKey, others⟩ := List.forall_mem_cons.mp keys
    obtain ⟨hashKey, found⟩ := Value.exists_hashKey isKey
    have required (machine : Machine) :
        (requireHashKey key).on machine = (.ok hashKey, machine) := by
      rw [requireHashKey, found]
      rfl
    have entry : Entry.ofPair (key, value) = ⟨hashKey, key, value⟩ := by
      rw [Entry.ofPair, found]
      rfl
    rw [evaluatePairs, on_bind, yieldsKey]
    simp only [on_bind, required, yieldsValue]
    rw [List.map_cons, Entry.insertAll_cons, entry]
    exact inductionHypothesis _ yields others

end Evaluation

/-! ### What such a hash holds -/

section Pairs

variable {pairs : List (Value × Value)}

theorem findRev?_congr {α : Type} {one other : α → Bool} {list : List α}
    (same : ∀ element ∈ list, one element = other element) :
    list.findRev? one = list.findRev? other := by
  induction list with
  | nil => rfl
  | cons element list inductionHypothesis =>
    obtain ⟨first, others⟩ := List.forall_mem_cons.mp same
    rw [List.findRev?, List.findRev?, inductionHypothesis others, first]

/-- A hash key leads to the entry made of the last pair that has it. -/
theorem Entry.find?_ofPairs_eq (usable : ∀ pair ∈ pairs, pair.1.hashKey?.isSome = true)
    (hashKey : HashKey) : Entry.find? hashKey (Entry.ofPairs pairs) =
      (pairs.findRev? fun pair => pair.1.hashKey? == some hashKey).map Entry.ofPair := by
  have same : ∀ pair ∈ pairs, (pair.1.hashKey? == some hashKey) =
      ((Entry.ofPair pair).hashKey == hashKey) := by
    intro pair member
    rw [Entry.hashKey?_eq_of_isSome (usable pair member), Option.some_beq_some]
  rw [Entry.ofPairs, Entry.find?_insertAll, Entry.find?, Option.or_none, findRev?_congr same]
  simp only [List.findRev?_eq_find?_reverse, ← List.map_reverse, List.find?_map]
  rfl

/-- A key leads to the entry made of the last pair with the same key. -/
theorem Entry.find?_ofPairs (keys : ∀ pair ∈ pairs, pair.1.type ∈ keyTypes)
    {key : Value} {hashKey : HashKey} (found : key.hashKey? = some hashKey) :
    Entry.find? hashKey (Entry.ofPairs pairs) =
      (pairs.findRev? fun pair => pair.1.sameKey key).map Entry.ofPair := by
  have same : ∀ pair ∈ pairs, (pair.1.hashKey? == some hashKey) = pair.1.sameKey key := by
    intro pair member
    obtain ⟨own, foundOwn⟩ := Value.exists_hashKey (keys pair member)
    rw [Bool.eq_iff_iff, beq_iff_eq, Value.sameKey_iff foundOwn, foundOwn, found, eq_comm]
  rw [Entry.find?_ofPairs_eq (fun pair member => Value.isSome_hashKey? (keys pair member)),
    findRev?_congr same]

theorem Value.indexedBy_ofPairs (keys : ∀ pair ∈ pairs, pair.1.type ∈ keyTypes) {key : Value}
    (isKey : key.type ∈ keyTypes) :
    (Value.hash (Entry.ofPairs pairs)).indexedBy key =
      .ok (((pairs.findRev? fun pair => pair.1.sameKey key).map Prod.snd).getD .null) := by
  obtain ⟨hashKey, found⟩ := Value.exists_hashKey isKey
  rw [Value.indexedBy, found]
  simp only [Entry.find?_ofPairs keys found]
  cases pairs.findRev? fun pair => pair.1.sameKey key <;> rfl

theorem Entry.mem_ofPairs {entry : Entry Value} (member : entry ∈ Entry.ofPairs pairs) :
    ∃ pair ∈ pairs, Entry.ofPair pair = entry :=
  List.mem_map.mp ((Entry.mem_insertAll member).resolve_right List.not_mem_nil)

/-- The hash key of an entry is that of its key. -/
theorem Entry.hashKey?_of_mem_ofPairs (keys : ∀ pair ∈ pairs, pair.1.type ∈ keyTypes)
    {entry : Entry Value} (member : entry ∈ Entry.ofPairs pairs) :
    entry.key.hashKey? = some entry.hashKey := by
  obtain ⟨pair, isPair, rfl⟩ := Entry.mem_ofPairs member
  obtain ⟨hashKey, found⟩ := Value.exists_hashKey (keys pair isPair)
  rw [Entry.hashKey_ofPair found]
  exact found

/-- No two entries have the same key. -/
theorem Entry.pairwise_ofPairs (keys : ∀ pair ∈ pairs, pair.1.type ∈ keyTypes) :
    (Entry.ofPairs pairs).Pairwise fun one other => one.key.sameKey other.key = false := by
  have distinct : Entry.Distinct (Entry.ofPairs pairs) :=
    Entry.Distinct.insertAll List.Pairwise.nil _
  refine List.Pairwise.imp_of_mem (fun {one other} memberOne memberOther differ => ?_) distinct
  rw [Bool.eq_false_iff]
  intro same
  rw [Value.sameKey_iff (Entry.hashKey?_of_mem_ofPairs keys memberOne),
    Entry.hashKey?_of_mem_ofPairs keys memberOther] at same
  exact differ (Option.some.inj same).symm

/-- Every key has an entry. -/
theorem Entry.exists_mem_ofPairs (keys : ∀ pair ∈ pairs, pair.1.type ∈ keyTypes)
    {pair : Value × Value} (member : pair ∈ pairs) :
    ∃ entry ∈ Entry.ofPairs pairs, entry.key.sameKey pair.1 = true := by
  obtain ⟨hashKey, found⟩ := Value.exists_hashKey (keys pair member)
  have some : ((pairs.findRev? fun other => other.1.sameKey pair.1).map Entry.ofPair).isSome := by
    rw [Option.isSome_map, List.findRev?_eq_find?_reverse, List.find?_isSome]
    exact ⟨pair, List.mem_reverse.mpr member, (Value.sameKey_iff found).mpr found⟩
  rw [← Entry.find?_ofPairs keys found] at some
  obtain ⟨entry, isFound⟩ := Option.isSome_iff_exists.mp some
  obtain ⟨isEntry, same⟩ := Entry.mem_of_find? isFound
  refine ⟨entry, isEntry, ?_⟩
  rw [Value.sameKey_iff (Entry.hashKey?_of_mem_ofPairs keys isEntry), same]
  exact found

end Pairs

variable {apply : Application} {frame : Nat}

/-- A hash that a program writes out holds behind each key the value that stands last beside it, and
one entry for each key. Keys are told apart by `Value.sameKey`, which is equality but for strings
that share a digest. -/
theorem evaluate_hash {pairs : List (Expression × Expression)} {machine last : Machine}
    {evaluated : List (Value × Value)}
    (yields : (evaluateAll apply frame (inOrder pairs)).on machine =
      (.ok (inOrder evaluated), last))
    (keys : ∀ pair ∈ evaluated, pair.1.type ∈ keyTypes) :
    (∃ entries, ((Expression.hash pairs).evaluate apply frame).on machine =
        (.ok (.hash entries), last) ∧
      (∀ key : Value, key.type ∈ keyTypes → (Value.hash entries).indexedBy key =
        .ok (((evaluated.findRev? fun pair => pair.1.sameKey key).map Prod.snd).getD .null)) ∧
      (entries.Pairwise fun one other => one.key.sameKey other.key = false) ∧
      (∀ entry ∈ entries, (entry.key, entry.value) ∈ evaluated) ∧
      ∀ pair ∈ evaluated, ∃ entry ∈ entries, entry.key.sameKey pair.1 = true) ∧
    ∀ left right : Value, left.sameKey right = true ↔ (left = right ∧ left.type ∈ keyTypes) ∨
      ∃ first second, left = .string first ∧ right = .string second ∧
        Digest.ofText first = Digest.ofText second := by
  refine ⟨⟨Entry.ofPairs evaluated, evaluatePairs_on [] yields keys,
    fun _ isKey => Value.indexedBy_ofPairs keys isKey, Entry.pairwise_ofPairs keys,
    fun entry member => ?_, fun _ member => Entry.exists_mem_ofPairs keys member⟩,
    Value.sameKey_iff_eq⟩
  obtain ⟨pair, isPair, rfl⟩ := Entry.mem_ofPairs member
  exact isPair

/-- Between integers, a string and a truth value, written out with one key twice. -/
theorem evaluate_hash_repeated :
    let pairs : List (Expression × Expression) :=
      [(.integer 1, .integer 10), (.string "one", .boolean true), (.integer 1, .integer 20),
        (.boolean true, .unary .negate (.integer 30))]
    let evaluated : List (Value × Value) :=
      [(.integer 1, .integer 10), (.string "one", .boolean true), (.integer 1, .integer 20),
        (.boolean true, .integer (-30))]
    (evaluateAll (applyAtDepth 2048) Machine.rootFrame (inOrder pairs)).on Machine.initial =
        (.ok (inOrder evaluated), Machine.initial) ∧
      (∀ pair ∈ evaluated, pair.1.type ∈ keyTypes) ∧
      ∃ entries, ((Expression.hash pairs).evaluate (applyAtDepth 2048) Machine.rootFrame).on
          Machine.initial = (.ok (.hash entries), Machine.initial) ∧
        (Value.hash entries).indexedBy (.integer 1) = .ok (.integer 20) := by
  intro pairs evaluated
  have yields : (evaluateAll (applyAtDepth 2048) Machine.rootFrame (inOrder pairs)).on
      Machine.initial = (.ok (inOrder evaluated), Machine.initial) := rfl
  have keys : ∀ pair ∈ evaluated, pair.1.type ∈ keyTypes := by
    simp [evaluated, Value.type, keyTypes]
  obtain ⟨⟨entries, evaluates, indexed, -⟩, -⟩ := evaluate_hash yields keys
  exact ⟨yields, keys, entries, evaluates, indexed (.integer 1) (by decide)⟩

/-- A hash written out with one string answers to every string of the same digest. -/
theorem evaluate_index_of_digest_eq {first second : String} {value : Int64} {machine : Machine}
    (same : Digest.ofText first = Digest.ofText second) :
    ((Expression.index (.hash [(.string first, .integer value)]) (.string second)).evaluate
      apply frame).on machine = (.ok (.integer value), machine) := by
  have keys : ∀ pair ∈ [(Value.string first, Value.integer value)], pair.1.type ∈ keyTypes := by
    simp [Value.type, keyTypes]
  have evaluates : ((Expression.hash [(.string first, .integer value)]).evaluate apply frame).on
      machine = (.ok (.hash (Entry.ofPairs [(.string first, .integer value)])), machine) :=
    evaluatePairs_on [] rfl keys
  have sameKey : (Value.string first).sameKey (.string second) = true := beq_iff_eq.mpr same
  have isKey : (Value.string second).type ∈ keyTypes := by simp [Value.type, keyTypes]
  have indexed := Value.indexedBy_ofPairs keys isKey
  simp only [List.findRev?, sameKey] at indexed
  rw [Expression.evaluate, on_bind, evaluates]
  simp only [Expression.evaluate, on_bind, on_pure, indexed]
  rfl

theorem toList_loop_eq (bytes : ByteArray) (position : Nat) (found : List UInt8) :
    ByteArray.toList.loop bytes position found =
      found.reverse ++ bytes.data.toList.drop position := by
  induction steps : bytes.size - position generalizing position found with
  | zero =>
    have behind : bytes.size ≤ position := Nat.le_of_sub_eq_zero steps
    rw [ByteArray.toList.loop, if_neg (Nat.not_lt.mpr behind), List.drop_of_length_le behind,
      List.append_nil]
  | succ steps inductionHypothesis =>
    have more : position < bytes.size := Nat.lt_of_sub_eq_succ steps
    have inside : position < bytes.data.toList.length := more
    have byte : bytes.get! position = bytes.data.toList[position] := by
      show bytes.data[position]! = _
      rw [getElem!_pos bytes.data position inside, Array.getElem_toList]
    rw [ByteArray.toList.loop, if_pos more, inductionHypothesis _ _ (by omega), byte,
      List.reverse_cons, List.append_assoc, List.singleton_append,
      ← List.drop_eq_getElem_cons inside]

/-- The digest of a text, without the loop that lists its bytes. -/
theorem Digest.ofText_eq (text : String) :
    Digest.ofText text = Digest.ofBytes text.toUTF8.data.toList := by
  rw [ofText, ByteArray.toList, toList_loop_eq]
  rfl

/-- Two different strings that are the same key: a hash written out with the one answers to the
other. -/
theorem lookup_shares_digest :
    "uowuhjtodmpsntvc" ≠ "swrjgjotzopjrtqz" ∧
      ((Expression.index (.hash [(.string "uowuhjtodmpsntvc", .integer 1)])
          (.string "swrjgjotzopjrtqz")).evaluate (applyAtDepth 2048) Machine.rootFrame).on
        Machine.initial = (.ok (.integer 1), Machine.initial) :=
  ⟨by decide, evaluate_index_of_digest_eq (by
    rw [Digest.ofText_eq, Digest.ofText_eq]
    decide +kernel)⟩

end MonkeyLang
