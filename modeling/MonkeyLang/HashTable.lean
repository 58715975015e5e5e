/-
This file holds the entries that make up a hash. Entries are told apart by
their hash keys alone: the type of the key and a number made from it. They are
listed in the order in which their hash keys were first inserted.
-/

import MonkeyLang.ValueType

namespace MonkeyLang

/-- What the entries of a hash are told apart by: the type of the key and a number made from
it. -/
structure HashKey where
  type : ValueType
  code : UInt64
deriving DecidableEq, Repr, Inhabited

/-- An entry of a hash. The key as it was written is kept beside its hash key. -/
structure Entry (α : Type) where
  hashKey : HashKey
  key : α
  value : α

namespace Entry

variable {α : Type}

/-- The entry for a hash key, if there is one. -/
def find? (hashKey : HashKey) : List (Entry α) → Option (Entry α)
  | [] => none
  | entry :: rest => if entry.hashKey = hashKey then some entry else find? hashKey rest

/-- Inserts an entry. An entry with the same hash key is replaced where it stands; otherwise the
new one comes last. -/
def insert (new : Entry α) : List (Entry α) → List (Entry α)
  | [] => [new]
  | entry :: rest =>
    if entry.hashKey = new.hashKey then new :: rest else entry :: insert new rest

/-- After an insertion, the hash key of the new entry leads to the new entry, and every other hash
key to what it led to before. -/
theorem find?_insert (hashKey : HashKey) (new : Entry α) (entries : List (Entry α)) :
    find? hashKey (insert new entries) =
      if new.hashKey = hashKey then some new else find? hashKey entries := by
  induction entries with
  | nil => rfl
  | cons entry rest inductionHypothesis =>
    by_cases same : entry.hashKey = new.hashKey
    · by_cases wanted : new.hashKey = hashKey <;> simp [insert, find?, same, wanted]
    · by_cases wanted : entry.hashKey = hashKey
      · subst wanted
        simp [insert, find?, same, Ne.symm same]
      · simp [insert, find?, same, wanted, inductionHypothesis]

end Entry

end MonkeyLang
