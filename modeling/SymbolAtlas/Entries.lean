/-!
# Entries

`Entries` holds keys with their values in the order in which the keys were first put in. Writing
to a key that is there keeps its place; writing with `putLast` moves it to the end. Lists of keys
that answers show, and what is dropped first when a bound is reached, follow this order.
-/

namespace SymbolAtlas

/-- Keys and values in order of insertion. -/
structure Entries (κ α : Type) where
  toList : List (κ × α)
  deriving Repr

namespace Entries

variable {κ α β : Type}

/-- No entries. -/
def empty : Entries κ α := ⟨[]⟩

instance : Inhabited (Entries κ α) := ⟨empty⟩

instance : EmptyCollection (Entries κ α) := ⟨empty⟩

instance [DecidableEq κ] [DecidableEq α] : DecidableEq (Entries κ α) := fun a b =>
  decidable_of_iff (a.toList = b.toList) ⟨fun h => by cases a; cases b; simp_all, fun h => h ▸ rfl⟩

/-- The keys in order. -/
def keys (es : Entries κ α) : List κ := es.toList.map Prod.fst

/-- The values in the order of their keys. -/
def values (es : Entries κ α) : List α := es.toList.map Prod.snd

/-- The number of entries. -/
def size (es : Entries κ α) : Nat := es.toList.length

variable [DecidableEq κ]

/-- The value of a key. -/
def get? (es : Entries κ α) (k : κ) : Option α := es.toList.lookup k

/-- Whether a key has a value. -/
def has (es : Entries κ α) (k : κ) : Bool := (es.get? k).isSome

/-- Writes to the first entry of a key, or at the end if there is none. -/
def putIn (k : κ) (v : α) : List (κ × α) → List (κ × α)
  | [] => [(k, v)]
  | e :: es => if e.1 = k then (k, v) :: es else e :: putIn k v es

/-- Gives a key a value; a key that is there keeps its place. -/
def put (es : Entries κ α) (k : κ) (v : α) : Entries κ α := ⟨putIn k v es.toList⟩

/-- Drops a key. -/
def erase (es : Entries κ α) (k : κ) : Entries κ α := ⟨es.toList.filter fun e => e.1 ≠ k⟩

/-- Gives a key a value and moves it to the end. -/
def putLast (es : Entries κ α) (k : κ) (v : α) : Entries κ α :=
  ⟨(es.erase k).toList ++ [(k, v)]⟩

/-- Drops the first `n` entries. -/
def dropOldest (es : Entries κ α) (n : Nat) : Entries κ α := ⟨es.toList.drop n⟩

/-- Puts in the pairs of a list one after the other, so the last value of a key counts. -/
def ofList (kvs : List (κ × α)) : Entries κ α := kvs.foldl (fun es e => es.put e.1 e.2) empty

end Entries

end SymbolAtlas
