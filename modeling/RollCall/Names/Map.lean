import RollCall.Names.Set

/-!
# Maps from names

A finite map whose keys are names, kept as the list of its pairs in ascending order of the keys.
`find?` is the view through which every operation is described.
-/

namespace RollCall

/-- A pair put into a list of pairs, in place of a pair with the same key. -/
def putAscending {α : Type} (key : String) (value : α) : List (String × α) → List (String × α)
  | [] => [(key, value)]
  | pair :: pairs =>
    if key < pair.1 then (key, value) :: pair :: pairs
    else if key = pair.1 then (key, value) :: pairs
    else pair :: putAscending key value pairs

theorem map_fst_putAscending {α : Type} (key : String) (value : α) (pairs : List (String × α)) :
    (putAscending key value pairs).map Prod.fst = insertAscending key (pairs.map Prod.fst) := by
  induction pairs with
  | nil => rfl
  | cons pair pairs ih =>
    simp only [putAscending, List.map_cons, insertAscending]
    split
    · rfl
    · split
      · next h => simp [h]
      · simp [ih]

/-- The value stored under a key. -/
def lookupPair {α : Type} (key : String) : List (String × α) → Option α
  | [] => none
  | pair :: pairs => if key = pair.1 then some pair.2 else lookupPair key pairs

theorem lookupPair_putAscending {α : Type} (key x : String) (value : α)
    (pairs : List (String × α)) :
    lookupPair x (putAscending key value pairs) =
      if x = key then some value else lookupPair x pairs := by
  induction pairs with
  | nil => simp [putAscending, lookupPair]
  | cons pair pairs ih =>
    simp only [putAscending]
    split
    · simp [lookupPair]
    · split
      · next h =>
        subst h
        by_cases hx : x = pair.1 <;> simp [lookupPair, hx]
      · next hne =>
        by_cases hx : x = pair.1
        · have : x ≠ key := fun e => hne (e ▸ hx)
          simp [lookupPair, hx, Ne.symm hne]
        · simp [lookupPair, hx, ih]

theorem lookupPair_eq_none_iff {α : Type} {x : String} {pairs : List (String × α)} :
    lookupPair x pairs = none ↔ x ∉ pairs.map Prod.fst := by
  induction pairs with
  | nil => simp [lookupPair]
  | cons pair pairs ih =>
    by_cases h : x = pair.1 <;> simp_all [lookupPair]

theorem lookupPair_filter_ne {α : Type} (key x : String) (pairs : List (String × α)) :
    lookupPair x (pairs.filter (·.1 != key)) = if x = key then none else lookupPair x pairs := by
  induction pairs with
  | nil => simp [lookupPair]
  | cons pair pairs ih =>
    by_cases hk : pair.1 = key
    · by_cases hx : x = key <;> simp_all [lookupPair]
    · by_cases hx : x = pair.1
      · have : x ≠ key := fun e => hk (hx ▸ e)
        simp_all [lookupPair]
      · simp_all [lookupPair]

/-- A finite map from names to values. -/
structure NameMap (α : Type) where
  /-- The pairs in ascending order of their keys. -/
  toList : List (String × α)
  /-- No key is listed twice or out of order. -/
  ascending : (toList.map Prod.fst).Pairwise (· < ·)

namespace NameMap

variable {α β : Type}

/-- The map without keys. -/
def empty : NameMap α := ⟨[], by simp⟩

instance : EmptyCollection (NameMap α) := ⟨empty⟩

instance : Inhabited (NameMap α) := ⟨empty⟩

/-- The value stored under a key. -/
def find? (m : NameMap α) (key : String) : Option α :=
  lookupPair key m.toList

@[simp] theorem find?_empty (key : String) : (∅ : NameMap α).find? key = none := rfl

/-- Whether a value is stored under the key. -/
def contains (m : NameMap α) (key : String) : Bool :=
  (m.find? key).isSome

/-- The map with a value stored under a key, in place of an earlier one. -/
def insert (m : NameMap α) (key : String) (value : α) : NameMap α :=
  ⟨putAscending key value m.toList,
    map_fst_putAscending key value m.toList ▸ pairwise_insertAscending m.ascending⟩

@[simp] theorem find?_insert (m : NameMap α) (key x : String) (value : α) :
    (m.insert key value).find? x = if x = key then some value else m.find? x :=
  lookupPair_putAscending key x value m.toList

/-- The map without a key. -/
def erase (m : NameMap α) (key : String) : NameMap α :=
  ⟨m.toList.filter (·.1 != key),
    List.pairwise_map.2 ((List.pairwise_map.1 m.ascending).filter _)⟩

@[simp] theorem find?_erase (m : NameMap α) (key x : String) :
    (m.erase key).find? x = if x = key then none else m.find? x :=
  lookupPair_filter_ne key x m.toList

/-- The keys of the map. -/
def keys (m : NameMap α) : NameSet :=
  ⟨m.toList.map Prod.fst, m.ascending⟩

theorem mem_keys {m : NameMap α} {key : String} : key ∈ m.keys ↔ (m.find? key).isSome = true := by
  have : lookupPair key m.toList = none ↔ key ∉ m.toList.map Prod.fst := lookupPair_eq_none_iff
  simp only [NameSet.mem_def, keys, find?]
  cases h : lookupPair key m.toList <;> simp_all

/-- The values in ascending order of their keys. -/
def values (m : NameMap α) : List α :=
  m.toList.map Prod.snd

/-- Number of keys. -/
def size (m : NameMap α) : Nat := m.toList.length

/-- Whether no value is stored. -/
def isEmpty (m : NameMap α) : Bool := m.toList.isEmpty

end NameMap

end RollCall
