import RollCall.Names.Map

/-!
# Two-way maps

A map from names to sets of names that can also be asked which names have a value: which documents
have a tag, which documents link to another. The inverse map is kept up to date with each change.

In the program this is the `BidirectionalMap`; `getInverse` is its `get_inverse`, `size` its `len`.
-/

namespace RollCall

/-- A map from keys to sets of values, and its inverse. -/
structure TwoWayMap where
  /-- The values of each key. -/
  forward : NameMap NameSet
  /-- The keys of each value. -/
  inverse : NameMap NameSet

namespace TwoWayMap

/-- The map without keys. -/
def empty : TwoWayMap := ⟨∅, ∅⟩

instance : EmptyCollection TwoWayMap := ⟨empty⟩

instance : Inhabited TwoWayMap := ⟨empty⟩

/-- The values of a key. -/
def get (m : TwoWayMap) (key : String) : NameSet :=
  (m.forward.find? key).getD ∅

/-- The keys of a value. -/
def getInverse (m : TwoWayMap) (value : String) : NameSet :=
  (m.inverse.find? value).getD ∅

/-- The inverse map with a key added to a value. -/
def addKey (key : String) (inverse : NameMap NameSet) (value : String) : NameMap NameSet :=
  inverse.insert value (((inverse.find? value).getD ∅).insert key)

/-- The inverse map with a key taken from a value; a value without keys is dropped. -/
def dropKey (key : String) (inverse : NameMap NameSet) (value : String) : NameMap NameSet :=
  match inverse.find? value with
  | none => inverse
  | some keys =>
    let keys := keys.erase key
    if keys.isEmpty then inverse.erase value else inverse.insert value keys

/-- The map without a key, and whether it had the key. -/
def delete (m : TwoWayMap) (key : String) : Bool × TwoWayMap :=
  match m.forward.find? key with
  | none => (false, m)
  | some values => (true, ⟨m.forward.erase key, values.toList.foldl (dropKey key) m.inverse⟩)

/-- The map with new values for a key. A key without values is dropped. -/
def set (m : TwoWayMap) (key : String) (values : NameSet) : TwoWayMap :=
  let m := (m.delete key).2
  if values.isEmpty then m
  else ⟨m.forward.insert key values, values.toList.foldl (addKey key) m.inverse⟩

/-- The map with the values of one key moved to another, and whether there were any. -/
def rename (m : TwoWayMap) (old new : String) : Bool × TwoWayMap :=
  match m.forward.find? old with
  | none => (false, m)
  | some values => (true, (m.delete old).2.set new values)

/-- The map with everything taken out. -/
def clear (_ : TwoWayMap) : TwoWayMap := ∅

/-- Number of keys. -/
def size (m : TwoWayMap) : Nat := m.forward.size

/-- Whether there is no key. -/
def isEmpty (m : TwoWayMap) : Bool := m.forward.isEmpty

/-- The values that some key has. -/
def values (m : TwoWayMap) : NameSet := m.inverse.keys

end TwoWayMap

end RollCall
