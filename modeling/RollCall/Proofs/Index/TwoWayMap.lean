import RollCall.Index.TwoWayMap
import RollCall.Proofs.Names.Map
import Mathlib.Tactic.Common

/-!
# The inverse of a two-way map

Asking for the keys of a value gives exactly the keys that have the value, whatever has been set,
deleted and renamed (`Consistent`). Seen from its keys a two-way map is a plain function to sets.
-/

namespace RollCall.TwoWayMap

/-- The keys that an inverse map has for a value. -/
def keysOf (inverse : NameMap NameSet) (value : String) : NameSet :=
  (inverse.find? value).getD ∅

/-- No set is stored that is empty. -/
def Filled (m : NameMap NameSet) : Prop :=
  ∀ key, m.find? key ≠ some ∅

variable {key value x y : String} {values : List String} {inverse : NameMap NameSet}

/-! ## One reference -/

theorem keysOf_addKey (key value y : String) (inverse : NameMap NameSet) :
    keysOf (addKey key inverse value) y =
      if y = value then (keysOf inverse value).insert key else keysOf inverse y := by
  rw [keysOf, addKey, NameMap.find?_insert]
  split
  · rfl
  · rfl

theorem filled_addKey (h : Filled inverse) : Filled (addKey key inverse value) := by
  intro y hempty
  rw [addKey, NameMap.find?_insert] at hempty
  by_cases hy : y = value
  · rw [if_pos hy] at hempty
    have hmem : key ∈ (∅ : NameSet) := Option.some.inj hempty ▸ NameSet.mem_insert.2 (.inl rfl)
    exact NameSet.not_mem_empty key hmem
  · rw [if_neg hy] at hempty
    exact h y hempty

theorem keysOf_dropKey (key value y : String) (inverse : NameMap NameSet) :
    keysOf (dropKey key inverse value) y =
      if y = value then (keysOf inverse value).erase key else keysOf inverse y := by
  unfold dropKey
  cases hfind : inverse.find? value with
  | none =>
    by_cases hy : y = value
    · subst hy
      have hnone : keysOf inverse y = ∅ := by simp [keysOf, hfind]
      rw [if_pos rfl, hnone]
      exact NameSet.ext fun x => by simp
    · rw [if_neg hy]
  | some keys =>
    have hkeys : keysOf inverse value = keys := by simp [keysOf, hfind]
    rw [hkeys]
    dsimp only
    split
    · next hempty =>
      rw [keysOf, NameMap.find?_erase, NameSet.isEmpty_iff.1 hempty]
      split
      · rfl
      · rfl
    · rw [keysOf, NameMap.find?_insert]
      split
      · rfl
      · rfl

theorem filled_dropKey (h : Filled inverse) : Filled (dropKey key inverse value) := by
  intro y hy
  unfold dropKey at hy
  split at hy
  · exact h y hy
  · next keys hkeys =>
    dsimp only at hy
    split at hy
    · rw [NameMap.find?_erase] at hy
      split at hy
      · cases hy
      · exact h y hy
    · next hempty =>
      rw [NameMap.find?_insert] at hy
      split at hy
      · exact hempty (NameSet.isEmpty_iff.2 (Option.some.inj hy))
      · exact h y hy

/-! ## The references of a key -/

theorem mem_keysOf_foldl_addKey :
    x ∈ keysOf (values.foldl (addKey key) inverse) y ↔
      x ∈ keysOf inverse y ∨ y ∈ values ∧ x = key := by
  induction values generalizing inverse with
  | nil => simp
  | cons value values ih =>
    rw [List.foldl_cons, ih, keysOf_addKey, List.mem_cons]
    by_cases hy : y = value
    · subst hy
      rw [if_pos rfl, NameSet.mem_insert]
      tauto
    · simp only [hy, if_false, false_or]

theorem filled_foldl_addKey (h : Filled inverse) : Filled (values.foldl (addKey key) inverse) := by
  induction values generalizing inverse with
  | nil => exact h
  | cons value values ih => exact ih (filled_addKey h)

theorem mem_keysOf_foldl_dropKey :
    x ∈ keysOf (values.foldl (dropKey key) inverse) y ↔
      x ∈ keysOf inverse y ∧ ¬ (y ∈ values ∧ x = key) := by
  induction values generalizing inverse with
  | nil => simp
  | cons value values ih =>
    rw [List.foldl_cons, ih, keysOf_dropKey, List.mem_cons]
    by_cases hy : y = value
    · subst hy
      rw [if_pos rfl, NameSet.mem_erase]
      tauto
    · simp only [hy, if_false, false_or]

theorem filled_foldl_dropKey (h : Filled inverse) :
    Filled (values.foldl (dropKey key) inverse) := by
  induction values generalizing inverse with
  | nil => exact h
  | cons value values ih => exact ih (filled_dropKey h)

/-! ## Operations seen from the keys -/

variable {m : TwoWayMap}

@[simp] theorem get_empty (key : String) : (∅ : TwoWayMap).get key = ∅ := rfl

@[simp] theorem get_delete (m : TwoWayMap) (key x : String) :
    (m.delete key).2.get x = if x = key then ∅ else m.get x := by
  unfold delete
  cases hfind : m.forward.find? key with
  | none =>
    by_cases hx : x = key
    · simp [get, hx, hfind]
    · simp [hx]
  | some values =>
    by_cases hx : x = key
    · simp [get, hx]
    · simp [get, hx]

@[simp] theorem get_set (m : TwoWayMap) (key x : String) (values : NameSet) :
    (m.set key values).get x = if x = key then values else m.get x := by
  unfold set
  dsimp only
  by_cases hempty : values.isEmpty = true
  · rw [if_pos hempty, get_delete, NameSet.isEmpty_iff.1 hempty]
  · rw [if_neg hempty]
    by_cases hx : x = key
    · simp [get, hx]
    · have := get_delete m key x
      simp only [get, hx, if_false] at this ⊢
      rw [NameMap.find?_insert, if_neg hx, this]

/-! ## Consistency -/

/-- The inverse map is the inverse of the map, and no empty set is stored. -/
structure Consistent (m : TwoWayMap) : Prop where
  /-- A value has the keys that have the value. -/
  mem_getInverse_iff : ∀ key value, key ∈ m.getInverse value ↔ value ∈ m.get key
  /-- A key that is stored has a value. -/
  forward_filled : Filled m.forward
  /-- A value that is stored has a key. -/
  inverse_filled : Filled m.inverse

theorem consistent_empty : (∅ : TwoWayMap).Consistent where
  mem_getInverse_iff key value := by
    refine iff_of_false ?_ ?_
    · exact NameSet.not_mem_empty key
    · exact NameSet.not_mem_empty value
  forward_filled key h := by cases h
  inverse_filled value h := by cases h

theorem Consistent.find?_eq_none_iff (h : m.Consistent) :
    m.forward.find? key = none ↔ m.get key = ∅ := by
  rw [get]
  cases hfind : m.forward.find? key with
  | none => simp
  | some values =>
    have hvalues : values ≠ ∅ := fun hempty => h.forward_filled key (hempty ▸ hfind)
    simp [hvalues]

theorem Consistent.delete (h : m.Consistent) (key : String) : (m.delete key).2.Consistent := by
  unfold TwoWayMap.delete
  cases hfind : m.forward.find? key with
  | none => exact h
  | some values =>
    have hget : m.get key = values := by simp [get, hfind]
    refine ⟨fun x y => ?_, fun x hx => ?_, filled_foldl_dropKey h.inverse_filled⟩
    · have hdelete := get_delete m key x
      simp only [TwoWayMap.delete, hfind] at hdelete
      rw [hdelete]
      refine mem_keysOf_foldl_dropKey.trans ?_
      have hinverse : x ∈ keysOf m.inverse y ↔ y ∈ m.get x := h.mem_getInverse_iff x y
      rw [hinverse, ← NameSet.mem_def, ← hget]
      by_cases hx : x = key
      · subst hx
        simp
      · simp [hx]
    · rw [NameMap.find?_erase] at hx
      split at hx
      · cases hx
      · exact h.forward_filled x hx

theorem Consistent.set (h : m.Consistent) (key : String) (values : NameSet) :
    (m.set key values).Consistent := by
  have hdeleted := h.delete key
  by_cases hempty : values.isEmpty = true
  · rw [TwoWayMap.set, if_pos hempty]
    exact hdeleted
  have hset : m.set key values = ⟨(m.delete key).2.forward.insert key values,
      values.toList.foldl (addKey key) (m.delete key).2.inverse⟩ := by
    rw [TwoWayMap.set, if_neg hempty]
  refine ⟨fun x y => ?_, fun x hx => ?_, ?_⟩
  · have hinverse : x ∈ keysOf (m.delete key).2.inverse y ↔ y ∈ (m.delete key).2.get x :=
      hdeleted.mem_getInverse_iff x y
    rw [get_set, hset]
    refine mem_keysOf_foldl_addKey.trans ?_
    rw [hinverse, get_delete, ← NameSet.mem_def]
    by_cases hx : x = key
    · simp [hx]
    · simp [hx]
  · rw [hset, NameMap.find?_insert] at hx
    split at hx
    · exact hempty (NameSet.isEmpty_iff.2 (Option.some.inj hx))
    · exact hdeleted.forward_filled x hx
  · rw [hset]
    exact filled_foldl_addKey hdeleted.inverse_filled

theorem Consistent.rename (h : m.Consistent) (old new : String) :
    (m.rename old new).2.Consistent := by
  unfold TwoWayMap.rename
  cases m.forward.find? old with
  | none => exact h
  | some values => exact (h.delete old).set new values

/-- A key that has values takes them along; a key without values is not renamed. -/
theorem Consistent.get_rename (h : m.Consistent) (old new x : String) :
    (m.rename old new).2.get x =
      if m.get old = ∅ then m.get x
      else if x = new then m.get old else if x = old then ∅ else m.get x := by
  unfold TwoWayMap.rename
  cases hfind : m.forward.find? old with
  | none => rw [if_pos (h.find?_eq_none_iff.1 hfind)]
  | some values =>
    have hget : m.get old = values := by simp [get, hfind]
    have hsome : m.get old ≠ ∅ := fun hempty => by
      rw [h.find?_eq_none_iff.2 hempty] at hfind
      cases hfind
    rw [if_neg hsome]
    simp [hget]

end RollCall.TwoWayMap
