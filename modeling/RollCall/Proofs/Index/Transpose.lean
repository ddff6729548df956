import RollCall.Proofs.Index.TwoWayMap
import Mathlib.Data.Set.Card
import Mathlib.Logic.Function.Basic

/-!
# Two-way maps under changes

A two-way map that has seen any changes stands for a plain function from keys to sets that has seen
the same ones (`TwoWayMap.Represents`). Its inverse is the transpose of that function, and what it
counts and lists is what the function has (`TwoWayMap.represents_throughout`).
-/

namespace RollCall.TwoWayMap

/-- A change of a two-way map. -/
inductive Change where
  | set (key : String) (values : NameSet)
  | delete (key : String)
  | rename (old new : String)
  | clear

/-- The map after a change, and what the change answers if it answers anything. -/
def change (m : TwoWayMap) : Change → Option Bool × TwoWayMap
  | .set key values => (none, m.set key values)
  | .delete key => (some (m.delete key).1, (m.delete key).2)
  | .rename old new => (some (m.rename old new).1, (m.rename old new).2)
  | .clear => (none, m.clear)

/-- The map after changes in turn. -/
def changeAll (m : TwoWayMap) (changes : List Change) : TwoWayMap :=
  changes.foldl (fun m change => (m.change change).2) m

namespace Change

/-- A plain function from keys to sets after a change, and what the change answers if it answers
anything. A key without values is not there. -/
def apply (assigned : String → NameSet) : Change → Option Bool × (String → NameSet)
  | .set key values => (none, Function.update assigned key values)
  | .delete key => (some (decide (assigned key ≠ ∅)), Function.update assigned key ∅)
  | .rename old new =>
    if assigned old = ∅ then (some false, assigned)
    else (some true, Function.update (Function.update assigned old ∅) new (assigned old))
  | .clear => (none, fun _ => ∅)

/-- The function after changes in turn. -/
def applyAll (assigned : String → NameSet) (changes : List Change) : String → NameSet :=
  changes.foldl (fun assigned change => (change.apply assigned).2) assigned

end Change

/-- The map stands for the function: it gives the sets of the function, the inverse is the transpose,
and nothing is kept that has no values or no keys. -/
structure Represents (m : TwoWayMap) (assigned : String → NameSet) : Prop where
  get_eq : m.get = assigned
  mem_getInverse_iff : ∀ key value, key ∈ m.getInverse value ↔ value ∈ assigned key
  forward_filled : ∀ key, m.forward.find? key ≠ some ∅
  inverse_filled : ∀ value, m.inverse.find? value ≠ some ∅
  size_eq : m.size = Set.ncard {key | assigned key ≠ ∅}
  isEmpty_iff : m.isEmpty = true ↔ ∀ key, assigned key = ∅
  mem_values_iff : ∀ value, value ∈ m.values ↔ ∃ key, value ∈ assigned key

variable {m : TwoWayMap} {assigned : String → NameSet}

/-! ## What is counted and listed -/

theorem Consistent.isSome_find?_iff (h : m.Consistent) {key : String} :
    (m.forward.find? key).isSome = true ↔ m.get key ≠ ∅ := by
  rw [← Option.ne_none_iff_isSome, Ne, h.find?_eq_none_iff]

theorem Consistent.mem_keys_iff (h : m.Consistent) {key : String} :
    key ∈ m.forward.keys ↔ m.get key ≠ ∅ := by
  rw [NameMap.mem_keys, h.isSome_find?_iff]

theorem Consistent.size_eq (h : m.Consistent) : m.size = Set.ncard {key | m.get key ≠ ∅} := by
  have hkeys : {key | m.get key ≠ ∅} = ↑m.forward.keys.toList.toFinset := by
    ext key
    rw [Set.mem_ofPred_eq, ← h.mem_keys_iff, NameSet.mem_def]
    simp
  have hnodup : m.forward.keys.toList.Nodup := by
    refine m.forward.keys.ascending.imp ?_
    rintro a b hlt rfl
    exact String.lt_irrefl a hlt
  rw [hkeys, Set.ncard_coe_finset, List.toFinset_card_of_nodup hnodup]
  exact (List.length_map _).symm

theorem Consistent.mem_values_iff (h : m.Consistent) {value : String} :
    value ∈ m.values ↔ ∃ key, value ∈ m.get key := by
  have hinverse : ∀ key, key ∈ m.getInverse value ↔ value ∈ m.get key :=
    fun key => h.mem_getInverse_iff key value
  rw [values, NameMap.mem_keys]
  constructor
  · intro hsome
    obtain ⟨keys, hkeys⟩ := Option.isSome_iff_exists.1 hsome
    have hget : m.getInverse value = keys := by rw [getInverse, hkeys, Option.getD_some]
    by_contra hnone
    have hempty : keys = ∅ := by
      refine NameSet.ext fun key => iff_of_false (fun hkey => ?_) (NameSet.not_mem_empty key)
      exact hnone ⟨key, (hinverse key).1 (hget ▸ hkey)⟩
    exact h.inverse_filled value (hempty ▸ hkeys)
  · rintro ⟨key, hvalue⟩
    have hkey := (hinverse key).2 hvalue
    by_contra hnone
    rw [Bool.not_eq_true, Option.isSome_eq_false_iff, Option.isNone_iff_eq_none] at hnone
    rw [getInverse, hnone, Option.getD_none] at hkey
    exact NameSet.not_mem_empty key hkey

theorem Consistent.isEmpty_iff (h : m.Consistent) : m.isEmpty = true ↔ ∀ key, m.get key = ∅ := by
  have hkeys : m.isEmpty = true ↔ m.forward.keys = ∅ := by
    rw [← NameSet.isEmpty_iff, isEmpty, NameMap.isEmpty, NameSet.isEmpty, NameMap.keys,
      List.isEmpty_iff, List.isEmpty_iff, List.map_eq_nil_iff]
  rw [hkeys]
  constructor
  · intro hnone key
    by_contra hkey
    exact NameSet.not_mem_empty key (hnone ▸ h.mem_keys_iff.2 hkey)
  · intro hnone
    refine NameSet.ext fun key => iff_of_false (fun hkey => ?_) (NameSet.not_mem_empty key)
    exact h.mem_keys_iff.1 hkey (hnone key)

theorem Consistent.represents (h : m.Consistent) : m.Represents m.get :=
  ⟨rfl, h.mem_getInverse_iff, h.forward_filled, h.inverse_filled, h.size_eq, h.isEmpty_iff,
    fun _ => h.mem_values_iff⟩

/-! ## One change, and changes in turn -/

theorem Consistent.change (h : m.Consistent) (change : Change) : (m.change change).2.Consistent := by
  cases change with
  | set key values => exact h.set key values
  | delete key => exact h.delete key
  | rename old new => exact h.rename old new
  | clear => exact consistent_empty

/-- A map that is consistent takes every change as the function does that it gives. -/
theorem Consistent.get_change (h : m.Consistent) (change : Change) :
    (m.change change).2.get = (change.apply m.get).2 := by
  funext x
  cases change with
  | set key values =>
    calc (m.set key values).get x = if x = key then values else m.get x := m.get_set key x values
      _ = Function.update m.get key values x := by rw [Function.update_apply]
  | delete key =>
    calc (m.delete key).2.get x = if x = key then ∅ else m.get x := m.get_delete key x
      _ = Function.update m.get key ∅ x := by rw [Function.update_apply]
  | rename old new =>
    rw [TwoWayMap.change, h.get_rename, Change.apply]
    by_cases hold : m.get old = ∅
    · rw [if_pos hold, if_pos hold]
    · rw [if_neg hold, if_neg hold]
      dsimp only
      rw [Function.update_apply, Function.update_apply]
  | clear => rfl

theorem Consistent.fst_change (h : m.Consistent) (change : Change) :
    (m.change change).1 = (change.apply m.get).1 := by
  cases change with
  | set key values => rfl
  | delete key =>
    rw [TwoWayMap.change, Change.apply, TwoWayMap.delete]
    by_cases hkey : m.get key = ∅
    · rw [h.find?_eq_none_iff.2 hkey, decide_eq_false (not_not.2 hkey)]
    · obtain ⟨values, hvalues⟩ := Option.isSome_iff_exists.1 (h.isSome_find?_iff.2 hkey)
      rw [hvalues, decide_eq_true hkey]
  | rename old new =>
    rw [TwoWayMap.change, Change.apply, TwoWayMap.rename]
    by_cases hold : m.get old = ∅
    · rw [h.find?_eq_none_iff.2 hold, if_pos hold]
    · obtain ⟨values, hvalues⟩ := Option.isSome_iff_exists.1 (h.isSome_find?_iff.2 hold)
      rw [hvalues, if_neg hold]
  | clear => rfl

/-- A change that is refused leaves the map, and with it the inverse, as it is. -/
theorem snd_change_of_refused {change : Change} (h : (m.change change).1 = some false) :
    (m.change change).2 = m := by
  cases change with
  | set key values => cases h
  | delete key =>
    rw [TwoWayMap.change, delete] at h ⊢
    cases hkey : m.forward.find? key with
    | none => rfl
    | some values =>
      rw [hkey] at h
      cases h
  | rename old new =>
    rw [TwoWayMap.change, rename] at h ⊢
    cases hold : m.forward.find? old with
    | none => rfl
    | some values =>
      rw [hold] at h
      cases h
  | clear => cases h

theorem Represents.consistent (h : m.Represents assigned) : m.Consistent := by
  refine ⟨fun key value => ?_, h.forward_filled, h.inverse_filled⟩
  rw [h.get_eq]
  exact h.mem_getInverse_iff key value

theorem Represents.change (h : m.Represents assigned) (change : Change) :
    (m.change change).2.Represents (change.apply assigned).2 := by
  have hget := h.consistent.get_change change
  rw [h.get_eq] at hget
  have hafter := (h.consistent.change change).represents
  rwa [hget] at hafter

theorem Represents.changeAll (h : m.Represents assigned) (changes : List Change) :
    (m.changeAll changes).Represents (Change.applyAll assigned changes) := by
  induction changes generalizing m assigned with
  | nil => exact h
  | cons change changes ih => exact ih (h.change change)

/-- Whatever changes a two-way map has seen since it was empty, it stands for the plain function that
has seen the same ones. The next change answers as it does for the function, and where it answers that
there was nothing to change the map stays as it is. -/
theorem represents_throughout (changes : List Change) :
    let m := (∅ : TwoWayMap).changeAll changes
    let assigned := Change.applyAll (fun _ => ∅) changes
    m.Represents assigned ∧ ∀ change : Change,
      (m.change change).1 = (change.apply assigned).1 ∧
        (m.change change).2.Represents (change.apply assigned).2 ∧
        ((m.change change).1 = some false → (m.change change).2 = m) := by
  intro m assigned
  have hempty : (∅ : TwoWayMap).Represents fun _ => ∅ := consistent_empty.represents
  have hafter : m.Represents assigned := hempty.changeAll changes
  refine ⟨hafter, fun change => ⟨?_, hafter.change change, snd_change_of_refused⟩⟩
  rw [hafter.consistent.fst_change change, hafter.get_eq]

/-- A key that shares a value is renamed onto the key that it shares it with, and then onto itself. -/
theorem represents_throughout_choir :
    let changes : List Change := [.set "ann.md" (.ofList ["alto", "team"]),
      .set "bob.md" (.ofList ["bass", "team"]), .rename "ann.md" "bob.md", .rename "bob.md" "bob.md",
      .set "eve.md" (.ofList ["alto"]), .delete "eve.md"]
    let m := (∅ : TwoWayMap).changeAll changes
    m.Represents (Change.applyAll (fun _ => ∅) changes) ∧
      m.getInverse "team" = .ofList ["bob.md"] ∧ m.getInverse "bass" = ∅ ∧ m.size = 1 ∧
      (m.change (.rename "ann.md" "bob.md")).1 = some false ∧
      (m.change (.rename "ann.md" "bob.md")).2 = m := by
  intro changes m
  obtain ⟨hrepresents, hnext⟩ := represents_throughout changes
  have hrefused : (m.change (.rename "ann.md" "bob.md")).1 = some false := by decide +kernel
  exact ⟨hrepresents, by decide +kernel, by decide +kernel, by decide +kernel, hrefused,
    (hnext (.rename "ann.md" "bob.md")).2.2 hrefused⟩

end RollCall.TwoWayMap
