import RollCall.Block.Table
import RollCall.Proofs.Names.Map

/-!
# What a table of blocks holds

Every change of a table seen through the blocks of one document, and the blocks of all documents as
those of each document in turn.
-/

namespace RollCall

/-- The block as one of another document. -/
def DocumentBlock.moveTo (path : String) (block : DocumentBlock) : DocumentBlock :=
  { block with path := path }

namespace BlockTable

/-- No document is listed that has no blocks. -/
def Filled (table : BlockTable) : Prop :=
  ∀ path, table.byPath.find? path ≠ some []

variable {table : BlockTable}

@[simp] theorem get_empty (path : String) : (∅ : BlockTable).get path = [] := rfl

theorem filled_empty : (∅ : BlockTable).Filled := by
  intro path h
  cases h

theorem Filled.find?_eq_none_iff (h : table.Filled) {path : String} :
    table.byPath.find? path = none ↔ table.get path = [] := by
  rw [get]
  cases hfind : table.byPath.find? path with
  | none => simp
  | some blocks =>
    have hblocks : blocks ≠ [] := fun hempty => h path (hempty ▸ hfind)
    simp [hblocks]

@[simp] theorem get_delete (table : BlockTable) (path x : String) :
    (table.delete path).get x = if x = path then [] else table.get x := by
  by_cases hx : x = path
  · simp [get, delete, hx]
  · simp [get, delete, hx]

theorem Filled.delete (h : table.Filled) (path : String) : (table.delete path).Filled := by
  intro x hx
  rw [BlockTable.delete, NameMap.find?_erase] at hx
  split at hx
  · cases hx
  · exact h x hx

@[simp] theorem get_set (table : BlockTable) (path x : String) (blocks : List DocumentBlock) :
    (table.set path blocks).get x = if x = path then blocks else table.get x := by
  rw [set]
  split
  · next hempty => rw [get_delete, List.isEmpty_iff.1 hempty]
  · by_cases hx : x = path
    · simp [get, hx]
    · simp [get, hx]

theorem Filled.set (h : table.Filled) (path : String) (blocks : List DocumentBlock) :
    (table.set path blocks).Filled := by
  rw [BlockTable.set]
  split
  · exact h.delete path
  · next hempty =>
    intro x hx
    rw [NameMap.find?_insert] at hx
    split at hx
    · exact hempty (List.isEmpty_iff.2 (Option.some.inj hx))
    · exact h x hx

/-- A document that has blocks takes them along; without blocks nothing is renamed. -/
theorem Filled.get_rename (h : table.Filled) (old new x : String) :
    (table.rename old new).get x =
      if table.get old = [] then table.get x
      else if x = new then (table.get old).map (DocumentBlock.moveTo new)
      else if x = old then [] else table.get x := by
  rw [rename]
  cases hfind : table.byPath.find? old with
  | none => rw [if_pos (h.find?_eq_none_iff.1 hfind)]
  | some blocks =>
    have hget : table.get old = blocks := by simp [get, hfind]
    have hsome : table.get old ≠ [] := fun hempty => by
      rw [h.find?_eq_none_iff.2 hempty] at hfind
      cases hfind
    rw [if_neg hsome, hget]
    by_cases hnew : x = new
    · simp [get, hnew, DocumentBlock.moveTo]
    · by_cases hold : x = old
      · subst hold
        simp [get, hnew]
      · simp [get, hnew, hold]

theorem Filled.rename (h : table.Filled) (old new : String) : (table.rename old new).Filled := by
  rw [BlockTable.rename]
  cases hfind : table.byPath.find? old with
  | none => exact h
  | some blocks =>
    intro x hx
    have hblocks : blocks ≠ [] := fun hempty => h old (hempty ▸ hfind)
    rw [NameMap.find?_insert, NameMap.find?_erase] at hx
    split at hx
    · exact hblocks (List.map_eq_nil_iff.1 (Option.some.inj hx))
    · split at hx
      · cases hx
      · exact h x hx

theorem flatMap_filter_ne_nil {α β : Type} (f : α → List β) (l : List α) :
    (l.filter fun a => f a ≠ []).flatMap f = l.flatMap f := by
  induction l with
  | nil => rfl
  | cons a l ih =>
    rw [List.filter_cons, List.flatMap_cons, ← ih]
    by_cases ha : f a = []
    · simp [ha]
    · simp [ha]

/-- The blocks of all documents are those of each document, over any set of documents that has all
documents with blocks. -/
theorem all_eq_flatMap {documents : NameSet} (h : table.Filled)
    (hall : ∀ path, table.get path ≠ [] → path ∈ documents) :
    table.all = documents.toList.flatMap table.get := by
  have hkeys : table.byPath.keys = documents.filter fun path => table.get path ≠ [] := by
    refine NameSet.ext fun path => ?_
    rw [NameMap.mem_keys, NameSet.mem_filter, Option.isSome_iff_ne_none, ne_eq,
      h.find?_eq_none_iff, decide_eq_true_eq]
    exact ⟨fun hpath => ⟨hall path hpath, hpath⟩, fun hpath => hpath.2⟩
  have hvalues : table.all = table.byPath.keys.toList.flatMap table.get := by
    have hmap := congrArg (List.flatMap (·.getD [])) table.byPath.map_find?_keys
    rw [List.flatMap_map, List.flatMap_map] at hmap
    rw [all, ← List.flatMap_id]
    exact hmap.symm
  rw [hvalues, hkeys]
  exact flatMap_filter_ne_nil table.get documents.toList

end BlockTable

end RollCall
