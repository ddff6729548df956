import RollCall.Proofs.Index.Catalogue

/-!
# Renaming onto another document

The parts of an index move a document one by one, and a part that has nothing for the old path
keeps what it has for the new one. So a document that is renamed onto another replaces it exactly if
it has something in each part in which the other one has (`VaultIndex.rename_replaces_iff`). What is
left of the other one otherwise is found under the new path as if it belonged to the document
(`VaultIndex.rename_keeps_leftovers`).
-/

namespace RollCall

/-- What an index has for one path. -/
@[ext]
structure Parts where
  /-- The tags, with those above them. -/
  tags : NameSet
  /-- The documents that are linked to. -/
  links : NameSet
  /-- The blocks. -/
  blocks : List DocumentBlock

namespace Parts

/-- What an index has for a path without a document. -/
def none : Parts := ⟨∅, ∅, []⟩

/-- The parts of a document once it is at another path. -/
def moveTo (path : String) (parts : Parts) : Parts :=
  { parts with blocks := parts.blocks.map (DocumentBlock.moveTo path) }

/-- Each of the parts, or the other document's where there is nothing. -/
def onTopOf (parts other : Parts) : Parts where
  tags := if parts.tags = ∅ then other.tags else parts.tags
  links := if parts.links = ∅ then other.links else parts.links
  blocks := if parts.blocks = [] then other.blocks else parts.blocks

/-- There is something in each part in which the other document has something. -/
structure Covers (parts other : Parts) : Prop where
  tags : parts.tags = ∅ → other.tags = ∅
  links : parts.links = ∅ → other.links = ∅
  blocks : parts.blocks = [] → other.blocks = []

theorem covers_none (parts : Parts) : parts.Covers none :=
  ⟨fun _ => rfl, fun _ => rfl, fun _ => rfl⟩

theorem covers_moveTo_iff {parts other : Parts} {path : String} :
    (parts.moveTo path).Covers other ↔ parts.Covers other := by
  have hblocks : (parts.moveTo path).blocks = [] ↔ parts.blocks = [] := List.map_eq_nil_iff
  constructor
  · exact fun h => ⟨h.tags, h.links, fun hnone => h.blocks (hblocks.2 hnone)⟩
  · exact fun h => ⟨h.tags, h.links, fun hnone => h.blocks (hblocks.1 hnone)⟩

theorem blocks_moveTo_onTopOf (parts other : Parts) (path : String) :
    ((parts.moveTo path).onTopOf other).blocks =
      if parts.blocks = [] then other.blocks else parts.blocks.map (DocumentBlock.moveTo path) := by
  by_cases h : parts.blocks = []
  · simp [onTopOf, moveTo, h]
  · simp [onTopOf, moveTo, h]

theorem onTopOf_eq_self_iff {parts other : Parts} :
    parts.onTopOf other = parts ↔ parts.Covers other := by
  have hpart : ∀ {β : Type} (nothing part kept : β) [Decidable (part = nothing)],
      (if part = nothing then kept else part) = part ↔ (part = nothing → kept = nothing) := by
    intro β nothing part kept _
    by_cases h : part = nothing
    · simp [h]
    · simp [h]
  rw [onTopOf, mk.injEq, hpart, hpart, hpart]
  exact ⟨fun ⟨htags, hlinks, hblocks⟩ => ⟨htags, hlinks, hblocks⟩,
    fun h => ⟨h.tags, h.links, h.blocks⟩⟩

end Parts

namespace VaultIndex

/-- What the index has for a path. -/
def parts (index : VaultIndex) (path : String) : Parts :=
  ⟨index.tagsOf path, (index.neighbours path).outgoing, index.blocks.get path⟩

/-- The parts of the index agree with themselves, and have something for documents only. -/
structure Tidy (index : VaultIndex) : Prop where
  tags : index.tags.Consistent
  links : index.links.Consistent
  blocks : index.blocks.Filled
  parts_of_not_mem : ∀ path, path ∉ index.documents → index.parts path = Parts.none

theorem tidy_empty : (∅ : VaultIndex).Tidy where
  tags := TwoWayMap.consistent_empty
  links := TwoWayMap.consistent_empty
  blocks := BlockTable.filled_empty
  parts_of_not_mem _ _ := rfl

variable {index : VaultIndex} {old new : String}

theorem mem_documents_rename_iff (h : old ∈ index.documents) (path : String) :
    path ∈ (index.rename old new).2.documents ↔
      path = new ∨ path ∈ index.documents ∧ path ≠ old := by
  rw [rename, if_pos h, NameSet.mem_insert, NameSet.mem_erase]

/-! ## What the parts have after a change -/

theorem parts_upsert (index : VaultIndex) (path x : String) (facts : DocumentFacts) :
    (index.upsert path facts).parts x =
      if x = path then ⟨facts.tagSet, facts.linkSet, facts.blocks⟩ else index.parts x := by
  rw [parts, tagsOf, neighbours, upsert, TwoWayMap.get_set, TwoWayMap.get_set, BlockTable.get_set]
  split
  · rfl
  · rfl

theorem parts_remove (index : VaultIndex) (path x : String) :
    (index.remove path).2.parts x = if x = path then Parts.none else index.parts x := by
  rw [parts, tagsOf, neighbours, remove, TwoWayMap.get_delete, TwoWayMap.get_delete,
    BlockTable.get_delete]
  split
  · rfl
  · rfl

theorem addFolder_eq (index : VaultIndex) (folder : String) :
    ∃ folders, index.addFolder folder = { index with folders := folders } := by
  rw [addFolder]
  split
  · exact ⟨index.folders, rfl⟩
  · exact ⟨_, rfl⟩

/-- How one part moves: at the new path is what it has for the old one, or else for the new one. -/
theorem moved_part_eq {β : Type} (part : String → β) (nothing moved : β) (old new x : String)
    [Decidable (part old = nothing)] :
    (if part old = nothing then part x
      else if x = new then moved else if x = old then nothing else part x) =
    if x = new then (if part old = nothing then part new else moved)
    else if x = old then nothing else part x := by
  by_cases hempty : part old = nothing
  · rw [if_pos hempty, if_pos hempty]
    by_cases hnew : x = new
    · rw [if_pos hnew, hnew]
    · by_cases hold : x = old
      · rw [if_neg hnew, if_pos hold, hold, hempty]
      · rw [if_neg hnew, if_neg hold]
  · rw [if_neg hempty, if_neg hempty]

theorem Tidy.parts_rename (h : index.Tidy) (hold : old ∈ index.documents) (new x : String) :
    (index.rename old new).2.parts x =
      if x = new then ((index.parts old).moveTo new).onTopOf (index.parts new)
      else if x = old then Parts.none else index.parts x := by
  have htags := (h.tags.get_rename old new x).trans (moved_part_eq index.tags.get ∅ _ old new x)
  have hlinks := (h.links.get_rename old new x).trans (moved_part_eq index.links.get ∅ _ old new x)
  have hblocks := (h.blocks.get_rename old new x).trans
    (moved_part_eq index.blocks.get [] _ old new x)
  rw [parts, tagsOf, neighbours, rename, if_pos hold]
  dsimp only
  rw [htags, hlinks, hblocks]
  by_cases hnew : x = new
  · rw [if_pos hnew, if_pos hnew, if_pos hnew, if_pos hnew]
    refine Parts.ext rfl rfl ?_
    rw [Parts.blocks_moveTo_onTopOf]
    rfl
  · by_cases hx : x = old
    · simp only [if_neg hnew, if_pos hx, Parts.none]
    · simp only [if_neg hnew, if_neg hx, parts, tagsOf, neighbours]

/-! ## Changes in turn -/

theorem Tidy.change (h : index.Tidy) (change : IndexChange) : (index.change change).2.Tidy := by
  cases change with
  | upsert path facts =>
    refine ⟨h.tags.set path _, h.links.set path _, h.blocks.set path _, fun x hx => ?_⟩
    rw [VaultIndex.change, upsert, NameSet.mem_insert, not_or] at hx
    exact (parts_upsert index path x facts).trans
      ((if_neg hx.1).trans (h.parts_of_not_mem x hx.2))
  | remove path =>
    refine ⟨h.tags.delete path, h.links.delete path, h.blocks.delete path, fun x hx => ?_⟩
    rw [VaultIndex.change, parts_remove]
    split
    · rfl
    · next hne =>
      refine h.parts_of_not_mem x fun hmem => hx ?_
      exact NameSet.mem_erase.2 ⟨hmem, hne⟩
  | addFolder folder =>
    obtain ⟨folders, hfolders⟩ := index.addFolder_eq folder
    rw [VaultIndex.change, hfolders]
    exact ⟨h.tags, h.links, h.blocks, h.parts_of_not_mem⟩
  | rename old new =>
    rw [VaultIndex.change]
    by_cases hold : old ∈ index.documents
    · have hparts : ∀ x, x ∉ (index.rename old new).2.documents →
          (index.rename old new).2.parts x = Parts.none := by
        intro x hx
        rw [mem_documents_rename_iff hold, not_or, not_and] at hx
        rw [h.parts_rename hold, if_neg hx.1]
        split
        · rfl
        · next hne => exact h.parts_of_not_mem x fun hmem => hx.2 hmem hne
      rw [rename, if_pos hold] at hparts ⊢
      exact ⟨h.tags.rename old new, h.links.rename old new, h.blocks.rename old new, hparts⟩
    · rw [rename, if_neg hold]
      exact h

theorem Tidy.changeAll (h : index.Tidy) (changes : List IndexChange) :
    (index.changeAll changes).Tidy := by
  induction changes generalizing index with
  | nil => exact h
  | cons change changes ih => exact ih (h.change change)

/-- In an index a path is found by the tags and links that the index has for it. -/
theorem Tidy.mem_documentsWithTag_iff (h : index.Tidy) {path tag : String} :
    path ∈ index.documentsWithTag tag ↔ withoutHash tag ∈ (index.parts path).tags :=
  h.tags.mem_getInverse_iff path (withoutHash tag)

theorem Tidy.mem_incoming_iff (h : index.Tidy) {path target : String} :
    path ∈ (index.neighbours target).incoming ↔ target ∈ (index.parts path).links :=
  h.links.mem_getInverse_iff path target

/-- A document that is renamed leaves nothing at its old path and the other documents alone. At its
new path there is what it had, exactly if that covers what was there; the index finds the new path
by what it has for it. Nothing is left over if no document was there. -/
theorem rename_replaces_iff (changes : List IndexChange) {old new : String}
    (hold : old ∈ ((∅ : VaultIndex).changeAll changes).documents) (hne : old ≠ new) :
    let index := (∅ : VaultIndex).changeAll changes
    let later := (index.rename old new).2
    (index.rename old new).1 = true ∧
      (∀ path, path ∈ later.documents ↔ path = new ∨ path ∈ index.documents ∧ path ≠ old) ∧
      later.parts old = Parts.none ∧
      (∀ path, path ≠ old → path ≠ new → later.parts path = index.parts path) ∧
      (∀ path tag, path ∈ later.documentsWithTag tag ↔ withoutHash tag ∈ (later.parts path).tags) ∧
      (∀ path target, path ∈ (later.neighbours target).incoming ↔
        target ∈ (later.parts path).links) ∧
      (later.parts new = (index.parts old).moveTo new ↔
        (index.parts old).Covers (index.parts new)) ∧
      (new ∉ index.documents → later.parts new = (index.parts old).moveTo new) := by
  intro index later
  have htidy : index.Tidy := tidy_empty.changeAll changes
  have hlater : later.Tidy := htidy.change (.rename old new)
  have hparts := htidy.parts_rename hold new
  have hnew : later.parts new = (index.parts old).moveTo new ↔
      (index.parts old).Covers (index.parts new) := by
    rw [hparts new, if_pos rfl, Parts.onTopOf_eq_self_iff, Parts.covers_moveTo_iff]
  refine ⟨?_, mem_documents_rename_iff hold, ?_, fun path hpath hother => ?_,
    fun path tag => hlater.mem_documentsWithTag_iff,
    fun path target => hlater.mem_incoming_iff, hnew, fun hfree => ?_⟩
  · rw [rename, if_pos hold]
  · rw [hparts old, if_neg hne, if_pos rfl]
  · rw [hparts path, if_neg hother, if_neg hpath]
  · rw [hnew, htidy.parts_of_not_mem new hfree]
    exact Parts.covers_none _

/-- A document with tags, a link and a block replaces one that has tags and a link. -/
theorem rename_replaces_tagged :
    let block : DocumentBlock := ⟨"a.md", .error (.missingHeader .date)⟩
    let changes : List IndexChange := [.upsert "a.md" ⟨["#team/core"], ["c.md"], [block]⟩,
      .upsert "b.md" ⟨["#guest"], ["a.md"], []⟩]
    let index := (∅ : VaultIndex).changeAll changes
    let later := (index.rename "a.md" "b.md").2
    "a.md" ∈ index.documents ∧ "b.md" ∈ index.documents ∧
      later.parts "b.md" = (index.parts "a.md").moveTo "b.md" ∧
      later.documentsWithTag "#guest" = ∅ := by
  intro block changes index later
  obtain ⟨hold, hnew, htag⟩ : "a.md" ∈ index.documents ∧ "b.md" ∈ index.documents ∧
      later.documentsWithTag "#guest" = ∅ := by
    decide +kernel
  have hcovers : (index.parts "a.md").Covers (index.parts "b.md") := by
    refine ⟨?_, ?_, fun _ => rfl⟩ <;> decide +kernel
  have hne : "a.md" ≠ "b.md" := by decide
  obtain ⟨-, -, -, -, -, -, hreplaced, -⟩ := rename_replaces_iff changes hold hne
  exact ⟨hold, hnew, hreplaced.2 hcovers, htag⟩

/-- A document without tags, links and blocks is renamed onto one that has all of them: the new path
keeps them all. -/
theorem rename_keeps_leftovers :
    let block : DocumentBlock := ⟨"b.md", .error (.missingHeader .date)⟩
    let changes : List IndexChange := [.upsert "a.md" ⟨[], [], []⟩,
      .upsert "b.md" ⟨["#guest"], ["c.md"], [block]⟩]
    let index := (∅ : VaultIndex).changeAll changes
    let later := (index.rename "a.md" "b.md").2
    "a.md" ∈ index.documents ∧ index.parts "a.md" = Parts.none ∧
      (later.parts "b.md").tags = .ofList ["guest"] ∧
      (later.parts "b.md").links = .ofList ["c.md"] ∧
      (later.parts "b.md").blocks.map DocumentBlock.path = ["b.md"] ∧
      later.documentsWithTag "#guest" = .ofList ["b.md"] ∧
      (later.neighbours "c.md").incoming = .ofList ["b.md"] := by
  intro block changes index later
  refine ⟨by decide +kernel, Parts.ext ?_ ?_ rfl, ?_⟩ <;> decide +kernel

end VaultIndex

end RollCall
