import RollCall.Index.Basic
import RollCall.Proofs.Text.Occurrence
import RollCall.Proofs.Block.Table
import RollCall.Proofs.Index.TwoWayMap
import Mathlib.Logic.Function.Basic

/-!
# What an index holds

An index keeps its documents, their tags, their links and their blocks apart. `Holds` says that all
of them together are one function from paths to what is known about the document there; each change
of the index is then a change of that function.

The index moves a document by moving what its parts have for it, and a part that has nothing leaves
alone what it has for the new path. Hence the new path of a rename must be free.
-/

namespace RollCall

/-- What is known about the document at each path, if there is one. -/
abbrev Contents := String → Option DocumentFacts

namespace DocumentFacts

/-- The tags of the document with those above them. -/
def tagSet (facts : DocumentFacts) : NameSet :=
  .ofList (facts.tags.flatMap expandTag)

/-- The documents that the document links to. -/
def linkSet (facts : DocumentFacts) : NameSet :=
  .ofList facts.links

/-- The facts of the document once it is at another path. -/
def moveTo (path : String) (facts : DocumentFacts) : DocumentFacts :=
  { facts with blocks := facts.blocks.map (DocumentBlock.moveTo path) }

end DocumentFacts

namespace Contents

/-- The contents once a document, if it is there, is at another path. -/
def move (contents : Contents) (old new : String) : Contents :=
  match contents old with
  | none => contents
  | some facts =>
    Function.update (Function.update contents old none) new (some (facts.moveTo new))

/-- One of the facts at a path; `nothing` where there is no document. -/
def part {β : Type} (fact : DocumentFacts → β) (nothing : β) (contents : Contents)
    (path : String) : β :=
  ((contents path).map fact).getD nothing

variable {β : Type} {fact : DocumentFacts → β} {nothing : β} {contents : Contents}
  {old new : String} {facts : DocumentFacts}

theorem move_of_eq_none (new : String) (h : contents old = none) :
    contents.move old new = contents := by
  rw [move, h]

theorem move_apply (new path : String) (h : contents old = some facts) :
    contents.move old new path =
      if path = new then some (facts.moveTo new) else if path = old then none else contents path := by
  rw [move, h]
  dsimp only
  rw [Function.update_apply, Function.update_apply]

theorem part_update (fact : DocumentFacts → β) (nothing : β) (contents : Contents) (path x : String)
    (found : Option DocumentFacts) :
    part fact nothing (Function.update contents path found) x =
      if x = path then (found.map fact).getD nothing else part fact nothing contents x := by
  rw [part, Function.update_apply]
  split
  · rfl
  · rfl

/-- A part of the contents moves as the parts of an index do: only if the old path has something. -/
theorem part_move (moved : β → β) (hfree : contents new = none ∨ new = old)
    (hold : (contents old).isSome = true) (hnothing : moved nothing = nothing)
    (hmoved : ∀ facts, fact (facts.moveTo new) = moved (fact facts))
    [Decidable (part fact nothing contents old = nothing)] (x : String) :
    part fact nothing (contents.move old new) x =
      if part fact nothing contents old = nothing then part fact nothing contents x
      else if x = new then moved (part fact nothing contents old)
      else if x = old then nothing else part fact nothing contents x := by
  obtain ⟨facts, hfacts⟩ := Option.isSome_iff_exists.1 hold
  have hpart : part fact nothing contents old = fact facts := by simp [part, hfacts]
  have hmove : part fact nothing (contents.move old new) x =
      if x = new then moved (fact facts)
      else if x = old then nothing else part fact nothing contents x := by
    rw [part, move_apply new x hfacts]
    split
    · exact hmoved facts
    · split
      · rfl
      · rfl
  by_cases hempty : part fact nothing contents old = nothing
  · rw [if_pos hempty, hmove, ← hpart, hempty, hnothing]
    split
    · next hnew =>
      rcases hfree with hnone | hsame
      · simp [part, hnew, hnone]
      · rw [hnew, hsame, hempty]
    · split
      · next hx => rw [hx, hempty]
      · rfl
  · rw [if_neg hempty, hmove, hpart]

end Contents

namespace VaultIndex

/-- The index holds exactly the documents of the contents, with these facts. -/
structure Holds (index : VaultIndex) (contents : Contents) : Prop where
  mem_documents_iff : ∀ path, path ∈ index.documents ↔ (contents path).isSome = true
  tags : index.tags.Consistent
  links : index.links.Consistent
  blocks : index.blocks.Filled
  get_tags : ∀ path, index.tags.get path = contents.part DocumentFacts.tagSet ∅ path
  get_links : ∀ path, index.links.get path = contents.part DocumentFacts.linkSet ∅ path
  get_blocks : ∀ path, index.blocks.get path = contents.part DocumentFacts.blocks [] path

variable {index other : VaultIndex} {contents : Contents}

theorem Holds.not_mem_documents_iff (h : index.Holds contents) {path : String} :
    path ∉ index.documents ↔ contents path = none := by
  rw [h.mem_documents_iff, Bool.not_eq_true, Option.isSome_eq_false_iff,
    Option.isNone_iff_eq_none]

theorem holds_empty : (∅ : VaultIndex).Holds fun _ => none where
  mem_documents_iff path := iff_of_false (NameSet.not_mem_empty path) Bool.false_ne_true
  tags := TwoWayMap.consistent_empty
  links := TwoWayMap.consistent_empty
  blocks := BlockTable.filled_empty
  get_tags _ := rfl
  get_links _ := rfl
  get_blocks _ := rfl

/-! ## Changes -/

theorem Holds.upsert (h : index.Holds contents) (path : String) (facts : DocumentFacts) :
    (index.upsert path facts).Holds (Function.update contents path (some facts)) where
  mem_documents_iff x := by
    rw [VaultIndex.upsert, NameSet.mem_insert, h.mem_documents_iff, Function.update_apply]
    by_cases hx : x = path
    · simp [hx]
    · simp [hx]
  tags := h.tags.set path _
  links := h.links.set path _
  blocks := h.blocks.set path _
  get_tags x := by
    rw [VaultIndex.upsert, TwoWayMap.get_set, h.get_tags, Contents.part_update]
    rfl
  get_links x := by
    rw [VaultIndex.upsert, TwoWayMap.get_set, h.get_links, Contents.part_update]
    rfl
  get_blocks x := by
    rw [VaultIndex.upsert, BlockTable.get_set, h.get_blocks, Contents.part_update]
    rfl

theorem Holds.remove (h : index.Holds contents) (path : String) :
    (index.remove path).2.Holds (Function.update contents path none) where
  mem_documents_iff x := by
    rw [VaultIndex.remove, NameSet.mem_erase, h.mem_documents_iff, Function.update_apply]
    by_cases hx : x = path
    · simp [hx]
    · simp [hx]
  tags := h.tags.delete path
  links := h.links.delete path
  blocks := h.blocks.delete path
  get_tags x := by
    rw [VaultIndex.remove, TwoWayMap.get_delete, h.get_tags, Contents.part_update]
    rfl
  get_links x := by
    rw [VaultIndex.remove, TwoWayMap.get_delete, h.get_links, Contents.part_update]
    rfl
  get_blocks x := by
    rw [VaultIndex.remove, BlockTable.get_delete, h.get_blocks, Contents.part_update]
    rfl

theorem Holds.addFolder (h : index.Holds contents) (folder : String) :
    (index.addFolder folder).Holds contents := by
  rw [VaultIndex.addFolder]
  split
  · exact h
  · exact ⟨h.mem_documents_iff, h.tags, h.links, h.blocks, h.get_tags, h.get_links, h.get_blocks⟩

/-- A document moves to a free path. -/
theorem Holds.rename {old new : String} (h : index.Holds contents)
    (hfree : contents new = none ∨ new = old) :
    (index.rename old new).2.Holds (contents.move old new) := by
  rw [VaultIndex.rename]
  split
  · next hdocument =>
    have hold := (h.mem_documents_iff old).1 hdocument
    obtain ⟨facts, hfacts⟩ := Option.isSome_iff_exists.1 hold
    refine ⟨fun x => ?_, h.tags.rename old new, h.links.rename old new, h.blocks.rename old new,
      fun x => ?_, fun x => ?_, fun x => ?_⟩
    · rw [NameSet.mem_insert, NameSet.mem_erase, h.mem_documents_iff,
        Contents.move_apply new x hfacts]
      by_cases hnew : x = new
      · simp [hnew]
      · by_cases hx : x = old
        · simp [hx, hx ▸ hnew]
        · simp [hnew, hx]
    · rw [h.tags.get_rename, h.get_tags, h.get_tags,
        Contents.part_move id hfree hold rfl fun _ => rfl]
      rfl
    · rw [h.links.get_rename, h.get_links, h.get_links,
        Contents.part_move id hfree hold rfl fun _ => rfl]
      rfl
    · rw [h.blocks.get_rename, h.get_blocks, h.get_blocks,
        Contents.part_move (List.map (DocumentBlock.moveTo new)) hfree hold rfl fun _ => rfl]
  · next hdocument =>
    rw [Contents.move_of_eq_none new (h.not_mem_documents_iff.1 hdocument)]
    exact h

/-! ## Answers -/

theorem Holds.fst_remove (h : index.Holds contents) (path : String) :
    (index.remove path).1 = (contents path).isSome := by
  rw [VaultIndex.remove, Bool.eq_iff_iff, decide_eq_true_iff]
  exact h.mem_documents_iff path

theorem Holds.fst_rename (h : index.Holds contents) (old new : String) :
    (index.rename old new).1 = (contents old).isSome := by
  rw [VaultIndex.rename]
  split
  · next hold => exact ((h.mem_documents_iff old).1 hold).symm
  · next hold =>
    rw [h.mem_documents_iff, Bool.not_eq_true] at hold
    exact hold.symm

theorem mem_part_iff {fact : DocumentFacts → NameSet} {path x : String} :
    x ∈ contents.part fact ∅ path ↔ ∃ facts, contents path = some facts ∧ x ∈ fact facts := by
  rw [Contents.part]
  cases contents path with
  | none => simp
  | some facts => simp

theorem Holds.mem_tagsOf_iff (h : index.Holds contents) {path tag : String} :
    tag ∈ index.tagsOf path ↔
      ∃ facts, contents path = some facts ∧ ∃ written ∈ facts.tags, tag ∈ expandTag written := by
  rw [tagsOf, h.get_tags, mem_part_iff]
  simp only [DocumentFacts.tagSet, NameSet.mem_ofList, List.mem_flatMap]

theorem Holds.mem_documentsWithTag_iff (h : index.Holds contents) {path tag : String} :
    path ∈ index.documentsWithTag tag ↔ withoutHash tag ∈ index.tagsOf path :=
  h.tags.mem_getInverse_iff path (withoutHash tag)

theorem Holds.mem_outgoing_iff (h : index.Holds contents) {path target : String} :
    target ∈ (index.neighbours path).outgoing ↔
      ∃ facts, contents path = some facts ∧ target ∈ facts.links := by
  rw [neighbours, h.get_links, mem_part_iff]
  simp only [DocumentFacts.linkSet, NameSet.mem_ofList]

theorem Holds.mem_incoming_iff (h : index.Holds contents) {path source : String} :
    source ∈ (index.neighbours path).incoming ↔ path ∈ (index.neighbours source).outgoing :=
  h.links.mem_getInverse_iff source path

theorem Holds.all_blocks (h : index.Holds contents) :
    index.blocks.all = index.documents.toList.flatMap (contents.part DocumentFacts.blocks []) := by
  have hget : index.blocks.get = contents.part DocumentFacts.blocks [] := funext h.get_blocks
  have hall : ∀ path, index.blocks.get path ≠ [] → path ∈ index.documents := by
    intro path hpath
    rw [h.mem_documents_iff]
    cases hfacts : contents path with
    | none => exact absurd (by rw [hget, Contents.part, hfacts]; rfl) hpath
    | some facts => rfl
  rw [BlockTable.all_eq_flatMap h.blocks hall, hget]

theorem mem_documentsUnder_iff {folder path : String} :
    path ∈ index.documentsUnder folder ↔ path ∈ index.documents ∧
      (Path.trimSlashes folder = "" ∨ ∃ rest, path = Path.trimSlashes folder ++ "/" ++ rest) := by
  have hunder : ∀ folder : String, Path.isUnder folder path = true ↔
      ∃ rest, path = folder ++ "/" ++ rest := by
    intro folder
    rw [Path.isUnder, Option.isSome_iff_exists]
    constructor
    · rintro ⟨rest, hrest⟩
      rw [Text.after?_eq_some_iff] at hrest
      refine ⟨String.ofList rest, String.toList_inj.1 ?_⟩
      simp [hrest]
    · rintro ⟨rest, rfl⟩
      exact ⟨rest.toList, Text.after?_eq_some_iff.2 (by simp)⟩
  rw [documentsUnder]
  split
  · next hempty => simp [hempty]
  · next hempty => simp [hempty, hunder]

/-! ## Indexes with the same contents -/

/-- The indexes give the same answers about documents, tags, links and blocks. -/
structure Alike (index other : VaultIndex) : Prop where
  documents : index.documents = other.documents
  tagsOf : ∀ path, index.tagsOf path = other.tagsOf path
  documentsWithTag : ∀ tag, index.documentsWithTag tag = other.documentsWithTag tag
  neighbours : ∀ path, index.neighbours path = other.neighbours path
  blocksIn : ∀ path, index.blocks.get path = other.blocks.get path
  allBlocks : index.blocks.all = other.blocks.all

theorem Holds.alike (h : index.Holds contents) (hother : other.Holds contents) :
    index.Alike other := by
  have hdocuments : index.documents = other.documents := by
    refine NameSet.ext fun path => ?_
    rw [h.mem_documents_iff, hother.mem_documents_iff]
  have htags : ∀ path, index.tagsOf path = other.tagsOf path := fun path =>
    (h.get_tags path).trans (hother.get_tags path).symm
  have hlinks : ∀ path, index.links.get path = other.links.get path := fun path =>
    (h.get_links path).trans (hother.get_links path).symm
  refine ⟨hdocuments, htags, fun tag => ?_, fun path => ?_, fun path => ?_, ?_⟩
  · refine NameSet.ext fun path => ?_
    rw [h.mem_documentsWithTag_iff, hother.mem_documentsWithTag_iff, htags]
  · have hincoming : index.links.getInverse path = other.links.getInverse path := by
      refine NameSet.ext fun source => ?_
      rw [h.links.mem_getInverse_iff, hother.links.mem_getInverse_iff, hlinks]
    rw [VaultIndex.neighbours, VaultIndex.neighbours, hlinks, hincoming]
  · exact (h.get_blocks path).trans (hother.get_blocks path).symm
  · rw [h.all_blocks, hother.all_blocks, hdocuments]

end VaultIndex

end RollCall
