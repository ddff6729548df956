import RollCall.Proofs.Index.Contents

/-!
# The index as one map

After any changes an index gives the answers of a plain map from paths to facts that was changed in
the same way (`answers_of_admissible`), as long as no document is renamed onto another one.
-/

namespace RollCall

/-- A change of an index. -/
inductive IndexChange where
  | upsert (path : String) (facts : DocumentFacts)
  | remove (path : String)
  | addFolder (folder : String)
  | rename (old new : String)

/-- The index after a change, and what the change answers if it answers anything. -/
def VaultIndex.change (index : VaultIndex) : IndexChange → Option Bool × VaultIndex
  | .upsert path facts => (none, index.upsert path facts)
  | .remove path => (some (index.remove path).1, (index.remove path).2)
  | .addFolder folder => (none, index.addFolder folder)
  | .rename old new => (some (index.rename old new).1, (index.rename old new).2)

/-- The index after changes in turn. -/
def VaultIndex.changeAll (index : VaultIndex) (changes : List IndexChange) : VaultIndex :=
  changes.foldl (fun index change => (index.change change).2) index

/-- No document is renamed onto another one. -/
def IndexChange.Free (index : VaultIndex) : IndexChange → Prop
  | .rename old new => new ∉ index.documents ∨ new = old
  | .upsert _ _ | .remove _ | .addFolder _ => True

instance (index : VaultIndex) (change : IndexChange) : Decidable (change.Free index) :=
  match change with
  | .rename old new => inferInstanceAs (Decidable (new ∉ index.documents ∨ new = old))
  | .upsert _ _ | .remove _ | .addFolder _ => isTrue trivial

/-- None of the changes in turn renames a document onto another one. -/
def VaultIndex.Admissible (index : VaultIndex) : List IndexChange → Prop
  | [] => True
  | change :: changes => change.Free index ∧ (index.change change).2.Admissible changes

instance VaultIndex.decidableAdmissible (index : VaultIndex) :
    (changes : List IndexChange) → Decidable (index.Admissible changes)
  | [] => isTrue trivial
  | change :: changes =>
    have := VaultIndex.decidableAdmissible (index.change change).2 changes
    inferInstanceAs (Decidable (change.Free index ∧ (index.change change).2.Admissible changes))

/-- A plain map from paths to facts. -/
abbrev Catalogue := NameMap DocumentFacts

namespace Catalogue

/-- The map with a document, if it is there, at another path. -/
def move (catalogue : Catalogue) (old new : String) : Catalogue :=
  match catalogue.find? old with
  | none => catalogue
  | some facts => (catalogue.erase old).insert new (facts.moveTo new)

/-- The map after a change, and what the change answers if it answers anything. -/
def change (catalogue : Catalogue) : IndexChange → Option Bool × Catalogue
  | .upsert path facts => (none, catalogue.insert path facts)
  | .remove path => (some (catalogue.contains path), catalogue.erase path)
  | .addFolder _ => (none, catalogue)
  | .rename old new => (some (catalogue.contains old), catalogue.move old new)

/-- The map after changes in turn. -/
def changeAll (catalogue : Catalogue) (changes : List IndexChange) : Catalogue :=
  changes.foldl (fun catalogue change => (catalogue.change change).2) catalogue

variable {catalogue : Catalogue}

theorem find?_insert_eq_update (path : String) (facts : DocumentFacts) :
    (catalogue.insert path facts).find? = Function.update catalogue.find? path (some facts) := by
  funext x
  rw [NameMap.find?_insert, Function.update_apply]

theorem find?_erase_eq_update (path : String) :
    (catalogue.erase path).find? = Function.update catalogue.find? path none := by
  funext x
  rw [NameMap.find?_erase, Function.update_apply]

theorem find?_move (old new : String) :
    (catalogue.move old new).find? = Contents.move catalogue.find? old new := by
  rw [move, Contents.move]
  cases catalogue.find? old with
  | none => rfl
  | some facts =>
    dsimp only
    rw [find?_insert_eq_update, find?_erase_eq_update]

end Catalogue

namespace VaultIndex

variable {index : VaultIndex} {catalogue : Catalogue}

/-! ## One change, and changes in turn -/

theorem Holds.change {change : IndexChange} (h : index.Holds catalogue.find?)
    (hfree : change.Free index) :
    (index.change change).2.Holds (catalogue.change change).2.find? := by
  cases change with
  | upsert path facts =>
    have := h.upsert path facts
    rwa [← Catalogue.find?_insert_eq_update] at this
  | remove path =>
    have := h.remove path
    rwa [← Catalogue.find?_erase_eq_update] at this
  | addFolder folder => exact h.addFolder folder
  | rename old new =>
    have hnone : catalogue.find? new = none ∨ new = old := by
      rcases hfree with hnew | hsame
      · exact .inl (h.not_mem_documents_iff.1 hnew)
      · exact .inr hsame
    have := h.rename hnone
    rwa [← Catalogue.find?_move] at this

theorem Holds.fst_change (h : index.Holds catalogue.find?) (change : IndexChange) :
    (index.change change).1 = (catalogue.change change).1 := by
  cases change with
  | upsert path facts => rfl
  | remove path => exact congrArg some (h.fst_remove path)
  | addFolder folder => rfl
  | rename old new => exact congrArg some (h.fst_rename old new)

theorem Holds.changeAll {changes : List IndexChange} (h : index.Holds catalogue.find?)
    (hchanges : index.Admissible changes) :
    (index.changeAll changes).Holds (catalogue.changeAll changes).find? := by
  induction changes generalizing index catalogue with
  | nil => exact h
  | cons change changes ih => exact ih (h.change hchanges.1) hchanges.2

/-! ## All answers -/

/-- The index answers every question as the map does. -/
structure Answers (index : VaultIndex) (catalogue : Catalogue) : Prop where
  documents : index.documents = catalogue.keys
  contains : ∀ path, path ∈ index.documents ↔ catalogue.contains path = true
  length : index.documents.toList.length = catalogue.size
  tagsOf : ∀ path tag, tag ∈ index.tagsOf path ↔
    ∃ facts, catalogue.find? path = some facts ∧ ∃ written ∈ facts.tags, tag ∈ expandTag written
  documentsWithTag : ∀ tag path, path ∈ index.documentsWithTag tag ↔
    ∃ facts, catalogue.find? path = some facts ∧
      ∃ written ∈ facts.tags, withoutHash tag ∈ expandTag written
  outgoing : ∀ path target, target ∈ (index.neighbours path).outgoing ↔
    ∃ facts, catalogue.find? path = some facts ∧ target ∈ facts.links
  incoming : ∀ path source, source ∈ (index.neighbours path).incoming ↔
    ∃ facts, catalogue.find? source = some facts ∧ path ∈ facts.links
  blocksIn : ∀ path,
    index.blocks.get path = ((catalogue.find? path).map DocumentFacts.blocks).getD []
  allBlocks : index.blocks.all = catalogue.values.flatMap DocumentFacts.blocks
  documentsUnder : ∀ folder path, path ∈ index.documentsUnder folder ↔
    catalogue.contains path = true ∧
      (Path.trimSlashes folder = "" ∨ ∃ rest, path = Path.trimSlashes folder ++ "/" ++ rest)

theorem Holds.answers (h : index.Holds catalogue.find?) : index.Answers catalogue := by
  have hdocuments : index.documents = catalogue.keys := by
    refine NameSet.ext fun path => ?_
    rw [h.mem_documents_iff, NameMap.mem_keys]
  refine ⟨hdocuments, h.mem_documents_iff, ?_, fun path tag => h.mem_tagsOf_iff,
    fun tag path => ?_, fun path target => h.mem_outgoing_iff, fun path source => ?_,
    h.get_blocks, ?_, fun folder path => ?_⟩
  · rw [hdocuments, NameMap.keys, NameMap.size, List.length_map]
  · rw [h.mem_documentsWithTag_iff, h.mem_tagsOf_iff]
  · rw [h.mem_incoming_iff, h.mem_outgoing_iff]
  · have hvalues := congrArg (List.flatMap fun found : Option DocumentFacts =>
      (found.map DocumentFacts.blocks).getD []) catalogue.map_find?_keys
    rw [List.flatMap_map, List.flatMap_map] at hvalues
    rw [h.all_blocks, hdocuments]
    exact hvalues
  · rw [mem_documentsUnder_iff, h.mem_documents_iff]
    rfl

/-- Whatever changes an index has seen, it answers as a plain map after the same changes, and so does
the next change. -/
theorem answers_of_admissible (changes : List IndexChange) (h : (∅ : VaultIndex).Admissible changes) :
    ((∅ : VaultIndex).changeAll changes).Answers ((∅ : Catalogue).changeAll changes) ∧
      ∀ change, (((∅ : VaultIndex).changeAll changes).change change).1 =
        (((∅ : Catalogue).changeAll changes).change change).1 := by
  have hempty : (∅ : VaultIndex).Holds (∅ : Catalogue).find? := holds_empty
  have hholds := hempty.changeAll h
  exact ⟨hholds.answers, hholds.fst_change⟩

/-- A document with nested tags and a link is moved, comes again at its old path and goes. -/
theorem answers_of_admissible_moves :
    let changes : List IndexChange := [.upsert "a.md" ⟨["#team/core"], ["b.md"], []⟩,
      .addFolder "/old/", .rename "a.md" "old/a.md", .upsert "a.md" ⟨["guest"], [], []⟩,
      .rename "old/a.md" "old/a.md", .remove "a.md", .rename "a.md" "c.md"]
    (∅ : VaultIndex).Admissible changes ∧
      ((∅ : VaultIndex).changeAll changes).Answers ((∅ : Catalogue).changeAll changes) ∧
      ∀ change, (((∅ : VaultIndex).changeAll changes).change change).1 =
        (((∅ : Catalogue).changeAll changes).change change).1 := by
  intro changes
  have h : (∅ : VaultIndex).Admissible changes := by decide +kernel
  exact ⟨h, answers_of_admissible changes h⟩

end VaultIndex

end RollCall
