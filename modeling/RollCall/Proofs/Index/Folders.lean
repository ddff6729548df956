import RollCall.Proofs.Index.Catalogue
import RollCall.Proofs.Names.Path

/-!
# The folders of an index

Folders come from two sources: those that are added by name and those that documents lie in. What lies
below a folder is found by its path, and so is whether the folder exists; but the list of known folders
has only what was added itself and what encloses a document. It lacks a folder that exists only because
a folder below it was added (`folders_agree_iff`).
-/

namespace RollCall

/-- The folder that a change makes known by its name. -/
def IndexChange.addedFolder? : IndexChange → Option String
  | .addFolder folder => if Path.trimSlashes folder = "" then none else some (Path.trimSlashes folder)
  | .upsert _ _ | .remove _ | .rename _ _ => none

namespace VaultIndex

variable {index : VaultIndex} {folder : String}

/-! ## The folders that were added -/

theorem mem_folders_change {change : IndexChange} :
    folder ∈ (index.change change).2.folders ↔
      folder ∈ index.folders ∨ change.addedFolder? = some folder := by
  cases change with
  | upsert path facts => simp [change, upsert, IndexChange.addedFolder?]
  | remove path => simp [change, remove, IndexChange.addedFolder?]
  | addFolder added =>
    by_cases hempty : Path.trimSlashes added = ""
    · simp [change, addFolder, IndexChange.addedFolder?, hempty]
    · simp [change, addFolder, IndexChange.addedFolder?, hempty, or_comm, eq_comm]
  | rename old new =>
    by_cases hold : old ∈ index.documents
    · simp [change, rename, IndexChange.addedFolder?, hold]
    · simp [change, rename, IndexChange.addedFolder?, hold]

/-- No change takes an added folder away. -/
theorem mem_folders_changeAll {changes : List IndexChange} :
    folder ∈ (index.changeAll changes).folders ↔
      folder ∈ index.folders ∨ folder ∈ changes.filterMap IndexChange.addedFolder? := by
  induction changes generalizing index with
  | nil => simp [changeAll]
  | cons change changes ih =>
    rw [changeAll, List.foldl_cons]
    refine ih.trans ?_
    rw [mem_folders_change, or_assoc, List.mem_filterMap, List.mem_filterMap]
    simp

/-! ## Where folders are looked up -/

theorem mem_knownFolders_iff : folder ∈ index.knownFolders ↔
    folder ∈ index.folders ∨ ∃ path ∈ index.documents, Path.Encloses folder path := by
  simp only [knownFolders, NameSet.mem_insertAll, List.mem_flatMap, Path.mem_ancestors_iff]
  rfl

section

variable (hne : folder ≠ "") (htrim : Path.trimSlashes folder = folder)

include hne htrim

theorem folderExists_iff : index.folderExists folder = true ↔
    folder ∈ index.folders ∨ (∃ other ∈ index.folders, Path.Encloses folder other) ∨
      ∃ path ∈ index.documents, Path.Encloses folder path := by
  simp only [folderExists, htrim, hne, decide_false, Bool.false_or, Bool.or_eq_true,
    decide_eq_true_eq, List.any_eq_true, Path.isUnder_iff, or_assoc]
  rfl

theorem mem_documentsUnder_iff_encloses {path : String} : path ∈ index.documentsUnder folder ↔
    path ∈ index.documents ∧ Path.Encloses folder path := by
  simp only [documentsUnder, htrim, if_neg hne, NameSet.mem_filter, Path.isUnder_iff]

end

/-- After any changes, a folder exists if it was added, or encloses a folder that was, or encloses a
document; it is known in the first and the last case. So the two agree unless the folder merely
encloses folders that were added. The documents below it are those that it encloses. -/
theorem folders_agree_iff (changes : List IndexChange) (folder : String) (hne : folder ≠ "")
    (hstart : folder.toList.head? ≠ some '/') (hend : folder.toList.getLast? ≠ some '/') :
    let index := (∅ : VaultIndex).changeAll changes
    let added := changes.filterMap IndexChange.addedFolder?
    (index.folderExists folder = true ↔
      folder ∈ added ∨ (∃ other ∈ added, Path.Encloses folder other) ∨
        ∃ path ∈ index.documents, Path.Encloses folder path) ∧
    (folder ∈ index.knownFolders ↔
      folder ∈ added ∨ ∃ path ∈ index.documents, Path.Encloses folder path) ∧
    ((index.folderExists folder = true ↔ folder ∈ index.knownFolders) ↔
      ((∃ other ∈ added, Path.Encloses folder other) → folder ∈ index.knownFolders)) ∧
    (∀ path, path ∈ index.documentsUnder folder ↔
      path ∈ index.documents ∧ Path.Encloses folder path) ∧
    (index.documentsUnder folder ≠ ∅ → index.folderExists folder = true) := by
  intro index added
  have htrim := Path.trimSlashes_eq_self hstart hend
  have hadded : ∀ other, other ∈ index.folders ↔ other ∈ added := by
    intro other
    rw [mem_folders_changeAll]
    exact or_iff_right (NameSet.not_mem_empty other)
  have hexists : index.folderExists folder = true ↔
      folder ∈ added ∨ (∃ other ∈ added, Path.Encloses folder other) ∨
        ∃ path ∈ index.documents, Path.Encloses folder path := by
    rw [folderExists_iff hne htrim]
    simp only [hadded]
  have hknown : folder ∈ index.knownFolders ↔
      folder ∈ added ∨ ∃ path ∈ index.documents, Path.Encloses folder path := by
    rw [mem_knownFolders_iff, hadded]
  refine ⟨hexists, hknown, ?_, fun path => mem_documentsUnder_iff_encloses hne htrim,
    fun hdocuments => ?_⟩
  · constructor
    · intro hagree hinner
      exact hagree.1 (hexists.2 (.inr (.inl hinner)))
    · intro hinner
      refine ⟨fun hfolder => ?_, fun hfolder => hexists.2 ((hknown.1 hfolder).imp_right .inr)⟩
      rcases hexists.1 hfolder with hself | hother | hdocument
      · exact hknown.2 (.inl hself)
      · exact hinner hother
      · exact hknown.2 (.inr hdocument)
  · by_contra hmissing
    refine hdocuments (NameSet.ext fun path => iff_of_false (fun hpath => ?_) (NameSet.not_mem_empty path))
    have hbelow := (mem_documentsUnder_iff_encloses hne htrim).1 hpath
    exact hmissing (hexists.2 (.inr (.inr ⟨path, hbelow⟩)))

/-- A folder stays known when its last document has gone, if it was added itself. -/
theorem folders_agree_iff_archive :
    let changes : List IndexChange := [.upsert "choir/ann.md" ⟨[], [], []⟩, .addFolder "/choir/old/",
      .addFolder "choir", .rename "choir/ann.md" "ann.md"]
    let index := (∅ : VaultIndex).changeAll changes
    "choir" ≠ "" ∧ "choir".toList.head? ≠ some '/' ∧ "choir".toList.getLast? ≠ some '/' ∧
      index.folderExists "choir" = true ∧ "choir" ∈ index.knownFolders ∧
      ∀ path, path ∈ index.documentsUnder "choir" ↔
        path ∈ index.documents ∧ Path.Encloses "choir" path := by
  intro changes index
  obtain ⟨hexists, hknown, -, hdocuments, -⟩ :=
    folders_agree_iff changes "choir" (by decide) (by decide) (by decide)
  have hadded : "choir" ∈ changes.filterMap IndexChange.addedFolder? := by decide +kernel
  exact ⟨by decide, by decide, by decide, hexists.2 (.inl hadded), hknown.2 (.inl hadded), hdocuments⟩

/-- A folder that encloses an added one exists, but is not known. -/
theorem folderExists_of_inner_folder :
    let index := (∅ : VaultIndex).changeAll [.addFolder "choir/alto"]
    index.folderExists "choir" = true ∧ "choir" ∉ index.knownFolders := by
  decide +kernel

end VaultIndex

end RollCall
