import RollCall.Index.Worker
import RollCall.Proofs.Index.Contents
import RollCall.Vault.Memory

/-!
# What a host keeps

The documents of a host as contents: what loading gives, what a worker does with one event, and what
a host does that reports the event.
-/

namespace RollCall

/-- A host: where documents are stored, and where their tags and links are known. -/
structure Source (σ μ : Type) where
  vault : σ
  annotations : μ

namespace Source

variable {σ μ : Type} [Storage σ] [Annotations μ]

/-- The documents that can be read, with what is known about them. -/
def contents (source : Source σ μ) : Contents := fun path =>
  (readFacts source.vault source.annotations path).toOption

/-- Documents and folders can be listed, and the listed documents are those that can be read. -/
structure Readable (source : Source σ μ) : Prop where
  folders : ∃ folders, Storage.folders source.vault = .ok folders
  documents : ∃ documents : NameSet, Storage.documents source.vault = .ok documents.toList ∧
    ∀ path, path ∈ documents ↔ (source.contents path).isSome = true

end Source

namespace Contents

/-- What a host does to its documents when it reports the event. -/
def Becomes (before after : Contents) : DocumentEvent → Prop
  | .changed path => ∃ facts, after = Function.update before path (some facts)
  | .renamed old new => (before old).isSome = true ∧ after = before.move old new
  | .deleted path => after = Function.update before path none

/-- The known contents once a document is read again, if it can be read. -/
def reread (known host : Contents) (path : String) : Contents :=
  match host path with
  | none => known
  | some facts => Function.update known path (some facts)

/-- What is known once a worker has taken the event. -/
def apply (known host : Contents) : DocumentEvent → Contents
  | .changed path => known.reread host path
  | .renamed old new => known.move old new
  | .deleted path => Function.update known path none

theorem foldl_reread (known host : Contents) (paths : List String) (x : String) :
    paths.foldl (fun known path => known.reread host path) known x =
      if x ∈ paths then (host x).or (known x) else known x := by
  induction paths generalizing known with
  | nil => rfl
  | cons path paths ih =>
    rw [List.foldl_cons, ih, reread]
    cases hpath : host path with
    | none =>
      by_cases hx : x = path
      · simp [hx, hpath]
      · simp [hx]
    | some facts =>
      by_cases hx : x = path
      · simp [hx, hpath]
      · simp [hx]

end Contents

/-! ## Reading into an index -/

section Reading

variable {σ μ : Type} [Storage σ] [Annotations μ] {source : Source σ μ} {index : VaultIndex}
  {known : Contents}

theorem VaultIndex.Holds.readDocument (h : index.Holds known) (source : Source σ μ) (path : String) :
    (index.readDocument source.vault source.annotations path).Holds
      (known.reread source.contents path) := by
  rw [VaultIndex.readDocument, Contents.reread, Source.contents]
  cases readFacts source.vault source.annotations path with
  | error fault => exact h
  | ok facts => exact h.upsert path facts

theorem VaultIndex.Holds.foldl_readDocument (h : index.Holds known) (source : Source σ μ)
    (paths : List String) :
    (paths.foldl (VaultIndex.readDocument source.vault source.annotations) index).Holds
      (paths.foldl (fun known path => known.reread source.contents path) known) := by
  induction paths generalizing index known with
  | nil => exact h
  | cons path paths ih => exact ih (h.readDocument source path)

theorem VaultIndex.Holds.foldl_addFolder (h : index.Holds known) (folders : List String) :
    (folders.foldl VaultIndex.addFolder index).Holds known := by
  induction folders generalizing index with
  | nil => exact h
  | cons folder folders ih => exact ih (h.addFolder folder)

theorem VaultIndex.snd_apply_changed (vault : σ) (annotations : μ) (index : VaultIndex)
    (path : String) :
    (index.apply vault annotations (.changed path)).2 =
      index.readDocument vault annotations path := by
  rw [VaultIndex.apply, VaultIndex.readDocument]
  cases readFacts vault annotations path with
  | error fault => rfl
  | ok facts => rfl

/-- A worker does to the index what it does to the contents, unless it moves a document onto
another one. -/
theorem VaultIndex.Holds.apply {event : DocumentEvent} (h : index.Holds known) (source : Source σ μ)
    (hfree : ∀ old new, event = .renamed old new → known new = none ∨ new = old) :
    (index.apply source.vault source.annotations event).2.Holds
      (known.apply source.contents event) := by
  cases event with
  | changed path =>
    rw [VaultIndex.snd_apply_changed]
    exact h.readDocument source path
  | renamed old new => exact h.rename (hfree old new rfl)
  | deleted path => exact h.remove path

/-- Loading gives the index of the host's documents. -/
theorem Source.Readable.load (h : source.Readable) :
    ∃ loaded, VaultIndex.load source.vault source.annotations = .ok loaded ∧
      loaded.Holds source.contents := by
  obtain ⟨folders, hfolders⟩ := h.folders
  obtain ⟨documents, hdocuments, hmem⟩ := h.documents
  rw [VaultIndex.load, hfolders, hdocuments]
  refine ⟨_, rfl, ?_⟩
  have hload := (VaultIndex.holds_empty.foldl_addFolder folders).foldl_readDocument source
    documents.toList
  have hcontents : documents.toList.foldl (fun (known : Contents) path => known.reread source.contents path)
      (fun _ => none : Contents) = source.contents := by
    funext path
    rw [Contents.foldl_reread, Option.or_none]
    split
    · rfl
    · next hpath =>
      have hnone := mt (hmem path).2 hpath
      rw [Bool.not_eq_true, Option.isSome_eq_false_iff, Option.isNone_iff_eq_none] at hnone
      exact hnone.symm
  rwa [hcontents] at hload

theorem Source.Readable.documents_eq (h : source.Readable) (hindex : index.Holds source.contents) :
    Storage.documents source.vault = .ok index.documents.toList := by
  obtain ⟨documents, hdocuments, hmem⟩ := h.documents
  have hsame : documents = index.documents := by
    refine NameSet.ext fun path => ?_
    rw [hmem, hindex.mem_documents_iff]
  rw [hdocuments, hsame]

end Reading

/-! ## Vaults in memory -/

namespace MemoryVault

/-- The vault as a host of its own. -/
def source (vault : MemoryVault) : Source MemoryVault MemoryVault := ⟨vault, vault⟩

/-- The vault with a document and its tags and links. -/
def put (vault : MemoryVault) (path text : String) (tags links : List String) : MemoryVault :=
  (vault.insertDocument path text).annotate path tags links

/-- The vault with a document and its tags and links at another path. -/
def relocate (vault : MemoryVault) (old new : String) : MemoryVault :=
  match vault.texts.find? old with
  | none => vault
  | some text =>
    (vault.removeDocument old).2.put new text (Annotations.tags vault old)
      (Annotations.links vault old)

variable {vault : MemoryVault} {path old new text : String}

theorem contents_source (vault : MemoryVault) (path : String) :
    vault.source.contents path = (vault.texts.find? path).map fun text =>
      ⟨Annotations.tags vault path, Annotations.links vault path, DocumentBlock.scan path text⟩ := by
  rw [Source.contents, readFacts]
  simp only [source, Storage.read]
  cases vault.texts.find? path with
  | none => rfl
  | some text => rfl

theorem readable_source (vault : MemoryVault) : vault.source.Readable where
  folders := ⟨vault.allFolders.toList, rfl⟩
  documents := by
    refine ⟨vault.texts.keys, rfl, fun path => ?_⟩
    rw [NameMap.mem_keys, contents_source, Option.isSome_map]

theorem becomes_put (vault : MemoryVault) (path text : String) (tags links : List String) :
    vault.source.contents.Becomes (vault.put path text tags links).source.contents
      (.changed path) := by
  refine ⟨⟨tags, links, DocumentBlock.scan path text⟩, funext fun x => ?_⟩
  rw [contents_source, Function.update_apply]
  by_cases hx : x = path
  · simp [hx, put, insertDocument, annotate, Annotations.tags, Annotations.links]
  · simp [hx, put, insertDocument, annotate, Annotations.tags, Annotations.links, contents_source]

theorem becomes_removeDocument (vault : MemoryVault) (path : String) :
    vault.source.contents.Becomes (vault.removeDocument path).2.source.contents
      (.deleted path) := by
  refine funext fun x => ?_
  rw [contents_source, Function.update_apply]
  by_cases hx : x = path
  · simp [hx, removeDocument]
  · simp [hx, removeDocument, Annotations.tags, Annotations.links, contents_source]

theorem scan_moveTo (old new text : String) :
    (DocumentBlock.scan old text).map (DocumentBlock.moveTo new) = DocumentBlock.scan new text := by
  rw [DocumentBlock.scan, DocumentBlock.scan, List.map_map]
  rfl

/-- A vault that moves text, tags and links of a document moves what is known about it. -/
theorem becomes_relocate (h : vault.texts.contains old = true) (new : String) :
    vault.source.contents.Becomes (vault.relocate old new).source.contents (.renamed old new) := by
  obtain ⟨text, htext⟩ := Option.isSome_iff_exists.1 h
  have hold : vault.source.contents old = some ⟨Annotations.tags vault old,
      Annotations.links vault old, DocumentBlock.scan old text⟩ := by
    rw [contents_source, htext]
    rfl
  refine ⟨hold ▸ rfl, funext fun x => ?_⟩
  rw [contents_source, relocate, htext, Contents.move_apply new x hold]
  by_cases hnew : x = new
  · simp [hnew, put, insertDocument, annotate, Annotations.tags, Annotations.links,
      DocumentFacts.moveTo, scan_moveTo]
  · by_cases hx : x = old
    · simp [hx, hx ▸ hnew, put, insertDocument, annotate, removeDocument]
    · simp [hnew, hx, put, insertDocument, annotate, removeDocument, Annotations.tags,
        Annotations.links, contents_source]

end MemoryVault

end RollCall
