import RollCall.Proofs.Vault.Ledger
import RollCall.Proofs.Vault.Temporary

/-!
# Vaults under a system that may fail

A document of a vault is replaced in two steps, and the system may fail at each of them. A careful
system then leaves everything but a temporary file as it was
(`FolderVault.node?_of_replaceBy_error`), and when both steps succeed nothing but the document has
changed (`FolderVault.node?_of_replaceBy_ok`).
-/

namespace RollCall

namespace FolderVault

/-- Writes a text to the temporary file and lets it take the place of the document, as far as the
system goes. -/
def replaceBy (system : FileSystem) (vault : FolderVault) (path text : String) :
    Except StorageError Unit × FolderVault :=
  let full := vault.fullPath path
  let temporary := temporaryPath full
  match system.write vault.disk temporary text with
  | (.error fault, disk) => (.error (.write path (.disk fault)), { vault with disk := disk })
  | (.ok (), written) =>
    match system.moveFile written temporary full with
    | (.error fault, disk) => (.error (.write path (.disk fault)), { vault with disk := disk })
    | (.ok (), moved) => (.ok (), { vault with disk := moved })

/-- A system that fails only where the disk is at fault replaces documents as described. -/
theorem replaceBy_direct : replaceBy .direct = replace := by
  funext vault path text
  unfold replaceBy replace FileSystem.direct
  extract_lets full temporary
  clear_value temporary full
  cases hwritten : vault.disk.write temporary text with
  | error fault => simp only [hwritten, FileSystem.settle]
  | ok written =>
    simp only [hwritten, FileSystem.settle]
    cases written.moveFile temporary full with
    | error fault => rfl
    | ok moved => rfl

section Careful

variable {system : FileSystem} {vault later : FolderVault} {path text : String}

/-- When a document cannot be replaced, only a temporary file may have changed. -/
theorem node?_of_replaceBy_error (hsystem : system.Careful) {error : StorageError}
    (hdocument : isDocumentPath (vault.fullPath path) = true)
    (h : vault.replaceBy system path text = (.error error, later)) {place : Place}
    (hplace : ¬ IsTemporary place) : later.disk.node? place = vault.disk.node? place := by
  unfold replaceBy at h
  extract_lets full temporary at h
  have hother : vault.disk.place? temporary ≠ some place := fun htemporary =>
    hplace (isTemporary_of_place? hdocument htemporary)
  clear_value temporary full
  split at h
  · next fault disk hwrite =>
    obtain rfl := congrArg Prod.snd h
    exact hsystem.write_error hwrite place hother
  · next written hwrite =>
    split at h
    · next fault disk hmove =>
      obtain rfl := congrArg Prod.snd h
      obtain rfl := hsystem.moveFile_error hmove
      exact FileSystem.node?_of_write (hsystem.write_ok hwrite) hother
    · simp at h

/-- When a document is replaced, it holds the text, and only a temporary file may have changed
besides. -/
theorem node?_of_replaceBy_ok (hsystem : system.Careful)
    (hdocument : isDocumentPath (vault.fullPath path) = true)
    (h : vault.replaceBy system path text = (.ok (), later)) {place : Place} {content : Content}
    (hlocate : vault.disk.locate (vault.fullPath path) = .ok (place, .file content)) :
    later.disk.node? place = some (.file (.text text)) ∧
      ∀ other, other ≠ place → ¬ IsTemporary other →
        later.disk.node? other = vault.disk.node? other := by
  unfold replaceBy at h
  extract_lets full temporary at h
  have hothers : ∀ other, ¬ IsTemporary other → vault.disk.place? temporary ≠ some other :=
    fun other hother htemporary => hother (isTemporary_of_place? hdocument htemporary)
  rw [show vault.fullPath path = full from rfl] at hlocate
  clear_value temporary full
  split at h
  · simp at h
  next written hwrite =>
  split at h
  · simp at h
  next moved hmove =>
  obtain rfl := congrArg Prod.snd h
  obtain ⟨htext, hrest⟩ := Disk.node?_of_write_moveFile (hsystem.write_ok hwrite)
    (hsystem.moveFile_ok hmove) hlocate
  exact ⟨htext, fun other hne hother => hrest other hne (hothers other hother)⟩

end Careful

end FolderVault

/-- A vault in a folder of a disk that a system works on. -/
structure MountedVault (system : FileSystem) where
  /-- The vault. -/
  vault : FolderVault

namespace MountedVault

variable {system : FileSystem}

instance : Storage (MountedVault system) where
  read mounted path :=
    match system.read mounted.vault.disk (mounted.vault.fullPath path) with
    | .error fault => .error (.read path (.disk fault))
    | .ok text => .ok text
  write mounted path text := (mounted.vault.replaceBy system path text).map id mk
  holds mounted path := Storage.holds mounted.vault path
  documents mounted := Storage.documents mounted.vault
  folders mounted := Storage.folders mounted.vault

variable {mounted later : MountedVault system} {path : String}

theorem write_eq_iff {text : String} {result : Except StorageError Unit} :
    Storage.write mounted path text = (result, later) ↔
      mounted.vault.replaceBy system path text = (result, later.vault) := by
  rw [show Storage.write mounted path text =
    (mounted.vault.replaceBy system path text).map id mk from rfl]
  cases mounted.vault.replaceBy system path text with
  | mk found vault => cases later; simp

/-- What is read from a document is in its file. -/
theorem locate_of_readText (hsystem : system.Careful) {text : String}
    (h : Ledger.readText mounted path = .ok text) :
    FolderVault.isDocumentPath (mounted.vault.fullPath path) = true ∧
      ∃ place, mounted.vault.disk.locate (mounted.vault.fullPath path) =
        .ok (place, .file (.text text)) := by
  have hholds := Ledger.holds_of_readText h
  simp only [Storage.holds, Bool.and_eq_true] at hholds
  refine ⟨hholds.1, ?_⟩
  have hread := Ledger.readText_eq_ok h
  simp only [Storage.read] at hread
  generalize mounted.vault.fullPath path = full at hread ⊢
  cases hfound : system.read mounted.vault.disk full with
  | error fault => simp [hfound] at hread
  | ok found =>
  obtain rfl : found = text := by simpa [hfound] using hread
  have hdisk := hsystem.read_ok hfound
  rw [Disk.read] at hdisk
  split at hdisk
  · simp at hdisk
  · simp at hdisk
  · simp at hdisk
  · next place content hlocate => exact ⟨place, by rw [hlocate, Except.ok.inj hdisk]⟩

/-! ## Recording a state -/

variable {target record : Record} {link state note : String}

/-- When a state cannot be recorded, only a temporary file may have changed. -/
theorem node?_of_setState_error (hsystem : system.Careful) {error : LedgerError}
    (h : Ledger.setState mounted path target link state note = (.error error, later))
    {place : Place} (hplace : ¬ FolderVault.IsTemporary place) :
    later.vault.disk.node? place = mounted.vault.disk.node? place := by
  rcases Ledger.setState_eq_error h with rfl | ⟨text, updated, fault, hread, hwrite⟩
  · rfl
  · exact FolderVault.node?_of_replaceBy_error hsystem (locate_of_readText hsystem hread).1
      (write_eq_iff.1 hwrite) hplace

/-- When a state is recorded, the document holds the spliced text, and only a temporary file may
have changed besides. -/
theorem node?_of_setState_ok (hsystem : system.Careful)
    (h : Ledger.setState mounted path target link state note = (.ok record, later)) :
    ∃ place before after, Storage.read mounted path = .ok before ∧
      mounted.vault.disk.locate (mounted.vault.fullPath path) = .ok (place, .file (.text before)) ∧
      splice before (target.withState link state note) = .ok after ∧
      later.vault.disk.node? place = some (.file (.text after)) ∧
      ∀ other, other ≠ place → ¬ FolderVault.IsTemporary other →
        later.vault.disk.node? other = mounted.vault.disk.node? other := by
  obtain ⟨rfl, hwritten⟩ := Ledger.setState_eq_ok h
  obtain ⟨before, after, hread, hsplice, hwrite⟩ := Ledger.exists_write_of_write hwritten
  obtain ⟨hdocument, place, hplace⟩ := locate_of_readText hsystem hread
  obtain ⟨htext, hothers⟩ :=
    FolderVault.node?_of_replaceBy_ok hsystem hdocument (write_eq_iff.1 hwrite) hplace
  exact ⟨place, before, after, Ledger.readText_eq_ok hread, hplace, hsplice, htext, hothers⟩

/-! ## The system that does not fail by itself -/

theorem read_direct (vault : FolderVault) (path : String) :
    Storage.read (⟨vault⟩ : MountedVault .direct) path = Storage.read vault path := by
  cases hread : vault.disk.read (vault.fullPath path) with
  | error fault => simp only [Storage.read, FileSystem.direct, hread]
  | ok text => simp only [Storage.read, FileSystem.direct, hread]

theorem write_direct {vault written : FolderVault} {path text : String}
    {result : Except StorageError Unit} (h : Storage.write vault path text = (result, written)) :
    Storage.write (⟨vault⟩ : MountedVault .direct) path text = (result, ⟨written⟩) := by
  refine write_eq_iff.2 ?_
  rw [FolderVault.replaceBy_direct]
  exact h

theorem readText_direct (vault : FolderVault) (path : String) :
    Ledger.readText (⟨vault⟩ : MountedVault .direct) path = Ledger.readText vault path := by
  rw [Ledger.readText, Ledger.readText, read_direct]
  simp only [Storage.holds]

theorem readBlocks_direct (vault : FolderVault) (path : String) :
    Ledger.readBlocks (⟨vault⟩ : MountedVault .direct) path = Ledger.readBlocks vault path := by
  rw [Ledger.readBlocks, Ledger.readBlocks, readText_direct]

theorem setState_direct (vault : FolderVault) (path : String) (target : Record)
    (link state note : String) :
    Ledger.setState (⟨vault⟩ : MountedVault .direct) path target link state note =
      (Ledger.setState vault path target link state note).map id mk := by
  have hmounted := readText_direct vault path
  cases hread : Ledger.readText vault path with
  | error error =>
    rw [Ledger.setState_of_unreadable hread,
      Ledger.setState_of_unreadable (hmounted.trans hread)]
    rfl
  | ok text =>
  rw [hread] at hmounted
  cases hsplice : splice text (target.withState link state note) with
  | error error =>
    rw [Ledger.setState_of_rejected hread hsplice, Ledger.setState_of_rejected hmounted hsplice]
    rfl
  | ok updated =>
  cases hwrite : Storage.write vault path updated with
  | mk result written =>
  have hdirect := write_direct hwrite
  cases result with
  | error error =>
    rw [Ledger.setState_of_unwritable hread hsplice hwrite,
      Ledger.setState_of_unwritable hmounted hsplice hdirect]
    rfl
  | ok =>
    rw [Ledger.setState_of_written hread hsplice hwrite,
      Ledger.setState_of_written hmounted hsplice hdirect]
    rfl

end MountedVault

end RollCall
