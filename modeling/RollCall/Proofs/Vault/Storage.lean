import RollCall.Proofs.Disk.Access
import RollCall.Vault.Folder
import RollCall.Vault.Memory

/-!
# What a storage keeps

Both kinds of vaults give back the text that was written last. A vault in memory never refuses to
write.
-/

namespace RollCall

/-- A storage that keeps what is written. -/
class Storage.Lawful (σ : Type) [Storage σ] : Prop where
  /-- A document that was written holds the text. -/
  read_of_write : ∀ {vault written : σ} {path text : String},
    Storage.write vault path text = (.ok (), written) → Storage.read written path = .ok text

namespace FolderVault

/-- A successful replacement writes a temporary file and moves it. -/
theorem replace_eq_ok {vault written : FolderVault} {path text : String}
    (h : vault.replace path text = (.ok (), written)) :
    ∃ temporary disk, vault.disk.write temporary text = .ok disk ∧
      disk.moveFile temporary (vault.fullPath path) = .ok written.disk ∧
      written.root = vault.root := by
  unfold replace at h
  extract_lets full temporary at h
  rw [show vault.fullPath path = full from rfl]
  -- which file is the temporary one does not matter
  clear_value temporary full
  cases hdisk : vault.disk.write temporary text with
  | error fault => simp [hdisk] at h
  | ok disk =>
  cases hmoved : disk.moveFile temporary full with
  | error fault => simp [hdisk, hmoved] at h
  | ok moved =>
  simp only [hdisk, hmoved, Prod.mk.injEq, true_and] at h
  subst h
  exact ⟨temporary, disk, hdisk, hmoved, rfl⟩

theorem fullPath_eq {vault other : FolderVault} (h : other.root = vault.root) (path : String) :
    other.fullPath path = vault.fullPath path := by
  rw [fullPath, fullPath, h]

instance : Storage.Lawful FolderVault where
  read_of_write {vault written path text} h := by
    obtain ⟨temporary, disk, hdisk, hmoved, hroot⟩ := replace_eq_ok h
    have hread : written.disk.read (written.fullPath path) = .ok text := by
      rw [fullPath_eq hroot]
      exact Disk.read_of_write_moveFile hdisk hmoved
    simp only [Storage.read, hread]

end FolderVault

instance : Storage.Lawful MemoryVault where
  read_of_write {vault written path text} h := by
    simp only [Storage.write, Prod.mk.injEq, true_and] at h
    subst h
    simp [Storage.read, MemoryVault.insertDocument]

/-- A storage whose documents can be written at any time. -/
class Storage.Writable (σ : Type) [Storage σ] : Prop extends Storage.Lawful σ where
  /-- A document can be written, and is still there afterwards. -/
  exists_write : ∀ {vault : σ} {path : String} (text : String), Storage.holds vault path = true →
    ∃ written, Storage.write vault path text = (.ok (), written) ∧
      Storage.holds written path = true

instance : Storage.Writable MemoryVault where
  exists_write {vault path} text _ := by
    refine ⟨_, rfl, ?_⟩
    simp [Storage.holds, MemoryVault.insertDocument, NameMap.contains]

end RollCall
