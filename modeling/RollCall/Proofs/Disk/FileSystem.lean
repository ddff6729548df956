import RollCall.Proofs.Disk.Access

/-!
# Systems that may fail

An operating system reads, writes and moves files, and may fail where the disk alone gives no reason
to. A careful one does not let a failure spread: a move that fails changes nothing, and a write that
fails changes nothing but its file (`FileSystem.Careful`). All this is about disks without links: on
a disk with hard or symbolic ones a write could change the file of another place.
-/

namespace RollCall

/-- What an operating system does to a disk. A disk is left behind even by what fails. -/
structure FileSystem where
  /-- Reads the text of a file. -/
  read : Disk → String → Except DiskFault String
  /-- Writes a text into a file, which is made if it is not there. -/
  write : Disk → String → String → Except DiskFault Unit × Disk
  /-- Moves a file to another path, in the stead of a file that is there. -/
  moveFile : Disk → String → String → Except DiskFault Unit × Disk

/-- The place of the file that a path stands for, whether it is there or not. -/
def Disk.place? (disk : Disk) (path : String) : Option Place :=
  match disk.slot path with
  | .ok ⟨folder, some name, _⟩ => some (folder ++ [name])
  | _ => none

namespace FileSystem

/-- The system does what it should, or fails without damage to anything else. As its disks have no
hard or symbolic links, a file is touched at its own place and at no other. -/
structure Careful (system : FileSystem) : Prop where
  /-- What is read is in the file. -/
  read_ok : ∀ {disk path text}, system.read disk path = .ok text → disk.read path = .ok text
  /-- A write that succeeds has written the text. -/
  write_ok : ∀ {disk later path text}, system.write disk path text = (.ok (), later) →
    disk.write path text = .ok later
  /-- A write that fails has touched its file at most. -/
  write_error : ∀ {disk later path text fault},
    system.write disk path text = (.error fault, later) →
    ∀ place, disk.place? path ≠ some place → later.node? place = disk.node? place
  /-- A move that succeeds has moved the file. -/
  moveFile_ok : ∀ {disk later source target}, system.moveFile disk source target = (.ok (), later) →
    disk.moveFile source target = .ok later
  /-- A move that fails has changed nothing. -/
  moveFile_error : ∀ {disk later source target fault},
    system.moveFile disk source target = (.error fault, later) → later = disk

/-- The disk after an operation that leaves it as it was when it fails. -/
def settle (disk : Disk) : Except DiskFault Disk → Except DiskFault Unit × Disk
  | .error fault => (.error fault, disk)
  | .ok later => (.ok (), later)

theorem settle_eq_ok_iff {disk later : Disk} {result : Except DiskFault Disk} :
    settle disk result = (.ok (), later) ↔ result = .ok later := by
  cases result <;> simp [settle]

theorem eq_of_settle_eq_error {disk later : Disk} {result : Except DiskFault Disk}
    {fault : DiskFault} (h : settle disk result = (.error fault, later)) : later = disk := by
  cases result with
  | error found => exact (congrArg Prod.snd h).symm
  | ok found => simp [settle] at h

/-- The system that fails only where the disk is at fault. -/
def direct : FileSystem where
  read := Disk.read
  write disk path text := settle disk (disk.write path text)
  moveFile disk source target := settle disk (disk.moveFile source target)

theorem careful_direct : direct.Careful where
  read_ok h := h
  write_ok := settle_eq_ok_iff.1
  write_error h _ _ := by rw [eq_of_settle_eq_error h]
  moveFile_ok := settle_eq_ok_iff.1
  moveFile_error := eq_of_settle_eq_error

/-- A successful write leaves everything but its file as it was. -/
theorem node?_of_write {disk written : Disk} {path text : String}
    (h : disk.write path text = .ok written) {place : Place}
    (hplace : disk.place? path ≠ some place) : written.node? place = disk.node? place := by
  obtain ⟨folder, name, hslot, -, -, rfl⟩ := Disk.store_eq_ok h
  have hne : place ≠ folder ++ [name] := by
    rintro rfl
    exact hplace (by rw [Disk.place?, hslot])
  rw [Disk.node?_put (by simp), if_neg hne]

/-- The system of a disk without room: a file can be made, but nothing can be written into it. -/
def full : FileSystem :=
  { direct with
    write := fun disk path _ =>
      (.error (.system .busy), (settle disk (disk.write path "")).2) }

theorem careful_full : full.Careful :=
  { careful_direct with
    write_ok := fun h => by simp [full] at h
    write_error := fun {disk later path text fault} h place hplace => by
      obtain rfl : (settle disk (disk.write path "")).2 = later := congrArg Prod.snd h
      cases hwritten : disk.write path "" with
      | error fault => rfl
      | ok written => exact node?_of_write hwritten hplace }

end FileSystem

namespace Disk

/-! ## A file that is written and moved -/

/-- The path of a file still ends at the file when more folders are there. -/
theorem FoldersStay.place_of_locate {disk later : Disk} (h : FoldersStay disk later)
    {path name : String} {place folder : Place} {content : Content} {closed : Bool}
    (hlocate : disk.locate path = .ok (place, .file content))
    (hslot : later.slot path = .ok ⟨folder, some name, closed⟩) : place = folder ++ [name] := by
  obtain ⟨hleads, -⟩ := locate_eq_ok_iff.1 hlocate
  obtain ⟨route, steps, hroute, hsteps, hfolder, -, hdot, hup, -⟩ := slot_eq_ok_iff.1 hslot
  obtain ⟨-, -, -, rfl⟩ := route?_eq_ok_iff.1 hroute
  have hparts : Route.parts path = steps ++ [name] := hsteps
  have hstart : later.start (Route.ofText path) = disk.start (Route.ofText path) := by
    rw [start, start, h.current_eq]
  have hplace : later.follow folder [name] = .ok place := by
    rw [← follow_append hfolder, ← hparts, hstart]
    exact h.follow_eq hleads.follow_eq
  have hstep := (follow_cons_eq_ok_iff.1 hplace).2
  rw [if_neg hdot, if_neg hup] at hstep
  split at hstep
  · simp at hstep
  · exact (Except.ok.inj hstep).symm

/-- What is on a disk after a text has been written to one path and moved to the file at another. -/
theorem node?_of_write_moveFile {disk written moved : Disk} {temporary path text : String}
    {place : Place} {content : Content} (hwrite : disk.write temporary text = .ok written)
    (hmove : written.moveFile temporary path = .ok moved)
    (hlocate : disk.locate path = .ok (place, .file content)) :
    moved.node? place = some (.file (.text text)) ∧
      ∀ other, other ≠ place → disk.place? temporary ≠ some other →
        moved.node? other = disk.node? other := by
  obtain ⟨folder, name, hslot, -, hfree, rfl⟩ := store_eq_ok hwrite
  obtain ⟨oldFolder, oldName, newFolder, newName, found, hold, hnew, hfound, -, -, rfl⟩ :=
    moveFile_eq_ok hmove
  have hstay := foldersStay_put (by simp) hfree (.text text)
  -- the path of the temporary file still leads to the place that was written
  obtain ⟨rfl, rfl⟩ : folder = oldFolder ∧ name = oldName := by
    have := (hstay.slot_eq hslot).symm.trans hold
    simpa using this
  obtain rfl : found = .text text := by
    rw [node?_put (by simp), if_pos rfl] at hfound
    simpa using hfound.symm
  obtain rfl : place = newFolder ++ [newName] := hstay.place_of_locate hlocate hnew
  refine ⟨by rw [node?_put (by simp), if_pos rfl], fun other hne htemporary => ?_⟩
  have hother : other ≠ folder ++ [name] := by
    rintro rfl
    exact htemporary (by rw [place?, hslot])
  rw [node?_put (by simp), if_neg hne, node?_erase (by simp), if_neg hother, node?_put (by simp),
    if_neg hother]

end Disk

end RollCall
