import RollCall.Proofs.Record.Entries
import RollCall.Proofs.Vault.Storage
import RollCall.Vault.Ledger

/-!
# What a write to the ledger does

A successful write puts the spliced text into the storage, and it is read from there afterwards.
-/

namespace RollCall.Ledger

variable {σ : Type} [Storage σ] {vault written : σ} {path : String}

theorem readText_eq_ok {text : String} (h : readText vault path = .ok text) :
    Storage.read vault path = .ok text := by
  rw [readText] at h
  split at h
  · split at h
    · simp at h
    · next found hfound => rw [hfound, Except.ok.inj h]
  · simp at h

theorem holds_of_readText {text : String} (h : readText vault path = .ok text) :
    Storage.holds vault path = true := by
  rw [readText] at h
  split at h
  · next hholds => exact hholds
  · simp at h

theorem readText_of_read {text : String} (hholds : Storage.holds vault path = true)
    (h : Storage.read vault path = .ok text) : readText vault path = .ok text := by
  rw [readText, if_pos hholds]
  simp only [h]

/-- The blocks of a document are those of its text. -/
theorem readBlocks_eq_ok {blocks : List DocumentBlock} (h : readBlocks vault path = .ok blocks) :
    ∃ text, Storage.read vault path = .ok text ∧ blocks = DocumentBlock.scan path text := by
  rw [readBlocks] at h
  split at h
  · simp at h
  · next text htext => exact ⟨text, readText_eq_ok htext, (Except.ok.inj h).symm⟩

/-- A successful write has written the text of the document with the record spliced in. -/
theorem exists_write_of_write {target : Record}
    (h : write vault path target = (.ok (), written)) :
    ∃ before after, readText vault path = .ok before ∧ splice before target = .ok after ∧
      Storage.write vault path after = (.ok (), written) := by
  rw [write] at h
  split at h
  · simp at h
  next after hafter =>
  split at h
  · simp at h
  next later hlater =>
  obtain rfl : later = written := congrArg Prod.snd h
  rw [updatedText] at hafter
  split at hafter
  · simp at hafter
  next before hbefore =>
  split at hafter
  · simp at hafter
  next spliced hspliced =>
  obtain rfl := Except.ok.inj hafter
  exact ⟨before, spliced, hbefore, hspliced, hlater⟩

/-- A successful write splices the record into the text of the document. -/
theorem write_eq_ok [Storage.Lawful σ] {target : Record}
    (h : write vault path target = (.ok (), written)) :
    ∃ before after, Storage.read vault path = .ok before ∧ splice before target = .ok after ∧
      Storage.write vault path after = (.ok (), written) ∧ Storage.read written path = .ok after := by
  obtain ⟨before, after, hbefore, hsplice, hwrite⟩ := exists_write_of_write h
  exact ⟨before, after, readText_eq_ok hbefore, hsplice, hwrite, Storage.Lawful.read_of_write hwrite⟩

theorem setState_eq_ok {target record : Record} {link state note : String}
    (h : setState vault path target link state note = (.ok record, written)) :
    record = target.withState link state note ∧ write vault path record = (.ok (), written) := by
  rw [setState] at h
  split at h
  · simp at h
  next later hlater =>
  simp only [Prod.mk.injEq, Except.ok.injEq] at h
  obtain ⟨rfl, rfl⟩ := h
  exact ⟨rfl, hlater⟩

/-- The entry that was recorded is in the record that was written. -/
theorem find?_of_setState {target record : Record} {link state note : String}
    (h : setState vault path target link state note = (.ok record, written)) :
    record.entries.find? link = some ⟨link, state, note⟩ := by
  rw [(setState_eq_ok h).1]
  exact target.entries.find?_set ⟨link, state, note⟩

/-! ## How recording a state ends -/

section Outcome

variable {target : Record} {link state note text updated : String}

theorem setState_of_unreadable {error : LedgerError} (h : readText vault path = .error error) :
    setState vault path target link state note = (.error error, vault) := by
  simp only [setState, write, updatedText, h]

theorem setState_of_rejected {error : BlockNotFound} (hread : readText vault path = .ok text)
    (hsplice : splice text (target.withState link state note) = .error error) :
    setState vault path target link state note = (.error (.blockNotFound error), vault) := by
  simp only [setState, write, updatedText, hread, hsplice]

theorem setState_of_unwritable {error : StorageError} (hread : readText vault path = .ok text)
    (hsplice : splice text (target.withState link state note) = .ok updated)
    (hwrite : Storage.write vault path updated = (.error error, written)) :
    setState vault path target link state note = (.error (.storage error), written) := by
  simp only [setState, write, updatedText, hread, hsplice, hwrite]

theorem setState_of_written (hread : readText vault path = .ok text)
    (hsplice : splice text (target.withState link state note) = .ok updated)
    (hwrite : Storage.write vault path updated = (.ok (), written)) :
    setState vault path target link state note =
      (.ok (target.withState link state note), written) := by
  simp only [setState, write, updatedText, hread, hsplice, hwrite]

/-- A state that is not recorded has left the storage as it was, or a write has failed. -/
theorem setState_eq_error {error : LedgerError}
    (h : setState vault path target link state note = (.error error, written)) :
    written = vault ∨ ∃ text updated fault, readText vault path = .ok text ∧
      Storage.write vault path updated = (.error fault, written) := by
  cases hread : readText vault path with
  | error fault =>
    rw [setState_of_unreadable hread] at h
    exact .inl (congrArg Prod.snd h).symm
  | ok text =>
  cases hsplice : splice text (target.withState link state note) with
  | error fault =>
    rw [setState_of_rejected hread hsplice] at h
    exact .inl (congrArg Prod.snd h).symm
  | ok updated =>
  cases hwrite : Storage.write vault path updated with
  | mk result later =>
  cases result with
  | error fault =>
    rw [setState_of_unwritable hread hsplice hwrite] at h
    obtain rfl : later = written := congrArg Prod.snd h
    exact .inr ⟨text, updated, fault, rfl, hwrite⟩
  | ok =>
    rw [setState_of_written hread hsplice hwrite] at h
    simp at h

end Outcome

end RollCall.Ledger
