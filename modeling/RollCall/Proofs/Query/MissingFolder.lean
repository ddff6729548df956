import RollCall.Index.Basic
import RollCall.Proofs.Names.Suggestion

/-!
# Folders that do not exist

A query for a folder that does not exist is refused, and the refusal names the first of the nearest
known folders (`Lookup.resolve_missing_folder`). Nothing is named when all are too far away, nor when
one of them is the folder in another case.
-/

namespace RollCall.Lookup

/-- A folder that does not exist is reported. With it goes a known folder within three edits, if there
is one and none differs by its case alone, and this is the first of the nearest. -/
theorem resolve_missing_folder (lookup : Lookup) (folder : String)
    (hmissing : lookup.folderExists folder = false) :
    ∃ suggestion, lookup.resolve (.folder folder) = .error (.folderNotFound folder suggestion) ∧
      (suggestion.isSome = true ↔
        (∃ known ∈ lookup.knownFolders, known ≠ "" ∧ ∃ n ≤ 3, NamesApart folder known n) ∧
          ∀ known ∈ lookup.knownFolders, known ≠ "" →
            Text.lowerCase folder ≠ Text.lowerCase known) ∧
      ∀ best, suggestion = some best →
        ∃ n, 0 < n ∧ n ≤ 3 ∧ FirstNearest folder lookup.knownFolders best n := by
  refine ⟨suggest? folder lookup.knownFolders, ?_, isSome_suggest?_iff, fun best hbest => ?_⟩
  · rw [resolve, resolveTerm, resolveFolder, hmissing]
    rfl
  · obtain ⟨hnearest, hpositive, hnear⟩ := firstNearest_of_suggest? hbest
    exact ⟨_, hpositive, hnear, hnearest⟩

/-- Two folders are one edit away whatever their case; the one that comes first is named. -/
theorem resolve_missing_folder_choir :
    let index := ((∅ : VaultIndex).addFolder "Chair/").upsert "choir/ann.md" ⟨[], [], []⟩
    index.folderExists "chir" = false ∧
      index.resolve (.folder "chir") = .error (.folderNotFound "chir" (some "Chair")) ∧
      ∃ n, 0 < n ∧ n ≤ 3 ∧ FirstNearest "chir" index.knownFolders.toList "Chair" n := by
  intro index
  have hmissing : index.folderExists "chir" = false := by decide +kernel
  have hnamed : index.resolve (.folder "chir") =
      .error (.folderNotFound "chir" (some "Chair")) := by decide +kernel
  obtain ⟨suggestion, hresolve, -, hbest⟩ := resolve_missing_folder index.lookup "chir" hmissing
  have hsuggestion : suggestion = some "Chair" := by
    have hsame := hresolve.symm.trans hnamed
    simpa using hsame
  exact ⟨hmissing, hnamed, hbest "Chair" hsuggestion⟩

/-- A folder that is known in another case is within three edits, but is not named. -/
theorem resolve_folder_in_other_case :
    let index := (∅ : VaultIndex).upsert "people/ann.md" ⟨[], [], []⟩
    index.folderExists "People" = false ∧
      (∃ known ∈ index.knownFolders.toList, known ≠ "" ∧ ∃ n ≤ 3, NamesApart "People" known n) ∧
      index.resolve (.folder "People") = .error (.folderNotFound "People" none) := by
  intro index
  have hdistance : nameDistance "People" "people" = 0 := by decide +kernel
  have hapart := namesApart_nameDistance "People" "people"
  rw [hdistance] at hapart
  exact ⟨by decide +kernel, ⟨"people", by decide +kernel, by decide, 0, by decide, hapart⟩,
    by decide +kernel⟩

end RollCall.Lookup
