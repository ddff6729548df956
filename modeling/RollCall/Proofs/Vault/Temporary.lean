import RollCall.Proofs.Disk.FileSystem
import RollCall.Proofs.Text.Line
import RollCall.Vault.Folder

/-!
# Temporary files

A document is written first to a file whose name ends in `.md.tmp`
(`FolderVault.isTemporary_of_place?`). No such file is a document, wherever the vault lies
(`FolderVault.not_isTemporary_of_isDocumentPath`).
-/

namespace RollCall

/-! ## The end of a written path -/

namespace Route

theorem exists_parts {path : String} {front ending : List Char}
    (hpath : path.toList = front ++ ending) (hslash : '/' ∉ ending) (hne : ending ≠ []) :
    ∃ steps last, parts path = steps ++ [String.ofList (last ++ ending)] := by
  obtain ⟨pieces, last, hsplit⟩ := Text.exists_split_append hslash front
  refine ⟨(pieces.filter (· ≠ [])).map String.ofList, last, ?_⟩
  rw [parts, hpath, hsplit, List.filter_append, List.map_append]
  simp [hne]

theorem exists_withExtension {extension path : String} {name : List Char}
    (h : fileName? path = some name) :
    ∃ front, (withExtension extension path).toList = front ++ '.' :: extension.toList := by
  simp only [withExtension, h, String.toList_ofList]
  exact ⟨_, rfl⟩

end Route

namespace FolderVault

/-- How the names of temporary files end. -/
def temporaryEnding : List Char := ['.', 'm', 'd', '.', 't', 'm', 'p']

/-- The place of a temporary file. -/
def IsTemporary (place : Place) : Prop :=
  ∃ folder name, place = folder ++ [name] ∧ temporaryEnding <:+ name.toList

theorem extension?_of_temporaryEnding {path : String} (h : temporaryEnding <:+ path.toList) :
    Route.extension? path = some ['t', 'm', 'p'] := by
  obtain ⟨front, hfront⟩ := h
  have hreverse : path.toList.reverse = temporaryEnding.reverse ++ front.reverse := by
    rw [← hfront, List.reverse_append]
  have htrimmed : Route.trimmed path = path.toList := by
    rw [Route.trimmed, hreverse]
    simp [temporaryEnding, Route.dropIdleSteps, ← hfront]
  have hname : Path.lastPart path.toList = Path.lastPart front ++ temporaryEnding := by
    rw [Path.lastPart, hreverse]
    simp [temporaryEnding, Path.lastPart]
  have hlong : ∀ short : List Char, short.length < 3 →
      Path.lastPart front ++ temporaryEnding ≠ short := by
    intro short hshort heq
    rw [← heq, List.length_append] at hshort
    exact absurd hshort (by simp [temporaryEnding])
  have hfile : Route.fileName? path = some (Path.lastPart front ++ temporaryEnding) := by
    simp only [Route.fileName?, htrimmed, hname]
    rw [if_neg]
    rintro (h | h | h) <;> exact hlong _ (by decide) h
  rw [Route.extension?, hfile, Option.bind_some, Route.splitExtension]
  simp [temporaryEnding]

/-- The temporary file of a document is a temporary file. -/
theorem isTemporary_of_place? {disk : Disk} {path : String} {place : Place}
    (hdocument : isDocumentPath path = true)
    (h : disk.place? (temporaryPath path) = some place) : IsTemporary place := by
  rw [isDocumentPath, decide_eq_true_eq, Route.extension?, Option.bind_eq_some_iff] at hdocument
  obtain ⟨file, hfile, -⟩ := hdocument
  obtain ⟨front, hfront⟩ : ∃ front, (temporaryPath path).toList = front ++ temporaryEnding :=
    Route.exists_withExtension hfile
  obtain ⟨steps, last, hparts⟩ := Route.exists_parts hfront (by decide) (by decide)
  rw [Disk.place?] at h
  split at h
  · next folder name closed hslot =>
    obtain ⟨route, before, hroute, hsteps, -⟩ := Disk.slot_eq_ok_iff.1 hslot
    rw [Disk.steps_of_route? hroute, hparts] at hsteps
    obtain ⟨-, hname⟩ := List.append_inj' hsteps rfl
    refine ⟨folder, name, (Option.some.inj h).symm, ?_⟩
    rw [← (List.cons.inj hname).1, String.toList_ofList]
    exact List.suffix_append last temporaryEnding
  · cases h

/-- No temporary file is named like a document, seen from any folder. -/
theorem not_isTemporary_of_isDocumentPath {root place : Place}
    (h : isDocumentPath (relativePath place) = true) : ¬ IsTemporary (root ++ place) := by
  rintro ⟨folder, name, hplace, hending⟩
  rcases List.eq_nil_or_concat' place with hnil | ⟨within, last, hlast⟩
  · subst hnil
    exact absurd h (by decide)
  · subst hlast
    rw [← List.append_assoc] at hplace
    obtain ⟨-, hname⟩ := List.append_inj' hplace rfl
    obtain ⟨front, hfront⟩ :=
      Text.exists_join_concat '/' (within.map String.toList) last.toList
    have hpath : temporaryEnding <:+ (relativePath (within ++ [last])).toList := by
      rw [relativePath, String.toList_ofList, List.map_append, List.map_singleton, hfront,
        (List.cons.inj hname).1]
      exact hending.trans (List.suffix_append front name.toList)
    rw [isDocumentPath, extension?_of_temporaryEnding hpath] at h
    exact absurd h (by decide)

end FolderVault

end RollCall
