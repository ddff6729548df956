import RollCall.Command.Run
import RollCall.Proofs.Vault.Mounted
import Mathlib.Data.Set.Insert

/-!
# Recording a state, or nothing

Whatever goes wrong when a state is recorded, be it with the configuration, the selection or the
disk itself, all documents stay as they are; and if nothing does, one document has the new text and
the others stay as they are (`Invocation.runOn_recordState`). The system under the vault may fail at
any step, but is taken to be careful: what fails may leave a temporary file behind.
-/

namespace RollCall

/-- All documents are the same on both disks, whichever folder the vault is, apart from those at
some places. -/
def Disk.KeepsDocuments (changed : Set Place) (disk later : Disk) : Prop :=
  ∀ root place, FolderVault.isDocumentPath (FolderVault.relativePath place) = true →
    root ++ place ∉ changed → later.node? (root ++ place) = disk.node? (root ++ place)

theorem Disk.keepsDocuments_self (changed : Set Place) (disk : Disk) :
    disk.KeepsDocuments changed disk :=
  fun _ _ _ _ => rfl

/-- Documents are kept by what keeps everything but temporary files. -/
theorem Disk.keepsDocuments_of_node? {changed : Set Place} {disk later : Disk}
    (h : ∀ place, place ∉ changed → ¬ FolderVault.IsTemporary place →
      later.node? place = disk.node? place) : disk.KeepsDocuments changed later :=
  fun _ _ hdocument hplace => h _ hplace (FolderVault.not_isTemporary_of_isDocumentPath hdocument)

/-! ## In an opened vault -/

namespace Workspace

/-- The record of a document that a selection names, as far as the system goes. -/
def pickOn (system : FileSystem) (workspace : Workspace) (path : String) (selection : Selection) :
    Except CommandError Record :=
  match Ledger.readBlocks (⟨workspace.vault⟩ : MountedVault system) path with
  | .error error => .error (.ledger error)
  | .ok blocks => (selection.pick path blocks).mapError .selection

theorem pickOn_direct : pickOn .direct = pick := by
  funext workspace path selection
  unfold pickOn pick readBlocks
  simp only [MountedVault.readBlocks_direct]
  cases Ledger.readBlocks workspace.vault path with
  | error error => rfl
  | ok blocks => rfl

theorem pickOn_eq_ok {system : FileSystem} {workspace : Workspace} {path : String}
    {selection : Selection} {target : Record}
    (h : workspace.pickOn system path selection = .ok target) :
    ∃ text, Storage.read (⟨workspace.vault⟩ : MountedVault system) path = .ok text ∧
      selection.pick path (DocumentBlock.scan path text) = .ok target := by
  unfold pickOn at h
  cases hblocks : Ledger.readBlocks (⟨workspace.vault⟩ : MountedVault system) path with
  | error error => simp [hblocks] at h
  | ok blocks =>
  simp only [hblocks] at h
  obtain ⟨text, htext, rfl⟩ := Ledger.readBlocks_eq_ok hblocks
  cases hpick : selection.pick path (DocumentBlock.scan path text) with
  | error error => simp [hpick, Except.mapError] at h
  | ok found =>
    obtain rfl : found = target := by simpa [hpick, Except.mapError] using h
    exact ⟨text, htext, hpick⟩

/-- Records the state of an attendee in the block that a selection names, as far as the system
goes. -/
def recordStateOn (system : FileSystem) (workspace : Workspace) (path attendee : String)
    (change : StateChange) (note : String) (selection : Selection) :
    Except CommandError Report × Disk :=
  let path := Path.ofArgument path
  let attendee := Path.ofArgument attendee
  match workspace.stateKey change with
  | .error error => (.error error, workspace.disk)
  | .ok state =>
    match workspace.pickOn system path selection with
    | .error error => (.error error, workspace.disk)
    | .ok target =>
      match Ledger.setState (⟨workspace.vault⟩ : MountedVault system) path target attendee state
          note with
      | (.error error, mounted) => (.error (.ledger error), mounted.vault.disk)
      | (.ok record, mounted) =>
        match record.entries.find? attendee with
        | none => (.error (.notRecorded attendee), mounted.vault.disk)
        | some entry =>
          (.ok (.ofRecorded workspace.config.states path record entry), mounted.vault.disk)

theorem recordStateOn_direct : recordStateOn .direct = recordState := by
  funext workspace path attendee change note selection
  unfold recordStateOn recordState
  extract_lets document link
  clear_value document link
  simp only [pickOn_direct]
  cases workspace.stateKey change with
  | error error => rfl
  | ok key =>
  cases workspace.pick document selection with
  | error error => rfl
  | ok target =>
  dsimp only
  rw [MountedVault.setState_direct]
  cases Ledger.setState workspace.vault document target link key note with
  | mk result written =>
  cases result with
  | error error => rfl
  | ok record => rfl

section Careful

variable {system : FileSystem} {workspace : Workspace} {path attendee note : String}
  {change : StateChange} {selection : Selection} {later : Disk}
  {result : Except CommandError Report}

/-- A state is recorded by one write to the ledger, unless the command fails before. The command
succeeds exactly if this write does. -/
theorem recordStateOn_cases
    (h : workspace.recordStateOn system path attendee change note selection = (result, later)) :
    (∃ error, result = .error error) ∧ later = workspace.disk ∨
      ∃ key target recorded mounted, workspace.stateKey change = .ok key ∧
        workspace.pickOn system (Path.ofArgument path) selection = .ok target ∧
        Ledger.setState (⟨workspace.vault⟩ : MountedVault system) (Path.ofArgument path) target
          (Path.ofArgument attendee) key note = (recorded, mounted) ∧
        later = mounted.vault.disk ∧ recorded.isOk = result.isOk := by
  unfold recordStateOn at h
  extract_lets document link at h
  rw [show Path.ofArgument path = document from rfl, show Path.ofArgument attendee = link from rfl]
  clear_value document link
  cases hkey : workspace.stateKey change with
  | error error =>
    simp only [hkey, Prod.mk.injEq] at h
    exact .inl ⟨⟨error, h.1.symm⟩, h.2.symm⟩
  | ok key =>
  cases htarget : workspace.pickOn system document selection with
  | error error =>
    simp only [hkey, htarget, Prod.mk.injEq] at h
    exact .inl ⟨⟨error, h.1.symm⟩, h.2.symm⟩
  | ok target =>
  simp only [hkey, htarget] at h
  cases hset : Ledger.setState (⟨workspace.vault⟩ : MountedVault system) document target link key
      note with
  | mk recorded mounted =>
  refine .inr ⟨key, target, recorded, mounted, rfl, rfl, hset, ?_⟩
  cases recorded with
  | error error =>
    simp only [hset, Prod.mk.injEq] at h
    exact ⟨h.2.symm, by rw [← h.1]; rfl⟩
  | ok record =>
    -- the entry has just been recorded, so that it is found
    simp only [hset, Ledger.find?_of_setState hset, Prod.mk.injEq] at h
    exact ⟨h.2.symm, by rw [← h.1]; rfl⟩

/-- A state that cannot be recorded leaves all documents as they are. -/
theorem keepsDocuments_of_recordStateOn_error (hsystem : system.Careful) {error : CommandError}
    (h : workspace.recordStateOn system path attendee change note selection =
      (.error error, later)) : workspace.disk.KeepsDocuments ∅ later := by
  rcases recordStateOn_cases h with
    ⟨-, rfl⟩ | ⟨key, target, recorded, mounted, -, -, hset, rfl, hok⟩
  · exact Disk.keepsDocuments_self ∅ _
  · cases recorded with
    | error fault =>
      exact Disk.keepsDocuments_of_node? fun place _ hplace =>
        MountedVault.node?_of_setState_error hsystem hset hplace
    | ok record => cases hok

/-- A state that is recorded is spliced into one document, and the others stay as they are. -/
theorem exists_splice_of_recordStateOn (hsystem : system.Careful) {report : Report}
    (h : workspace.recordStateOn system path attendee change note selection = (.ok report, later)) :
    ∃ key place before target after, workspace.stateKey change = .ok key ∧
      workspace.disk.locate (workspace.vault.fullPath (Path.ofArgument path)) =
        .ok (place, .file (.text before)) ∧
      selection.pick (Path.ofArgument path) (DocumentBlock.scan (Path.ofArgument path) before) =
        .ok target ∧
      splice before (target.withState (Path.ofArgument attendee) key note) = .ok after ∧
      later.node? place = some (.file (.text after)) ∧
      workspace.disk.KeepsDocuments {place} later := by
  rcases recordStateOn_cases h with
    ⟨⟨error, herror⟩, -⟩ | ⟨key, target, recorded, mounted, hkey, htarget, hset, rfl, hok⟩
  · cases herror
  cases recorded with
  | error fault => cases hok
  | ok record =>
  obtain ⟨place, before, after, hread, hplace, hsplice, htext, hothers⟩ :=
    MountedVault.node?_of_setState_ok hsystem hset
  obtain ⟨text, hpicked, hpick⟩ := pickOn_eq_ok htarget
  obtain rfl : text = before := Except.ok.inj (hpicked.symm.trans hread)
  exact ⟨key, place, text, target, after, hkey, hplace, hpick, hsplice, htext,
    Disk.keepsDocuments_of_node? fun other hne hother => hothers other hne hother⟩

end Careful

theorem disk_of_ofConfig {path? : Option String} {config : Config} {disk : Disk}
    {workspace : Workspace} (h : ofConfig path? config disk = .ok workspace) :
    workspace.disk = disk := by
  rw [ofConfig] at h
  split at h
  · simp at h
  split at h
  · split at h
    · simp at h
    · rw [← Except.ok.inj h]
      rfl
  · simp at h

end Workspace

/-! ## From the command line -/

namespace Invocation

/-- Runs a command on a disk, where a state is recorded as far as the system goes. -/
def runOn (system : FileSystem) (environment : Environment) (invocation : Invocation)
    (disk : Disk) : Except CommandError String × Disk :=
  match invocation.command with
  | .recordState path attendee change note selection =>
    let config := Config.ofUser environment disk
    let display := invocation.display environment (config.toOption.bind Config.colors?)
    match config with
    | .error error => (.error (.config error), disk)
    | .ok config =>
      match Workspace.ofConfig invocation.vault? config disk with
      | .error error => (.error error, disk)
      | .ok workspace =>
        let (report, disk) := workspace.recordStateOn system path attendee change note selection
        (report.map (Report.shown · display), disk)
  | _ => invocation.run environment disk

/-- The program runs on the system that fails only where the disk is at fault. -/
theorem runOn_direct : runOn .direct = run := by
  funext environment invocation disk
  rw [runOn]
  split
  · next path attendee change note selection hcommand =>
    unfold run
    extract_lets config display
    clear_value display
    rw [hcommand]
    cases config with
    | error error => rfl
    | ok config =>
    dsimp only
    cases Workspace.ofConfig invocation.vault? config disk with
    | error error => rfl
    | ok workspace =>
      rw [Workspace.recordStateOn_direct]
      rfl
  · rfl

section Careful

variable {system : FileSystem} {environment : Environment} {invocation : Invocation}
  {disk later : Disk} {path attendee note : String} {change : StateChange} {selection : Selection}
  {result : Except CommandError String}

/-- A command that records a state fails before it has changed anything, or opens a vault and
records the state there. -/
theorem runOn_recordState_cases
    (hcommand : invocation.command = .recordState path attendee change note selection)
    (h : invocation.runOn system environment disk = (result, later)) :
    (∃ error, result = .error error) ∧ later = disk ∨
      ∃ config workspace report shown, Config.ofUser environment disk = .ok config ∧
        Workspace.ofConfig invocation.vault? config disk = .ok workspace ∧
        workspace.recordStateOn system path attendee change note selection = (report, later) ∧
        result = report.map shown := by
  rw [runOn, hcommand] at h
  dsimp only at h
  cases hconfig : Config.ofUser environment disk with
  | error error =>
    simp only [hconfig, Prod.mk.injEq] at h
    exact .inl ⟨⟨_, h.1.symm⟩, h.2.symm⟩
  | ok config =>
  cases hworkspace : Workspace.ofConfig invocation.vault? config disk with
  | error error =>
    simp only [hconfig, hworkspace, Prod.mk.injEq] at h
    exact .inl ⟨⟨_, h.1.symm⟩, h.2.symm⟩
  | ok workspace =>
  simp only [hconfig, hworkspace] at h
  cases hreport : workspace.recordStateOn system path attendee change note selection with
  | mk report written =>
  simp only [hreport, Prod.mk.injEq] at h
  obtain ⟨rfl, rfl⟩ := h
  exact .inr ⟨config, workspace, report, _, rfl, hworkspace, hreport, rfl⟩

/-- A command that records a state on a careful system and fails, for whatever reason, leaves all
documents as they are. If it succeeds, the document at its path holds the old text with the state
spliced in, and all others are as they were. -/
theorem runOn_recordState (hsystem : system.Careful)
    (hcommand : invocation.command = .recordState path attendee change note selection)
    (h : invocation.runOn system environment disk = (result, later)) :
    (∀ error, result = .error error → disk.KeepsDocuments ∅ later) ∧
    (∀ output, result = .ok output →
      ∃ config workspace key place before target after,
        Config.ofUser environment disk = .ok config ∧
        Workspace.ofConfig invocation.vault? config disk = .ok workspace ∧
        workspace.stateKey change = .ok key ∧
        disk.locate (workspace.vault.fullPath (Path.ofArgument path)) =
          .ok (place, .file (.text before)) ∧
        selection.pick (Path.ofArgument path) (DocumentBlock.scan (Path.ofArgument path) before) =
          .ok target ∧
        splice before (target.withState (Path.ofArgument attendee) key note) = .ok after ∧
        later.node? place = some (.file (.text after)) ∧
        disk.KeepsDocuments {place} later) := by
  rcases runOn_recordState_cases hcommand h with
    ⟨⟨error, rfl⟩, rfl⟩ | ⟨config, workspace, report, shown, hconfig, hworkspace, hrecord, rfl⟩
  · refine ⟨fun _ _ => Disk.keepsDocuments_self ∅ _, fun output hok => ?_⟩
    cases hok
  have hdisk := Workspace.disk_of_ofConfig hworkspace
  cases report with
  | error error =>
    refine ⟨fun _ _ => ?_, fun output hok => ?_⟩
    · rw [← hdisk]
      exact Workspace.keepsDocuments_of_recordStateOn_error hsystem hrecord
    · cases hok
  | ok report =>
    refine ⟨fun error herror => ?_, fun _ _ => ?_⟩
    · cases herror
    · obtain ⟨key, place, before, target, after, hkey, hrest⟩ :=
        Workspace.exists_splice_of_recordStateOn hsystem hrecord
      rw [hdisk] at hrest
      exact ⟨config, workspace, key, place, before, target, after, hconfig, hworkspace, hkey, hrest⟩

end Careful

/-- On a disk without room for the text the command fails, and leaves the temporary file behind.
With room for it the document is changed, and no other one. -/
theorem runOn_recordState_full :
    let environment : Environment := ⟨some "/attend.toml", none, none, none, true, .ofSeconds 0⟩
    let invocation : Invocation := ⟨false, false, true, some "/v",
      .recordState "d" "ann" .clear "ill" ⟨none, some "Choir"⟩⟩
    let before := "\n```attendance\ndate: 2024-01-05\ntitle: Choir\nquery: #alto\n"
    let disk : Disk := ⟨[(["v"], .folder), (["v", "d.md"], .file (.text (before ++ "```\n"))),
      (["v", "e.md"], .file (.bytes [255]))], []⟩
    (∃ error later, invocation.runOn .full environment disk = (.error error, later) ∧
      later.node? ["v", "d.md.tmp"] = some (.file (.text "")) ∧ disk.KeepsDocuments ∅ later) ∧
    ∃ output later place, invocation.run environment disk = (.ok output, later) ∧
      later.node? ["v", "d.md"] =
        some (.file (.text (before ++ "- [[ann.md]], \"\", \"ill\"\n```\n"))) ∧
      disk.KeepsDocuments {place} later := by
  intro environment invocation before disk
  let emptied : Disk := ⟨(["v", "d.md.tmp"], .file (.text "")) :: disk.nodes, []⟩
  let written : Disk := ⟨[
    (["v", "d.md"], .file (.text (before ++ "- [[ann.md]], \"\", \"ill\"\n```\n"))),
    (["v"], .folder), (["v", "e.md"], .file (.bytes [255]))], []⟩
  have hfull : invocation.runOn .full environment disk =
      (.error (.ledger (.storage (.write "d.md" (.disk (.system .busy))))), emptied) := by
    decide +kernel
  have hrun : invocation.run environment disk =
      (.ok "ann is - at Choir (2024-01-05)\n", written) := by
    decide +kernel
  have hdirect := hrun
  rw [← runOn_direct] at hdirect
  obtain ⟨hkept, -⟩ := runOn_recordState FileSystem.careful_full rfl hfull
  obtain ⟨-, hchanged⟩ := runOn_recordState FileSystem.careful_direct rfl hdirect
  obtain ⟨-, -, -, place, -, -, -, -, -, -, -, -, -, -, hothers⟩ := hchanged _ rfl
  exact ⟨⟨_, emptied, hfull, rfl, hkept _ rfl⟩, _, written, place, hrun, rfl, hothers⟩

end Invocation

end RollCall
