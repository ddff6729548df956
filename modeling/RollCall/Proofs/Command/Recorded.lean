import RollCall.Proofs.Command.AllOrNothing
import RollCall.Proofs.Record.Roster

/-!
# What has been recorded

The roster behind a record never loses an entry and never lists an attendee twice
(`Roster.agrees_throughout`). A command that records a state looks its entry up in the record it has
just written, and always finds it.
-/

namespace RollCall

/-! ## The entry that was recorded is found -/

/-- The failures of a command that records a state. That the entry is missing in the end is none of
them. -/
inductive CommandError.OfRecording : CommandError → Prop
  | config (error : ConfigError) : OfRecording (.config error)
  | vault (error : StorageError) : OfRecording (.vault error)
  | unknownState (error : UnknownState) : OfRecording (.unknownState error)
  | selection (error : SelectionError) : OfRecording (.selection error)
  | ledger (error : LedgerError) : OfRecording (.ledger error)

section Command

variable {system : FileSystem} {environment : Environment} {invocation : Invocation}
  {workspace : Workspace} {path attendee note : String} {change : StateChange}
  {selection : Selection} {disk : Disk} {error : CommandError}

theorem Workspace.ofRecording_of_ofConfig {path? : Option String} {config : Config}
    (h : ofConfig path? config disk = .error error) : error.OfRecording := by
  unfold ofConfig at h
  split at h
  · rw [← Except.error.inj h]
    exact .config _
  split at h
  · split at h
    · rw [← Except.error.inj h]
      exact .vault _
    · cases h
  · rw [← Except.error.inj h]
    exact .config _

theorem Workspace.ofRecording_of_stateKey (h : workspace.stateKey change = .error error) :
    error.OfRecording := by
  cases change with
  | clear => cases h
  | toState name =>
    unfold stateKey at h
    cases hnamed : AttendanceState.named workspace.config.states name with
    | error unknown =>
      simp only [hnamed, Except.error.injEq] at h
      rw [← h]
      exact .unknownState unknown
    | ok state => simp [hnamed] at h

theorem Workspace.ofRecording_of_pickOn
    (h : workspace.pickOn system path selection = .error error) : error.OfRecording := by
  unfold pickOn at h
  cases hblocks : Ledger.readBlocks (⟨workspace.vault⟩ : MountedVault system) path with
  | error fault =>
    simp only [hblocks, Except.error.injEq] at h
    rw [← h]
    exact .ledger fault
  | ok blocks =>
    simp only [hblocks] at h
    cases hpick : selection.pick path blocks with
    | error fault =>
      simp only [hpick, Except.mapError, Except.error.injEq] at h
      rw [← h]
      exact .selection fault
    | ok target => simp [hpick, Except.mapError] at h

/-- Recording in an opened vault fails before the record is written, or not at all. -/
theorem Workspace.ofRecording_of_recordStateOn
    (h : (workspace.recordStateOn system path attendee change note selection).1 = .error error) :
    error.OfRecording := by
  unfold recordStateOn at h
  extract_lets document link at h
  clear_value document link
  cases hkey : workspace.stateKey change with
  | error fault =>
    simp only [hkey, Except.error.injEq] at h
    exact h ▸ ofRecording_of_stateKey hkey
  | ok key =>
  cases htarget : workspace.pickOn system document selection with
  | error fault =>
    simp only [hkey, htarget, Except.error.injEq] at h
    exact h ▸ ofRecording_of_pickOn htarget
  | ok target =>
  simp only [hkey, htarget] at h
  cases hset : Ledger.setState (⟨workspace.vault⟩ : MountedVault system) document target link key
      note with
  | mk recorded mounted =>
  cases recorded with
  | error fault =>
    simp only [hset, Except.error.injEq] at h
    exact h ▸ .ledger fault
  | ok record =>
    have hfind := Ledger.find?_of_setState hset
    simp [hset, hfind] at h

theorem Invocation.ofRecording_of_runOn
    (hcommand : invocation.command = .recordState path attendee change note selection)
    (h : (invocation.runOn system environment disk).1 = .error error) : error.OfRecording := by
  rw [runOn, hcommand] at h
  dsimp only at h
  cases hconfig : Config.ofUser environment disk with
  | error fault =>
    simp only [hconfig, Except.error.injEq] at h
    exact h ▸ .config fault
  | ok config =>
  cases hworkspace : Workspace.ofConfig invocation.vault? config disk with
  | error fault =>
    simp only [hconfig, hworkspace, Except.error.injEq] at h
    exact h ▸ Workspace.ofRecording_of_ofConfig hworkspace
  | ok workspace =>
  simp only [hconfig, hworkspace] at h
  cases hreport : (workspace.recordStateOn system path attendee change note selection).1 with
  | error fault =>
    simp only [hreport, Except.map, Except.error.injEq] at h
    exact h ▸ Workspace.ofRecording_of_recordStateOn hreport
  | ok report => simp [hreport, Except.map] at h

end Command

/-! ## The roster of a record -/

/-- Whatever happens to the entries of a record, list and set of the roster agree. What is recorded
is found and stands where the attendee stood before, or last; the documents of a query complete the
list without a repetition. No command that records a state misses its entry afterwards, on any disk
and any system. -/
theorem Roster.agrees_throughout (changes : List EntryChange) :
    let roster := after changes
    let entries := Entries.after changes
    (roster.Sound ∧ roster.toList = entries.toList ∧ ∀ link,
      roster.find? link = entries.find? link ∧ roster.contains link = entries.contains link) ∧
    (∀ link state note,
      let later := roster.set ⟨link, state, note⟩
      later.find? link = some ⟨link, state, note⟩ ∧
        (∀ other, other ≠ link → later.find? other = roster.find? other) ∧
        Entry.Enters ⟨link, state, note⟩ roster.toList later.toList) ∧
    (∀ resolved, Entry.Completes roster.toList resolved (roster.effective resolved) ∧
      ∀ record : Record, record.entries = entries →
        record.effectiveEntries resolved = roster.effective resolved) ∧
    ∀ (system : FileSystem) (environment : Environment) (invocation : Invocation) (disk : Disk)
      (path attendee note who : String) (change : StateChange) (selection : Selection),
      invocation.command = .recordState path attendee change note selection →
        (invocation.runOn system environment disk).1 ≠ .error (.notRecorded who) := by
  intro roster entries
  have hkeeps : roster.Keeps entries := keeps_after changes
  refine ⟨⟨hkeeps.sound, hkeeps.toList_eq, fun link => ?_⟩, fun link state note => ?_,
    fun resolved => ⟨hkeeps.sound.completes_effective resolved, ?_⟩, ?_⟩
  · exact ⟨(hkeeps.find?_eq link).symm, (hkeeps.contains_eq link).symm⟩
  · intro later
    have hlater : later.Keeps (entries.set ⟨link, state, note⟩) := hkeeps.set ⟨link, state, note⟩
    refine ⟨?_, fun other hother => ?_, ?_⟩
    · rw [← hlater.find?_eq]
      exact entries.find?_set ⟨link, state, note⟩
    · rw [← hlater.find?_eq, entries.find?_set_of_ne hother, hkeeps.find?_eq]
    · rw [hkeeps.sound.toList_set]
      exact Entry.enters_put ⟨link, state, note⟩ roster.toList
  · intro record hrecord
    have hrecord : roster.Keeps record.entries := hrecord ▸ hkeeps
    exact hrecord.effective_eq resolved
  · intro system environment invocation disk path attendee note who change selection hcommand herror
    cases Invocation.ofRecording_of_runOn hcommand herror

/-- Bob keeps his place, the later entry of Ann stands for both of hers, and only Dan is added. -/
theorem Roster.agrees_throughout_choir :
    let changes : List EntryChange :=
      [.ofList [⟨"ann.md", "p", ""⟩, ⟨"bob.md", "", ""⟩, ⟨"ann.md", "a", ""⟩],
        .set "cal.md" "p" "late"]
    let later := (after changes).set ⟨"bob.md", "a", "ill"⟩
    let record : Record := ⟨⟨2024, 1, 5, by decide, by decide, by decide⟩, "Choir", .tag "alto",
      "#alto", .after changes⟩
    let resolved := NameSet.ofList ["dan.md", "ann.md"]
    let environment : Environment := ⟨some "/attend.toml", none, none, none, true, .ofSeconds 0⟩
    let invocation : Invocation := ⟨false, false, true, some "/v",
      .recordState "d" "bob" .clear "ill" ⟨none, some "Choir"⟩⟩
    let disk : Disk := ⟨[(["v"], .folder), (["v", "d.md"],
      .file (.text "\n```attendance\ndate: 2024-01-05\ntitle: Choir\nquery: #alto\n```\n"))], []⟩
    later.toList = [⟨"ann.md", "a", ""⟩, ⟨"bob.md", "a", "ill"⟩, ⟨"cal.md", "p", "late"⟩] ∧
    ("ann.md" ≠ "bob.md" ∧ later.find? "ann.md" = (after changes).find? "ann.md") ∧
    (after changes).effective resolved =
      [⟨"ann.md", "a", ""⟩, ⟨"bob.md", "", ""⟩, ⟨"cal.md", "p", "late"⟩, ⟨"dan.md", "", ""⟩] ∧
    (record.entries = .after changes ∧
      record.effectiveEntries resolved = (after changes).effective resolved) ∧
    (invocation.run environment disk).1 = .ok "bob is - at Choir (2024-01-05)\n" ∧
    (invocation.runOn .full environment disk).1 ≠ .error (.notRecorded "bob.md") := by
  intro changes later record resolved environment invocation disk
  obtain ⟨-, hset, heffective, hcommand⟩ := agrees_throughout changes
  have hann : "ann.md" ≠ "bob.md" := by decide
  have hother := (hset "bob.md" "a" "ill").2.1 "ann.md" hann
  have hrecord := (heffective resolved).2 record rfl
  have hfull := hcommand .full environment invocation disk "d" "bob" "ill" "bob.md" .clear
    ⟨none, some "Choir"⟩ rfl
  exact ⟨by decide +kernel, ⟨hann, hother⟩, by decide +kernel, ⟨rfl, hrecord⟩, by decide +kernel,
    hfull⟩

end RollCall
