import RollCall.Command.Run
import RollCall.Proofs.Block.Splice
import RollCall.Proofs.Record.Selection
import RollCall.Proofs.Vault.Ledger

/-!
# Recording a state

A state that is recorded without an error can be read from the document exactly if the entry is
writable (`Invocation.run_recordState_iff`). Otherwise the command ends well all the same, and the
block is lost or holds something else.
-/

namespace RollCall

/-- The block at the place is read with the entry, and apart from that everything is read as
before. -/
structure Recorded (before after : String) (i : Nat) (old : Record) (entry : Entry) : Prop where
  /-- There are as many blocks as before. -/
  count : (Block.scan after).length = (Block.scan before).length
  /-- The block holds the entry and all the others that it held before. -/
  block : ∃ new : Record, ((Block.scan after)[i]?).map Block.parsed = some (.ok new) ∧
    (new.date = old.date ∧ new.title = old.title ∧ new.query = old.query) ∧
    new.entries.find? entry.link = some entry ∧
    new.entries.toList.filter (·.link ≠ entry.link) =
      old.entries.toList.filter (·.link ≠ entry.link)
  /-- All other blocks are read as before. -/
  others : ∀ j, j ≠ i →
    ((Block.scan after)[j]?).map Block.parsed = ((Block.scan before)[j]?).map Block.parsed

/-! ## In the text of the document -/

theorem Selection.accepts_of_sameHead {selection : Selection} {record other : Record}
    (h : record.sameHead other = true) : selection.accepts record = selection.accepts other := by
  obtain ⟨hdate, htitle, -⟩ := sameHead_iff.1 h
  rw [accepts, accepts, hdate, htitle]

theorem writable_of_parsed_getElem? {text : String} {i : Nat} {record : Record}
    (h : ((Block.scan text)[i]?).map Block.parsed = some (.ok record)) :
    ∀ entry ∈ record.entries.toList, entry.Writable := by
  rw [Block.parsed_getElem?_scan, Option.map_eq_some_iff] at h
  obtain ⟨cut, hcut, hparsed⟩ := h
  exact Cut.writable_of_parsed (List.mem_of_getElem? hcut) hparsed

/-- A spliced entry is recorded exactly if it is writable. -/
theorem recorded_iff_writable {selection : Selection} {before after : String} {i : Nat}
    {old : Record} (hnames : selection.Names before i old) (entry : Entry)
    (h : splice before (old.withState entry.link entry.state entry.note) = .ok after) :
    Recorded before after i old entry ↔ entry.Writable := by
  constructor
  · intro hrecorded
    obtain ⟨new, hnew, -, hfind, -⟩ := hrecorded.block
    exact writable_of_parsed_getElem? hnew entry (Entries.mem_of_find?_eq_some hfind)
  · intro hentry
    have hentries : ∀ other ∈ (old.entries.set entry).toList, other.Writable := by
      intro other hother
      rcases Entry.mem_of_mem_put hother with rfl | hother
      · exact hentry
      · exact writable_of_parsed_getElem? hnames.at_place other hother
    obtain ⟨j, oldCut, newCut, record, hfirst, hnew, hreplaced⟩ := exists_replaced h hentries
    -- the selection accepts whatever belongs to the record, so this is the block that it names
    have hrecord : ((Block.scan before)[j]?).map Block.parsed = some (.ok record) := by
      rw [Block.parsed_getElem?_scan, hfirst.at_place, Option.map_some, hfirst.parsed_eq]
    obtain rfl : j = i := hnames.only j record hrecord
      ((Selection.accepts_of_sameHead hfirst.same_head).trans hnames.accepted)
    obtain rfl : record = old := by
      simpa using hrecord.symm.trans hnames.at_place
    have hblock : ((Block.scan after)[j]?).map Block.parsed =
        some (.ok { record with entries := record.entries.set entry }) := by
      rw [Block.parsed_getElem?_scan, hnew.at_place, Option.map_some, hnew.parsed_eq]
      rfl
    refine ⟨hreplaced.length_scan, ⟨_, hblock, ⟨rfl, rfl, rfl⟩, Entries.find?_set _ _,
      Entries.filter_set _ _⟩, fun k hk => ?_⟩
    · rw [Block.parsed_getElem?_scan, Block.parsed_getElem?_scan, hreplaced.parsed_of_ne hk]

/-! ## In the vault -/

namespace Workspace

theorem pick_eq_ok {workspace : Workspace} {path : String} {selection : Selection}
    {record : Record} (h : workspace.pick path selection = .ok record) :
    ∃ text i, Storage.read workspace.vault path = .ok text ∧ selection.Names text i record := by
  rw [pick, readBlocks] at h
  cases hblocks : Ledger.readBlocks workspace.vault path with
  | error error => simp [hblocks, Except.mapError, bind, Except.bind] at h
  | ok blocks =>
  cases hpick : selection.pick path blocks with
  | error error => simp [hblocks, hpick, Except.mapError, bind, Except.bind] at h
  | ok found =>
  simp only [hblocks, hpick, Except.mapError, bind, Except.bind, Except.ok.injEq] at h
  subst h
  obtain ⟨text, htext, rfl⟩ := Ledger.readBlocks_eq_ok hblocks
  obtain ⟨i, hi⟩ := Selection.pick_scan_eq_ok_iff.1 hpick
  exact ⟨text, i, htext, hi⟩

/-- What a successful record of a state does. -/
theorem recordState_eq_ok {workspace : Workspace} {path attendee note : String}
    {change : StateChange} {selection : Selection} {report : Report} {later : Disk}
    (h : workspace.recordState path attendee change note selection = (.ok report, later)) :
    ∃ key target record written, workspace.stateKey change = .ok key ∧
      workspace.pick (Path.ofArgument path) selection = .ok target ∧
      Ledger.setState workspace.vault (Path.ofArgument path) target (Path.ofArgument attendee) key
        note = (.ok record, written) ∧ written.disk = later := by
  unfold recordState at h
  extract_lets document link at h
  rw [show Path.ofArgument path = document from rfl, show Path.ofArgument attendee = link from rfl]
  clear_value document link
  cases hkey : workspace.stateKey change with
  | error error => simp [hkey] at h
  | ok key =>
  cases htarget : workspace.pick document selection with
  | error error => simp [hkey, htarget] at h
  | ok target =>
  simp only [hkey, htarget] at h
  split at h
  · simp at h
  next record written hset =>
  split at h
  · simp at h
  · exact ⟨key, target, record, written, rfl, rfl, hset, congrArg Prod.snd h⟩

/-- After a state has been recorded, the document holds the old text with the entry spliced in. -/
theorem exists_splice_of_recordState {workspace : Workspace} {path attendee note : String}
    {change : StateChange} {selection : Selection} {report : Report} {later : Disk}
    (h : workspace.recordState path attendee change note selection = (.ok report, later)) :
    ∃ key before after i old, workspace.stateKey change = .ok key ∧
      Storage.read workspace.vault (Path.ofArgument path) = .ok before ∧
      Storage.read (FolderVault.mk later workspace.vault.root) (Path.ofArgument path) = .ok after ∧
      selection.Names before i old ∧
      splice before (old.withState (Path.ofArgument attendee) key note) = .ok after := by
  obtain ⟨key, target, record, written, hkey, hpick, hset, rfl⟩ := recordState_eq_ok h
  obtain ⟨text, i, htext, hnames⟩ := pick_eq_ok hpick
  obtain ⟨rfl, hwrite⟩ := Ledger.setState_eq_ok hset
  obtain ⟨before, after, hbefore, hsplice, hstored, hafter⟩ := Ledger.write_eq_ok hwrite
  obtain rfl : text = before := by
    simpa using htext.symm.trans hbefore
  obtain ⟨-, -, -, -, hroot⟩ := FolderVault.replace_eq_ok hstored
  have hlater : Storage.read (FolderVault.mk written.disk workspace.vault.root) (Path.ofArgument path) =
      .ok after := by
    rw [← hroot, hafter]
  exact ⟨key, text, after, i, target, hkey, hbefore, hlater, hnames, hsplice⟩

end Workspace

/-! ## From the command line -/

namespace Invocation

/-- A command that records a state and succeeds has opened a vault and recorded the state there. -/
theorem recordState_of_run {environment : Environment} {invocation : Invocation}
    {disk later : Disk} {output path attendee note : String} {change : StateChange}
    {selection : Selection}
    (hcommand : invocation.command = .recordState path attendee change note selection)
    (h : invocation.run environment disk = (.ok output, later)) :
    ∃ config workspace report, Config.ofUser environment disk = .ok config ∧
      Workspace.ofConfig invocation.vault? config disk = .ok workspace ∧
      workspace.recordState path attendee change note selection = (.ok report, later) := by
  unfold run at h
  extract_lets config? display at h
  rw [show Config.ofUser environment disk = config? from rfl]
  clear_value config? display
  rw [hcommand] at h
  cases hconfig : config? with
  | error error => simp [hconfig] at h
  | ok config =>
  cases hworkspace : Workspace.ofConfig invocation.vault? config disk with
  | error error => simp [hconfig, hworkspace] at h
  | ok workspace =>
  simp only [hconfig, hworkspace, runIn] at h
  cases hreport : workspace.recordState path attendee change note selection with
  | mk report disk =>
  cases report with
  | error error => simp [hreport, Except.map] at h
  | ok report =>
  obtain rfl : disk = later := by simpa [hreport] using congrArg Prod.snd h
  exact ⟨config, workspace, report, rfl, hworkspace, hreport⟩

/-- A command that records a state and succeeds leaves a document in which the block that was
selected is read with the new entry, and everything else as before, exactly if the entry is
writable. -/
theorem run_recordState_iff {environment : Environment} {invocation : Invocation}
    {disk later : Disk} {output path attendee note : String} {change : StateChange}
    {selection : Selection}
    (hcommand : invocation.command = .recordState path attendee change note selection)
    (h : invocation.run environment disk = (.ok output, later)) :
    ∃ config workspace key before after i old, Config.ofUser environment disk = .ok config ∧
      Workspace.ofConfig invocation.vault? config disk = .ok workspace ∧
      workspace.stateKey change = .ok key ∧
      Storage.read workspace.vault (Path.ofArgument path) = .ok before ∧
      Storage.read (FolderVault.mk later workspace.vault.root) (Path.ofArgument path) = .ok after ∧
      selection.Names before i old ∧
      (Recorded before after i old ⟨Path.ofArgument attendee, key, note⟩ ↔
        Entry.Writable ⟨Path.ofArgument attendee, key, note⟩) := by
  obtain ⟨config, workspace, report, hconfig, hworkspace, hrecord⟩ := recordState_of_run hcommand h
  obtain ⟨key, before, after, i, old, hkey, hbefore, hafter, hnames, hsplice⟩ :=
    Workspace.exists_splice_of_recordState hrecord
  generalize Path.ofArgument attendee = link at hsplice ⊢
  exact ⟨config, workspace, key, before, after, i, old, hconfig, hworkspace, hkey, hbefore, hafter,
    hnames, recorded_iff_writable hnames ⟨link, key, note⟩ hsplice⟩

/-- A note with a comma and quotes in it is recorded. -/
theorem run_recordState_quotes :
    let environment : Environment := ⟨some "/attend.toml", none, none, none, true, .ofSeconds 0⟩
    let selection : Selection := ⟨none, some "Choir"⟩
    let invocation : Invocation := ⟨false, false, true, some "/v",
      .recordState "d" "ann" .clear "late, said \"traffic\"" selection⟩
    let disk : Disk := ⟨[(["v"], .folder), (["v", "d.md"], .file (.text
      "```attendance\ndate: 2024-01-05\ntitle: Choir\nquery: #alto\n```\n"))], []⟩
    ∃ output later before after i old, invocation.run environment disk = (.ok output, later) ∧
      selection.Names before i old ∧
      Recorded before after i old ⟨"ann.md", "", "late, said \"traffic\""⟩ := by
  intro environment selection invocation disk
  have hrun : invocation.run environment disk = (.ok "ann is - at Choir (2024-01-05)\n",
      ⟨[(["v", "d.md"], .file (.text ("\n```attendance\ndate: 2024-01-05\ntitle: Choir\n" ++
        "query: #alto\n- [[ann.md]], \"\", \"late, said \"traffic\"\"\n```\n"))),
        (["v"], .folder)], []⟩) := by
    decide +kernel
  obtain ⟨config, workspace, key, before, after, i, old, -, -, hkey, -, -, hnames, hiff⟩ :=
    run_recordState_iff rfl hrun
  obtain rfl : "" = key := Except.ok.inj hkey
  have hlink : Path.ofArgument "ann" = "ann.md" := by decide +kernel
  rw [hlink] at hiff
  exact ⟨_, _, before, after, i, old, hrun, hnames, hiff.2 (by decide +kernel)⟩

/-- A note of two lines is not recorded: the command succeeds and leaves a document without a block
that can be read. -/
theorem run_recordState_two_lines :
    let environment : Environment := ⟨some "/attend.toml", none, none, none, true, .ofSeconds 0⟩
    let selection : Selection := ⟨none, some "Choir"⟩
    let invocation : Invocation := ⟨false, false, true, some "/v",
      .recordState "d" "ann" .clear "late\ntraffic" selection⟩
    let before := "```attendance\ndate: 2024-01-05\ntitle: Choir\nquery: #alto\n```\n"
    let after := "\n```attendance\ndate: 2024-01-05\ntitle: Choir\nquery: #alto\n" ++
      "- [[ann.md]], \"\", \"late\ntraffic\"\n```\n"
    let disk : Disk := ⟨[(["v"], .folder), (["v", "d.md"], .file (.text before))], []⟩
    ∃ output later, invocation.run environment disk = (.ok output, later) ∧
      Storage.read (FolderVault.mk disk "/v") "d.md" = .ok before ∧
      Storage.read (FolderVault.mk later "/v") "d.md" = .ok after ∧
      (∃ i old, selection.Names before i old) ∧
      ∀ i old, ¬ Recorded before after i old ⟨"ann.md", "", "late\ntraffic"⟩ := by
  intro environment selection invocation before after disk
  have hrun : invocation.run environment disk = (.ok "ann is - at Choir (2024-01-05)\n",
      ⟨[(["v", "d.md"], .file (.text after)), (["v"], .folder)], []⟩) := by
    decide +kernel
  have hpick : selection.pick "d.md" (DocumentBlock.scan "d.md" before) =
      .ok ⟨⟨2024, 1, 5, by decide, by decide, by decide⟩, "Choir", .tag "alto", "#alto", ∅⟩ := by
    decide +kernel
  have hnone : ∀ block ∈ Block.scan after, block.parsed.toOption = none := by
    decide +kernel
  obtain ⟨i, hnames⟩ := Selection.pick_scan_eq_ok_iff.1 hpick
  refine ⟨_, _, hrun, by decide +kernel, by decide +kernel, ⟨i, _, hnames⟩, fun j old hrecorded => ?_⟩
  obtain ⟨new, hnew, -⟩ := hrecorded.block
  obtain ⟨block, hblock, hparsed⟩ := Option.map_eq_some_iff.1 hnew
  have hread := hnone block (List.mem_of_getElem? hblock)
  rw [hparsed] at hread
  cases hread

end Invocation

end RollCall
