import RollCall.Proofs.Export.Cells
import RollCall.Proofs.Record.Roster
import RollCall.Proofs.Traversal

/-!
# What a table of states says

A column belongs to whoever has an entry in some record or is selected by its query, and the cell of a
record in this column is the state that the record has for the attendee (`ofRecords_faithful`). The
header of a table without attendees ends with an empty cell.
-/

namespace RollCall

/-! ## Effective entries -/

/-- The entries that count for a record: its own and those of the documents that its query selects. -/
def Lookup.Effective (lookup : Lookup) (record : Record) (entries : List Entry) : Prop :=
  ∃ resolved, lookup.resolve record.query = .ok resolved ∧ entries = record.effectiveEntries resolved

theorem Lookup.Effective.unique {lookup : Lookup} {record : Record} {a b : List Entry}
    (ha : lookup.Effective record a) (hb : lookup.Effective record b) : a = b := by
  obtain ⟨resolved, hresolved, rfl⟩ := ha
  obtain ⟨other, hother, rfl⟩ := hb
  obtain rfl : resolved = other := Except.ok.inj (hresolved.symm.trans hother)
  rfl

theorem Record.nodup_effectiveEntries (record : Record) (resolved : NameSet) :
    ((record.effectiveEntries resolved).map Entry.link).Nodup := by
  have hblanks : ∀ path, path ∈ resolved.filter (fun path => !record.entries.contains path) ↔
      path ∈ resolved ∧ path ∉ record.entries.toList.map Entry.link := by
    intro path
    rw [NameSet.mem_filter]
    simp [Entries.contains]
  have hcompletes := Entry.completes_blanks record.entries.distinct hblanks
  rw [List.nodup_iff_count]
  intro path
  have hcount := hcompletes.count_eq path
  unfold Record.effectiveEntries
  rw [hcount]
  split
  · exact Nat.le_refl 1
  · exact Nat.zero_le 1

namespace Matrix

variable {lookup : Lookup} {records : List Record} {entries : List Entry}

/-- The state of an attendee among some entries: that of the entry, if there is one. -/
structure IsState (entries : List Entry) (attendee state : String) : Prop where
  /-- An attendee with an entry has its state. -/
  of_entry : ∀ entry ∈ entries, entry.link = attendee → state = entry.state
  /-- An attendee without an entry has none. -/
  of_none : attendee ∉ entries.map Entry.link → state = ""

theorem isState_cell (hnodup : (entries.map Entry.link).Nodup) (attendee : String) :
    IsState entries attendee (cell entries attendee) where
  of_entry := by
    rintro entry hentry rfl
    have hfind : (⟨entries, hnodup⟩ : Entries).find? entry.link = some entry :=
      Entries.find?_of_mem hentry
    unfold Entries.find? at hfind
    unfold cell
    rw [hfind]
    rfl
  of_none := by
    intro hnone
    have hfind : entries.find? (·.link = attendee) = none := by
      refine List.find?_eq_none.2 fun entry hentry hlink => ?_
      exact hnone (of_decide_eq_true hlink ▸ List.mem_map_of_mem hentry)
    unfold cell
    rw [hfind]
    rfl

theorem isPlain_cell (hplain : ∀ entry ∈ entries, IsPlain entry.state) (attendee : String) :
    IsPlain (cell entries attendee) := by
  unfold cell
  cases hfind : entries.find? (·.link = attendee) with
  | none => exact ⟨List.not_mem_nil, List.not_mem_nil⟩
  | some entry => exact hplain entry (List.mem_of_find?_eq_some hfind)

/-! ## Rows -/

/-- What is put into the row of a record: its date and its effective entries. -/
def rowOf (lookup : Lookup) (record : Record) : Except ResolveError (Date × List Entry) :=
  (lookup.resolve record.query).map fun resolved => (record.date, record.effectiveEntries resolved)

theorem rowOf_eq_ok_iff {record : Record} {row : Date × List Entry} :
    rowOf lookup record = .ok row ↔ row.1 = record.date ∧ lookup.Effective record row.2 := by
  unfold rowOf Lookup.Effective
  constructor
  · intro h
    cases hresolve : lookup.resolve record.query with
    | error error => simp [hresolve, Except.map] at h
    | ok resolved =>
      rw [hresolve, Except.map, Except.ok.injEq] at h
      subst h
      exact ⟨rfl, resolved, rfl, rfl⟩
  · rintro ⟨hdate, resolved, hresolve, hentries⟩
    rw [hresolve, Except.map, ← hdate, ← hentries]

theorem effective_eq_mapM (lookup : Lookup) (records : List Record) :
    effective lookup records = records.mapM (rowOf lookup) := by
  induction records with
  | nil => rfl
  | cons record records ih =>
    rw [List.mapM_cons, ← ih, effective, rowOf]
    cases lookup.resolve record.query with
    | error error => rfl
    | ok resolved => cases effective lookup records <;> rfl

/-- The rows of records: the dates of the records and their effective entries. -/
def RowsOf (lookup : Lookup) : List Record → List (Date × List Entry) → Prop :=
  List.Forall₂ fun record row => row.1 = record.date ∧ lookup.Effective record row.2

theorem effective_eq_ok_iff {rows : List (Date × List Entry)} :
    effective lookup records = .ok rows ↔ RowsOf lookup records rows := by
  rw [effective_eq_mapM, mapM_eq_ok_iff]
  simp only [rowOf_eq_ok_iff, RowsOf]

theorem effective_eq_error_iff {error : ResolveError} :
    effective lookup records = .error error ↔
      FirstFailure (fun record => lookup.resolve record.query) records error := by
  rw [effective_eq_mapM, mapM_eq_error_iff]
  exact firstFailure_map_iff

/-! ## The whole table -/

/-- The row of a record: its date, the state of each attendee and an empty cell. -/
def IsRow (lookup : Lookup) (attendees : List String) (record : Record) (cells : List String) : Prop :=
  ∃ entries states, lookup.Effective record entries ∧ cells = record.date.text :: states ++ [""] ∧
    List.Forall₂ (IsState entries) attendees states

/-- No name and no state looks like more than one cell. -/
structure Plain (lookup : Lookup) (records : List Record) (attendees : List String) : Prop where
  /-- The names of the attendees are plain. -/
  name : ∀ path ∈ attendees, IsPlain (Path.displayName path)
  /-- The states of all records are plain. -/
  state : ∀ record ∈ records, ∀ entries, lookup.Effective record entries →
    ∀ entry ∈ entries, IsPlain entry.state

/-- The table of rows of entries. -/
def ofRows (rows : List (Date × List Entry)) : Matrix :=
  let attendees := (NameSet.ofList (rows.flatMap fun row => row.2.map Entry.link)).toList
  ⟨attendees, rows.map fun (date, entries) => (date, attendees.map (cell entries))⟩

theorem ofRecords_eq (lookup : Lookup) (records : List Record) :
    ofRecords lookup records = (effective lookup records).map ofRows := by
  unfold ofRecords
  cases effective lookup records <;> rfl

theorem table_ofRows (rows : List (Date × List Entry)) :
    (ofRows rows).table = headerCells (ofRows rows).attendees ::
      rows.map fun row => row.1.text :: (ofRows rows).attendees.map (cell row.2) ++ [""] := by
  unfold table
  congr 1
  rw [ofRows, List.map_map]
  rfl

section Rows

variable {rows : List (Date × List Entry)} {attendees : List String}

theorem mem_links_iff (h : RowsOf lookup records rows) {link : String} :
    link ∈ rows.flatMap (fun row => row.2.map Entry.link) ↔
      ∃ record ∈ records, ∃ entries, lookup.Effective record entries ∧
        link ∈ entries.map Entry.link := by
  rw [List.mem_flatMap]
  constructor
  · rintro ⟨row, hrow, hlink⟩
    obtain ⟨record, hrecord, -, heffective⟩ := exists_rel_of_mem h row hrow
    exact ⟨record, hrecord, row.2, heffective, hlink⟩
  · rintro ⟨record, hrecord, entries, heffective, hlink⟩
    obtain ⟨row, hrow, -, hother⟩ := exists_rel_of_mem h.flip record hrecord
    exact ⟨row, hrow, heffective.unique hother ▸ hlink⟩

theorem forall₂_isRow (h : RowsOf lookup records rows) :
    List.Forall₂ (IsRow lookup attendees) records
      (rows.map fun row => row.1.text :: attendees.map (cell row.2) ++ [""]) := by
  rw [List.forall₂_map_right_iff]
  refine h.imp ?_
  rintro record ⟨date, entries⟩ ⟨rfl, heffective⟩
  refine ⟨entries, attendees.map (cell entries), heffective, rfl, ?_⟩
  rw [List.forall₂_map_right_iff, List.forall₂_same]
  intro attendee _
  obtain ⟨resolved, -, rfl⟩ := heffective
  exact isState_cell (record.nodup_effectiveEntries resolved) attendee

theorem isPlain_of_mem_table (hrows : RowsOf lookup records rows)
    (hplain : Plain lookup records attendees) :
    ∀ cells ∈ headerCells attendees ::
        rows.map (fun row => row.1.text :: attendees.map (cell row.2) ++ [""]),
      ∀ c ∈ cells, IsPlain c := by
  have hempty : IsPlain "" := ⟨List.not_mem_nil, List.not_mem_nil⟩
  intro cells hcells c hc
  rcases List.mem_cons.1 hcells with rfl | hcells
  · unfold headerCells at hc
    split at hc
    · rcases List.mem_pair.1 hc with rfl | rfl
      · decide
      · exact hempty
    · rcases List.mem_cons.1 hc with rfl | hname
      · decide
      · obtain ⟨path, hpath, rfl⟩ := List.mem_map.1 hname
        exact hplain.name path hpath
  · obtain ⟨row, hrow, rfl⟩ := List.mem_map.1 hcells
    obtain ⟨record, hrecord, -, heffective⟩ := exists_rel_of_mem hrows row hrow
    rw [List.cons_append, List.mem_cons, List.mem_append, List.mem_singleton] at hc
    rcases hc with rfl | hstate | rfl
    · exact isPlain_text row.1
    · obtain ⟨attendee, -, rfl⟩ := List.mem_map.1 hstate
      exact isPlain_cell (hplain.state record hrecord row.2 heffective) attendee
    · exact hempty

end Rows

/-- A table can be made exactly if all queries can be resolved; otherwise the first that cannot is
reported. It has a column for each link among the effective entries of the records, in ascending order,
and is read again as a header, which names the columns if there are any, and a row for each record. -/
theorem ofRecords_faithful (lookup : Lookup) (records : List Record) :
    (∀ error, ofRecords lookup records = .error error ↔
      FirstFailure (fun record => lookup.resolve record.query) records error) ∧
    ∀ matrix, ofRecords lookup records = .ok matrix →
      matrix.attendees.Pairwise (· < ·) ∧
      (∀ link, link ∈ matrix.attendees ↔ ∃ record ∈ records, ∃ entries,
        lookup.Effective record entries ∧ link ∈ entries.map Entry.link) ∧
      (Plain lookup records matrix.attendees → ∃ header rows,
        cells? matrix.text = some (header :: rows) ∧
        (matrix.attendees ≠ [] → header = "date" :: matrix.attendees.map Path.displayName) ∧
        (matrix.attendees = [] → header = ["date", ""]) ∧
        List.Forall₂ (IsRow lookup matrix.attendees) records rows) := by
  rw [ofRecords_eq]
  constructor
  · intro error
    rw [map_eq_error_iff, effective_eq_error_iff]
  · intro matrix hmatrix
    cases hrows : effective lookup records with
    | error fault => simp [hrows, Except.map] at hmatrix
    | ok rows =>
      rw [hrows, Except.map, Except.ok.injEq] at hmatrix
      subst hmatrix
      rw [effective_eq_ok_iff] at hrows
      have hmem : ∀ link, link ∈ (ofRows rows).attendees ↔
          link ∈ rows.flatMap fun row => row.2.map Entry.link := fun link => NameSet.mem_ofList
      refine ⟨NameSet.ascending _, fun link => (hmem link).trans (mem_links_iff hrows), fun hplain => ?_⟩
      refine ⟨headerCells (ofRows rows).attendees, _, ?_, fun hne => if_neg hne, fun hnil => if_pos hnil,
        forall₂_isRow hrows⟩
      rw [text_eq, table_ofRows]
      refine cells?_fenced (List.cons_ne_nil _ _) ?_ (isPlain_of_mem_table hrows hplain)
      intro cells hcells
      rcases List.mem_cons.1 hcells with rfl | hcells
      · unfold headerCells
        split <;> simp
      · obtain ⟨row, -, rfl⟩ := List.mem_map.1 hcells
        simp

/-- Two records of a choir: one attendee is a guest of the second, one is only selected by the query. -/
theorem ofRecords_faithful_choir :
    let lookup : Lookup := ⟨fun _ => .ofList ["choir/ann.md", "choir/bob.md"], fun _ => false,
      fun _ => ∅, fun _ => none, fun _ => ⟨∅, ∅⟩, []⟩
    let first : Record := ⟨⟨2024, 1, 5, by decide, by decide, by decide⟩, "Choir", .tag "alto", "#alto",
      ⟨[⟨"choir/ann.md", "here", ""⟩], by decide⟩⟩
    let second : Record := ⟨⟨2024, 1, 12, by decide, by decide, by decide⟩, "Choir", .tag "alto",
      "#alto", ⟨[⟨"eve.md", "late", "bus"⟩, ⟨"choir/ann.md", "away", ""⟩], by decide⟩⟩
    ∃ matrix, ofRecords lookup [first, second] = .ok matrix ∧
      matrix.attendees = ["choir/ann.md", "choir/bob.md", "eve.md"] ∧
      Plain lookup [first, second] matrix.attendees ∧
      ∃ header rows, cells? matrix.text = some (header :: rows) ∧ header = ["date", "ann", "bob", "eve"] ∧
        List.Forall₂ (IsRow lookup matrix.attendees) [first, second] rows := by
  intro lookup first second
  let matrix : Matrix := ⟨["choir/ann.md", "choir/bob.md", "eve.md"],
    [(first.date, ["here", "", ""]), (second.date, ["away", "", "late"])]⟩
  have hmatrix : ofRecords lookup [first, second] = .ok matrix := by decide +kernel
  have hresolve : ∀ record ∈ [first, second], lookup.resolve record.query =
      .ok (.ofList ["choir/ann.md", "choir/bob.md"]) := by
    intro record hrecord
    rcases List.mem_pair.1 hrecord with rfl | rfl <;> rfl
  have hplain : Plain lookup [first, second] matrix.attendees := by
    refine ⟨by decide +kernel, ?_⟩
    rintro record hrecord entries ⟨resolved, hresolved, rfl⟩
    obtain rfl := Except.ok.inj (hresolved.symm.trans (hresolve record hrecord))
    rcases List.mem_pair.1 hrecord with rfl | rfl
    · decide +kernel
    · decide +kernel
  obtain ⟨-, -, hread⟩ := (ofRecords_faithful lookup [first, second]).2 matrix hmatrix
  obtain ⟨header, rows, hcells, hheader, -, hrows⟩ := hread hplain
  refine ⟨matrix, hmatrix, rfl, hplain, header, rows, hcells, ?_, hrows⟩
  rw [hheader (by decide)]
  decide +kernel

/-- Without attendees the header names a column all the same. -/
theorem ofRecords_without_attendees :
    let lookup : Lookup := ⟨fun _ => ∅, fun _ => false, fun _ => ∅, fun _ => none, fun _ => ⟨∅, ∅⟩, []⟩
    ∃ matrix, ofRecords lookup [] = .ok matrix ∧ Plain lookup [] matrix.attendees ∧
      ¬ ∃ rows, cells? matrix.text =
        some (("date" :: matrix.attendees.map Path.displayName) :: rows) := by
  intro lookup
  have hmatrix : ofRecords lookup [] = .ok ⟨[], []⟩ := by decide +kernel
  have hcells : cells? (text ⟨[], []⟩) = some [["date", ""]] := by decide +kernel
  refine ⟨⟨[], []⟩, hmatrix, ⟨by simp, by simp⟩, ?_⟩
  rintro ⟨rows, hrows⟩
  rw [hcells] at hrows
  simp at hrows

end Matrix

end RollCall
