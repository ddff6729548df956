import RollCall.Proofs.Block.Layout

/-!
# Records written one after the other

Writes to different blocks of a document can be made in any order, a write to the same block
replaces the one before it, and however often a block at the beginning of a document is written, no
more than one line feed is put in front of it (`splice_cells`). A record that is written back as it
was read leaves the document as it is exactly if the first block with its date, title and query has
its entries (`splice_self_iff`).
-/

namespace RollCall

variable {text out : String} {cells : List Cell} {rest : List Char} {i : Nat} {a b target : Record}

/-! ## A cell that is written twice -/

namespace Cell

theorem gap_write (cell : Cell) (i : Nat) (target : Record) :
    (cell.write i target).gap = cell.gap ∨ (cell.write i target).gap = lead i cell.gap := by
  cases hparsed : cell.parsed with
  | error error =>
    left
    rw [write, hparsed]
  | ok record =>
    rw [write_of_parsed hparsed]
    by_cases hsame : target.entries = record.entries
    · left
      rw [if_pos hsame]
    · right
      rw [if_neg hsame]

/-- The second write leaves no trace of the first one, unless it would have changed nothing without
it. -/
theorem write_write {cell : Cell} {record : Record} (hparsed : cell.parsed = .ok record)
    (hwritten : (cell.write i a).parsed = .ok { record with entries := a.entries })
    (hb : b.entries ≠ record.entries) : (cell.write i a).write i b = cell.write i b := by
  have hsecond : cell.write i b =
      ⟨lead i cell.gap, '\n' :: Record.chars { record with entries := b.entries }, true⟩ := by
    rw [write_of_parsed hparsed, if_neg hb]
  by_cases ha : a.entries = record.entries
  · have hself : cell.write i a = cell := by rw [write_of_parsed hparsed, if_pos ha]
    rw [hself]
  · have hfirst : cell.write i a =
        ⟨lead i cell.gap, '\n' :: Record.chars { record with entries := a.entries }, true⟩ := by
      rw [write_of_parsed hparsed, if_neg ha]
    by_cases hab : b.entries = a.entries
    · have htwice : (cell.write i a).write i b = cell.write i a := by
        rw [write_of_parsed hwritten, if_pos hab]
      rw [htwice, hfirst, hsecond, hab]
    · have htwice : (cell.write i a).write i b = ⟨lead i (cell.write i a).gap,
          '\n' :: Record.chars { record with entries := b.entries }, true⟩ := by
        rw [write_of_parsed hwritten, if_neg hab]
      rw [htwice, hfirst, hsecond, lead_lead]

end Cell

/-! ## Two writes -/

namespace Proper

theorem exists_of_splice (h : Proper cells rest) (htext : text.toList = assemble cells rest)
    (hout : splice text target = .ok out) :
    ∃ i cell record, cells[i]? = some cell ∧ cell.parsed = .ok record ∧
      record.sameHead target = true ∧
      cells.findIdx? (fun cell => target.owns cell.parsed) = some i ∧
      out.toList = assemble (cells.modify i (Cell.write i target)) rest := by
  obtain ⟨i, hi, houtText⟩ := (splice_assemble_iff h htext).1 hout
  obtain ⟨hlt, howns, -⟩ := List.findIdx?_eq_some_iff_getElem.1 hi
  obtain ⟨record, hparsed, hhead⟩ := Record.owns_iff.1 howns
  exact ⟨i, cells[i], record, List.getElem?_eq_getElem hlt, hparsed, hhead, hi, houtText⟩

/-- The record that is located is the one in the first cell that belongs to the target. -/
theorem record_of_locate (h : Proper cells rest) {located : Located}
    (hlocated : locate (assemble cells rest) target = .ok located)
    (hi : cells.findIdx? (fun cell => target.owns cell.parsed) = some i) {cell : Cell}
    {record : Record} (hget : cells[i]? = some cell) (hparsed : cell.parsed = .ok record) :
    located.record = record := by
  obtain ⟨k, hfirst⟩ := locate_eq_ok_iff.1 hlocated
  have hk := exists_firstBlock_iff.1 ⟨_, _, hfirst⟩
  rw [h.findIdx?_scan, hi] at hk
  obtain rfl := Option.some.inj hk
  obtain ⟨found, hfound, hfoundParsed, -⟩ := h.firstBlock hfirst
  obtain rfl : found = cell := Option.some.inj (hfound.symm.trans hget)
  exact Except.ok.inj (hfoundParsed.symm.trans hparsed)

theorem modify_write_comm {j : Nat} (hij : i ≠ j) :
    (cells.modify i (Cell.write i a)).modify j (Cell.write j b) =
      (cells.modify j (Cell.write j b)).modify i (Cell.write i a) :=
  List.modify_modify_ne _ _ _ hij

theorem modify_write_write (h : Proper cells rest) {cell : Cell} {record : Record}
    (hget : cells[i]? = some cell) (hparsed : cell.parsed = .ok record)
    (ha : ∀ entry ∈ a.entries.toList, entry.Writable) (hb : b.entries ≠ record.entries) :
    (cells.modify i (Cell.write i a)).modify i (Cell.write i b) =
      cells.modify i (Cell.write i b) := by
  rw [List.modify_modify_eq, modify_eq_set hget, modify_eq_set hget, Function.comp_apply,
    Cell.write_write hparsed (h.write hget hparsed ha).2 hb]

end Proper

/-! ## Many writes -/

theorem map_gap_modify_write (cells : List Cell) (i j : Nat) (target : Record) :
    (cells.modify i (Cell.write i target))[j]?.map Cell.gap = cells[j]?.map Cell.gap ∨
      (cells.modify i (Cell.write i target))[j]?.map Cell.gap =
        (cells[j]?.map Cell.gap).map (Cell.lead j) := by
  rw [List.getElem?_modify, Option.map_eq_map, Option.map_map]
  by_cases hij : i = j
  · subst hij
    cases cells[i]? with
    | none => exact .inl rfl
    | some cell =>
      rcases cell.gap_write i target with hgap | hgap
      · exact .inl (by simp [hgap])
      · exact .inr (by simp [hgap])
  · left
    congr 1
    funext cell
    rw [Function.comp_apply, if_neg hij]

/-- Records that have their blocks in a text can be written one after the other, in any number and
order. The text in front of a block stays as it is, or gets the line feed of the first write. -/
theorem exists_foldlM_splice (h : Proper cells rest) (htext : text.toList = assemble cells rest)
    (targets : List Record)
    (hfound : ∀ target ∈ targets, ∃ i,
      cells.findIdx? (fun cell => target.owns cell.parsed) = some i)
    (hentries : ∀ target ∈ targets, ∀ entry ∈ target.entries.toList, entry.Writable) :
    ∃ out later, targets.foldlM splice text = .ok out ∧ Proper later rest ∧
      out.toList = assemble later rest ∧
      ∀ j : Nat, later[j]?.map Cell.gap = cells[j]?.map Cell.gap ∨
        later[j]?.map Cell.gap = (cells[j]?.map Cell.gap).map (Cell.lead j) := by
  induction targets generalizing text cells with
  | nil => exact ⟨text, cells, rfl, h, htext, fun j => .inl rfl⟩
  | cons target targets ih =>
    obtain ⟨i, hi⟩ := hfound target List.mem_cons_self
    have hwritable := hentries target List.mem_cons_self
    have hsplice : splice text target =
        .ok (String.ofList (assemble (cells.modify i (Cell.write i target)) rest)) :=
      (splice_assemble_iff h htext).2 ⟨i, hi, String.toList_ofList⟩
    obtain ⟨k, cell, record, hget, hparsed, -, hk, -⟩ := h.exists_of_splice htext hsplice
    obtain rfl : k = i := Option.some.inj (hk.symm.trans hi)
    have hplaces := h.findIdx?_write hget hparsed hwritable
    obtain ⟨out, later, hfold, hproper, hout, hgaps⟩ := ih (h.write hget hparsed hwritable).1
      String.toList_ofList
      (fun other hother => by
        rw [hplaces]
        exact hfound other (List.mem_cons_of_mem _ hother))
      (fun other hother => hentries other (List.mem_cons_of_mem _ hother))
    refine ⟨out, later, ?_, hproper, hout, fun j => ?_⟩
    · rw [List.foldlM_cons, hsplice]
      exact hfold
    · -- a line feed that an earlier write has put there is not put there again
      have htwice : ∀ gap : Option (List Char),
          (gap.map (Cell.lead j)).map (Cell.lead j) = gap.map (Cell.lead j) := by
        intro gap
        cases gap with
        | none => rfl
        | some gap => rw [Option.map_some, Option.map_some, Cell.lead_lead]
      rcases hgaps j with hlater | hlater <;>
        rcases map_gap_modify_write cells k j target with hfirst | hfirst
      · exact .inl (hlater.trans hfirst)
      · exact .inr (hlater.trans hfirst)
      · exact .inr (by rw [hlater, hfirst])
      · exact .inr (by rw [hlater, hfirst, htwice])

/-! ## Independent cells -/

variable {outA outB : String}

/-- Records of different blocks can be written in either order. -/
theorem exists_splice_comm (ha : splice text a = .ok outA) (hb : splice text b = .ok outB)
    (haWritable : ∀ entry ∈ a.entries.toList, entry.Writable)
    (hbWritable : ∀ entry ∈ b.entries.toList, entry.Writable) (hhead : a.sameHead b = false) :
    ∃ out, splice outA b = .ok out ∧ splice outB a = .ok out := by
  obtain ⟨cells, rest, h, htext⟩ := exists_proper text.toList
  obtain ⟨i, cellA, recordA, hgetA, hparsedA, hheadA, hi, houtA⟩ := h.exists_of_splice htext.symm ha
  obtain ⟨j, cellB, recordB, hgetB, hparsedB, hheadB, hj, houtB⟩ := h.exists_of_splice htext.symm hb
  obtain ⟨hproperA, -⟩ := h.write hgetA hparsedA haWritable
  obtain ⟨hproperB, -⟩ := h.write hgetB hparsedB hbWritable
  have hplacesA := h.findIdx?_write hgetA hparsedA haWritable
  have hplacesB := h.findIdx?_write hgetB hparsedB hbWritable
  have hij : i ≠ j := by
    rintro rfl
    obtain rfl : cellA = cellB := Option.some.inj (hgetA.symm.trans hgetB)
    have howns : a.owns cellA.parsed = true := Record.owns_iff.2 ⟨recordA, hparsedA, hheadA⟩
    have hsame := Record.sameHead_of_owns howns (Record.owns_iff.2 ⟨recordB, hparsedB, hheadB⟩)
    rw [hsame] at hhead
    exact Bool.false_ne_true hhead.symm
  refine ⟨String.ofList (assemble
    ((cells.modify i (Cell.write i a)).modify j (Cell.write j b)) rest), ?_, ?_⟩
  · refine (splice_assemble_iff hproperA houtA).2 ⟨j, ?_, String.toList_ofList⟩
    rw [hplacesA, hj]
  · refine (splice_assemble_iff hproperB houtB).2 ⟨i, ?_, ?_⟩
    · rw [hplacesB, hi]
    · rw [String.toList_ofList, Proper.modify_write_comm hij]

/-- Of two records of the same block, the second one replaces the first one. -/
theorem splice_splice (ha : splice text a = .ok outA) (hb : splice text b = .ok outB)
    (haWritable : ∀ entry ∈ a.entries.toList, entry.Writable) (hhead : a.sameHead b = true)
    {located : Located} (hlocated : locate text.toList b = .ok located)
    (hne : b.entries ≠ located.record.entries) : splice outA b = .ok outB := by
  obtain ⟨cells, rest, h, htext⟩ := exists_proper text.toList
  obtain ⟨i, cell, record, hget, hparsed, -, hi, houtA⟩ := h.exists_of_splice htext.symm ha
  obtain ⟨j, -, -, -, -, -, hj, houtB⟩ := h.exists_of_splice htext.symm hb
  have hplaces := h.findIdx?_write hget hparsed haWritable
  obtain rfl : i = j := by
    rw [Record.owns_congr hhead, hj] at hi
    exact (Option.some.inj hi).symm
  rw [← htext] at hlocated
  have hrecord := h.record_of_locate hlocated hj hget hparsed
  obtain ⟨hproper, -⟩ := h.write hget hparsed haWritable
  refine (splice_assemble_iff hproper houtA).2 ⟨i, ?_, ?_⟩
  · rw [hplaces, hj]
  · rw [houtB, h.modify_write_write hget hparsed haWritable (by rwa [← hrecord])]

/-- Any number of writes puts at most one line feed in front of a block that begins the text. -/
theorem exists_foldlM_splice_before (targets : List Record)
    (htargets : ∀ target ∈ targets, (∃ out, splice text target = .ok out) ∧
      ∀ entry ∈ target.entries.toList, entry.Writable) :
    ∃ out, targets.foldlM splice text = .ok out ∧
      ∀ first, (Cut.scan text.toList)[0]? = some first → first.before = [] →
        ∃ later, (Cut.scan out.toList)[0]? = some later ∧
          (later.before = [] ∨ later.before = ['\n']) := by
  obtain ⟨cells, rest, h, htext⟩ := exists_proper text.toList
  have hfound : ∀ target ∈ targets, ∃ i,
      cells.findIdx? (fun cell => target.owns cell.parsed) = some i := by
    intro target htarget
    obtain ⟨⟨spliced, hspliced⟩, -⟩ := htargets target htarget
    obtain ⟨k, -, -, -, -, -, hk, -⟩ := h.exists_of_splice htext.symm hspliced
    exact ⟨k, hk⟩
  obtain ⟨out, later, hfold, hlater, hout, hgaps⟩ := exists_foldlM_splice h htext.symm targets hfound
    fun target htarget => (htargets target htarget).2
  refine ⟨out, hfold, fun first hfirst hbefore => ?_⟩
  rw [← htext, h.scan_getElem?, Option.map_eq_some_iff] at hfirst
  obtain ⟨cell, hcell, rfl⟩ := hfirst
  have hgap : cell.gap = [] := hbefore
  have hgaps := hgaps 0
  rw [hcell, Option.map_some, hgap, Option.map_some] at hgaps
  rw [hout, hlater.scan_getElem?]
  rcases hgaps with hgaps | hgaps
  · obtain ⟨new, hnew, hnewGap⟩ := Option.map_eq_some_iff.1 hgaps
    exact ⟨_, by rw [hnew, Option.map_some], .inl hnewGap⟩
  · obtain ⟨new, hnew, hnewGap⟩ := Option.map_eq_some_iff.1 hgaps
    exact ⟨_, by rw [hnew, Option.map_some], .inr hnewGap⟩

/-- Of two records that have blocks in a text and entries that can be written: if they differ in
date, title or query, they can be written in either order with the same result; if they do not, the
second one replaces the first one, unless it would have changed nothing by itself. Any number of
writes puts at most one line feed in front of a block that begins the text. -/
theorem splice_cells {text outA outB : String} {a b : Record}
    (ha : splice text a = .ok outA) (hb : splice text b = .ok outB)
    (haWritable : ∀ entry ∈ a.entries.toList, entry.Writable)
    (hbWritable : ∀ entry ∈ b.entries.toList, entry.Writable) :
    (a.sameHead b = false → ∃ out, splice outA b = .ok out ∧ splice outB a = .ok out) ∧
    (a.sameHead b = true → ∀ located, locate text.toList b = .ok located →
      b.entries ≠ located.record.entries → splice outA b = .ok outB) ∧
    ∀ targets : List Record, (∀ target ∈ targets, (∃ out, splice text target = .ok out) ∧
        ∀ entry ∈ target.entries.toList, entry.Writable) →
      ∃ out, targets.foldlM splice text = .ok out ∧
        ∀ first, (Cut.scan text.toList)[0]? = some first → first.before = [] →
          ∃ later, (Cut.scan out.toList)[0]? = some later ∧
            (later.before = [] ∨ later.before = ['\n']) := by
  refine ⟨fun hhead => ?_, fun hhead located hlocated hne => ?_, exists_foldlM_splice_before⟩
  · exact exists_splice_comm ha hb haWritable hbWritable hhead
  · exact splice_splice ha hb haWritable hhead hlocated hne

/-- A block at the beginning of a text and one behind it that is not closed. -/
theorem splice_cells_choir :
    let text := "```attendance\ndate: 2024-1-5\ntitle: Choir\nquery: #alto\n```notes" ++
      "```attendance\ndate: 2024-1-12\ntitle: Choir\nquery: #alto"
    let on (date : Date) (entry : Entry) : Record :=
      ⟨date, "Choir", .tag "alto", "", ⟨[entry], by simp⟩⟩
    let a := on ⟨2024, 1, 5, by decide, by decide, by decide⟩ ⟨"Ann", "here", ""⟩
    let a' := on ⟨2024, 1, 5, by decide, by decide, by decide⟩ ⟨"Ann", "away", "ill"⟩
    let b := on ⟨2024, 1, 12, by decide, by decide, by decide⟩ ⟨"Bob", "here", ""⟩
    let closing := "notes```attendance\ndate: 2024-1-12\ntitle: Choir\nquery: #alto"
    let outA := "\n```attendance\ndate: 2024-01-05\ntitle: Choir\nquery: #alto\n" ++
      "- [[Ann]], \"here\", \"\"\n```" ++ closing
    let outA' := "\n```attendance\ndate: 2024-01-05\ntitle: Choir\nquery: #alto\n" ++
      "- [[Ann]], \"away\", \"ill\"\n```" ++ closing
    let outB := "```attendance\ndate: 2024-1-5\ntitle: Choir\nquery: #alto\n```notes" ++
      "```attendance\ndate: 2024-01-12\ntitle: Choir\nquery: #alto\n- [[Bob]], \"here\", \"\"\n```"
    splice text a = .ok outA ∧ splice text a' = .ok outA' ∧ splice text b = .ok outB ∧
      (∀ target ∈ [a, b, a'], ∀ entry ∈ target.entries.toList, entry.Writable) ∧
      (∃ out, splice outA b = .ok out ∧ splice outB a = .ok out) ∧
      splice outA a' = .ok outA' ∧
      ∃ out, [a, b, a'].foldlM splice text = .ok out ∧
        ∃ later, (Cut.scan out.toList)[0]? = some later ∧
          (later.before = [] ∨ later.before = ['\n']) := by
  intro text on a a' b closing outA outA' outB
  obtain ⟨ha, ha', hb, hread, hbefore⟩ : splice text a = .ok outA ∧ splice text a' = .ok outA' ∧
      splice text b = .ok outB ∧
      (locate text.toList a').toOption.map (·.record.entries) = some ∅ ∧
      (Cut.scan text.toList)[0]?.map Cut.before = some [] := by
    decide +kernel
  have hwritable : ∀ target ∈ [a, b, a'], ∀ entry ∈ target.entries.toList, entry.Writable := by
    decide +kernel
  obtain ⟨hcomm, -, hmany⟩ := splice_cells ha hb (hwritable a (by simp)) (hwritable b (by simp))
  obtain ⟨-, hover, -⟩ := splice_cells ha ha' (hwritable a (by simp)) (hwritable a' (by simp))
  obtain ⟨out, hout, hlead⟩ := hmany [a, b, a'] (by
    simp only [List.forall_mem_cons, List.not_mem_nil, false_imp_iff, implies_true, and_true]
    exact ⟨⟨⟨outA, ha⟩, hwritable a (by simp)⟩, ⟨⟨outB, hb⟩, hwritable b (by simp)⟩,
      ⟨⟨outA', ha'⟩, hwritable a' (by simp)⟩⟩)
  obtain ⟨located, hlocate, hentries⟩ : ∃ located, locate text.toList a' = .ok located ∧
      located.record.entries = ∅ := by
    cases hlocate : locate text.toList a' with
    | error error =>
      rw [hlocate] at hread
      cases hread
    | ok located =>
      rw [hlocate] at hread
      exact ⟨located, rfl, Option.some.inj hread⟩
  obtain ⟨first, hfirst, hnil⟩ := Option.map_eq_some_iff.1 hbefore
  refine ⟨ha, ha', hb, hwritable, hcomm (by decide), hover (by decide) located hlocate ?_, out, hout,
    hlead first hfirst hnil⟩
  rw [hentries]
  decide +kernel

/-! ## A record that is written back -/

/-- A record that was read from a block can be written back. This leaves the text as it is exactly
if the first block with the date, title and query of the record has its entries. -/
theorem splice_self_iff {text : String} {block : Block} {record : Record}
    (hblock : block ∈ Block.scan text) (hparsed : block.parsed = .ok record) :
    (∃ out, splice text record = .ok out) ∧
    (splice text record = .ok text ↔ ∃ located, locate text.toList record = .ok located ∧
      located.record.entries = record.entries) := by
  obtain ⟨cut, hcut, rfl⟩ := List.mem_map.1 hblock
  have hcutParsed : cut.parsed = .ok record := hparsed
  have hself : record.sameHead record = true := sameHead_iff.2 ⟨rfl, rfl, rfl⟩
  have howns : record.owns cut.parsed = true := Record.owns_iff.2 ⟨record, hcutParsed, hself⟩
  obtain ⟨i, hi⟩ : ∃ i, (Cut.scan text.toList).findIdx? (fun cut => record.owns cut.parsed) = some i := by
    rw [← Option.isSome_iff_exists, List.findIdx?_isSome, List.any_eq_true]
    exact ⟨cut, hcut, howns⟩
  obtain ⟨first, found, hfirst⟩ := exists_firstBlock_iff.2 hi
  have hlocated : locate text.toList record = .ok ⟨first, found⟩ := locate_eq_ok_iff.2 ⟨i, hfirst⟩
  refine ⟨⟨String.ofList _, splice_eq_ok_iff.2 ⟨i, first, found, hfirst, String.toList_ofList⟩⟩, ?_, ?_⟩
  · intro hsplice
    have hwritable := Cut.writable_of_parsed hcut hcutParsed
    obtain ⟨k, old, new, oldRecord, hold, hnew, -⟩ := exists_replaced hsplice hwritable
    -- the block of the record holds the record's entries after the splice, that is, before it too
    obtain rfl : old = new := Option.some.inj (hold.at_place.symm.trans hnew.at_place)
    have hentries := Except.ok.inj (hold.parsed_eq.symm.trans hnew.parsed_eq)
    have hsame := congrArg Record.entries hentries
    exact ⟨⟨old, oldRecord⟩, locate_eq_ok_iff.2 ⟨k, hold⟩, hsame⟩
  · rintro ⟨located, hagain, hentries⟩
    rw [hlocated] at hagain
    obtain rfl := Except.ok.inj hagain
    exact splice_eq_ok_iff.2 ⟨i, first, found, hfirst, by rw [if_pos hentries.symm]⟩

/-- The record of the first of two blocks with the same date, title and query. -/
theorem splice_self_choir :
    let text := "```attendance\ndate: 2024-1-5\ntitle: Choir\nquery: #alto\n- [[Ann]]\n```" ++
      "```attendance\ndate: 2024-1-5\ntitle: Choir\nquery: #alto"
    let record : Record := ⟨⟨2024, 1, 5, by decide, by decide, by decide⟩, "Choir", .tag "alto",
      "#alto", ⟨[⟨"Ann", "", ""⟩], by decide⟩⟩
    ∃ block ∈ Block.scan text, block.parsed = .ok record ∧ splice text record = .ok text := by
  intro text record
  obtain ⟨hscan, hread⟩ : (Block.scan text)[0]?.map Block.parsed = some (.ok record) ∧
      (locate text.toList record).toOption.map (·.record.entries) = some record.entries := by
    decide +kernel
  obtain ⟨block, hget, hparsed⟩ := Option.map_eq_some_iff.1 hscan
  have hblock := List.mem_of_getElem? hget
  refine ⟨block, hblock, hparsed, (splice_self_iff hblock hparsed).2.2 ?_⟩
  cases hlocate : locate text.toList record with
  | error error =>
    rw [hlocate] at hread
    cases hread
  | ok located =>
    rw [hlocate] at hread
    exact ⟨located, rfl, Option.some.inj hread⟩

/-- The record of the second of two blocks with the same date, title and query does not come back to
its block: its entries are written into the first one. -/
theorem splice_self_twin :
    let choir := "```attendance\ndate: 2024-01-05\ntitle: Choir\nquery: #alto\n"
    let text := "\n" ++ choir ++ "```\n" ++ choir ++ "- [[Ann]], \"here\", \"\"\n```\n"
    let out := "\n" ++ choir ++ "- [[Ann]], \"here\", \"\"\n```\n" ++
      choir ++ "- [[Ann]], \"here\", \"\"\n```\n"
    ∃ block ∈ Block.scan text, ∃ record, block.parsed = .ok record ∧
      splice text record = .ok out ∧ out ≠ text := by
  intro choir text out
  let record : Record := ⟨⟨2024, 1, 5, by decide, by decide, by decide⟩, "Choir", .tag "alto",
    "#alto", ⟨[⟨"Ann", "here", ""⟩], by decide⟩⟩
  obtain ⟨hscan, hsplice, hne⟩ : (Block.scan text)[1]?.map Block.parsed = some (.ok record) ∧
      splice text record = .ok out ∧ out ≠ text := by
    decide +kernel
  obtain ⟨block, hget, hparsed⟩ := Option.map_eq_some_iff.1 hscan
  exact ⟨block, List.mem_of_getElem? hget, record, hparsed, hsplice, hne⟩

end RollCall
