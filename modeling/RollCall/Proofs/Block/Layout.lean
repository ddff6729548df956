import RollCall.Proofs.Block.Owner

/-!
# The layout of a document

A document is a row of cells, each a block with the text in front of it, and what follows the last
block. Scanning it gives back the cells (`Proper.scan_getElem?`), and writing a record changes one
cell and no other (`splice_assemble_iff`). Which cell that is depends on none of the entries
(`Proper.findIdx?_write`), so that writes to a document are writes to independent cells.
-/

namespace RollCall

/-- A block and the text between it and the block in front of it. -/
structure Cell where
  /-- The text in front of the block. -/
  gap : List Char
  /-- The text between the fences. -/
  body : List Char
  /-- Whether there is a closing fence. -/
  closed : Bool

namespace Cell

/-- The block in front of other text. -/
def cut (cell : Cell) (after : List Char) : Cut :=
  ⟨cell.gap, cell.body, cell.closed, after⟩

/-- The characters of the cell. -/
def chars (cell : Cell) : List Char :=
  cell.gap ++ (cell.cut []).inside

/-- The record of the block, or why it has none. -/
def parsed (cell : Cell) : Except BodyError Record :=
  Record.ofBody cell.body

theorem text_cut (cell : Cell) (after : List Char) : (cell.cut after).text = cell.chars ++ after := rfl

theorem chars_ne_nil (cell : Cell) : cell.chars ≠ [] := by
  rw [chars, Cut.inside, openingFence_eq_cons]
  simp

end Cell

/-- The text that consists of the cells and the rest behind them. -/
def assemble (cells : List Cell) (rest : List Char) : List Char :=
  cells.flatMap Cell.chars ++ rest

theorem assemble_nil (rest : List Char) : assemble [] rest = rest := rfl

theorem assemble_cons (cell : Cell) (cells : List Cell) (rest : List Char) :
    assemble (cell :: cells) rest = cell.chars ++ assemble cells rest := by
  rw [assemble, List.flatMap_cons, List.append_assoc]
  rfl

/-- The cells are the blocks of the text that they make up. -/
inductive Proper : List Cell → List Char → Prop
  /-- There is no block in the rest. -/
  | rest {rest : List Char} (none : Cut.first? rest = none) : Proper [] rest
  /-- The first cell is the first block, and the other cells are the blocks behind it. -/
  | cell {cell : Cell} {cells : List Cell} {rest : List Char}
      (leading : (cell.cut (assemble cells rest)).Leading) (behind : Proper cells rest) :
      Proper (cell :: cells) rest

/-- Every text has a layout. -/
theorem exists_proper (text : List Char) : ∃ cells rest, Proper cells rest ∧ assemble cells rest = text := by
  induction text using Cut.text_induction with
  | plain text hfirst => exact ⟨[], text, .rest hfirst, rfl⟩
  | block cut hleading ih =>
    obtain ⟨cells, rest, hproper, htext⟩ := ih
    refine ⟨⟨cut.before, cut.body, cut.closed⟩ :: cells, rest, .cell ?_ hproper, ?_⟩
    · rw [htext]
      exact hleading
    · rw [assemble_cons, htext, ← Cell.text_cut]
      rfl

namespace Proper

variable {cells : List Cell} {rest : List Char} {i : Nat} {cell : Cell}

/-- The blocks of the text are the cells, each with the cells around it. -/
theorem scan_getElem? (h : Proper cells rest) (i : Nat) :
    (Cut.scan (assemble cells rest))[i]? = (cells[i]?).map fun cell =>
      ⟨assemble (cells.take i) cell.gap, cell.body, cell.closed, assemble (cells.drop (i + 1)) rest⟩ := by
  induction h generalizing i with
  | rest hnone =>
    rw [assemble_nil, Cut.scan_of_first?_eq_none hnone]
    rfl
  | @cell cell cells rest hleading behind ih =>
    rw [assemble_cons, ← Cell.text_cut, hleading.scan_text]
    cases i with
    | zero => rfl
    | succ i =>
      rw [List.getElem?_cons_succ, List.getElem?_map, List.getElem?_cons_succ]
      have hbehind := ih i
      rw [show (cell.cut (assemble cells rest)).after = assemble cells rest from rfl, hbehind,
        Option.map_map]
      refine Option.map_congr fun inner _ => ?_
      simp only [Function.comp_apply, Cut.shift, List.take_succ_cons, List.drop_succ_cons, assemble_cons]
      rfl

theorem map_parsed_scan (h : Proper cells rest) :
    (Cut.scan (assemble cells rest)).map Cut.parsed = cells.map Cell.parsed := by
  refine List.ext_getElem? fun i => ?_
  rw [List.getElem?_map, h.scan_getElem?, List.getElem?_map, Option.map_map]
  rfl

/-- A cell stays in its place when another body is put in it. -/
theorem set (h : Proper cells rest) (hget : cells[i]? = some cell) {new : Cell}
    (hopens : OpensAtEnd new.gap) (hclosed : new.closed = true)
    (hword : WordEnds (new.body ++ closingFence)) (hstops : Text.OnlyAtEnd closingFence new.body) :
    Proper (cells.set i new) rest := by
  induction h generalizing i with
  | rest hnone => simp at hget
  | @cell first cells rest hleading behind ih =>
    cases i with
    | zero =>
      refine .cell ⟨hopens, ?_, fun _ => hstops, fun hopen => ?_⟩ behind
      · simpa [Cell.cut, hclosed] using hword
      · simp [Cell.cut, hclosed] at hopen
    | succ i =>
      rw [List.getElem?_cons_succ] at hget
      refine .cell ⟨hleading.opens, hleading.word_ends, hleading.stops, fun hopen => ?_⟩ (ih hget)
      -- the first block has a cell behind it, so it is closed
      obtain ⟨-, hafter⟩ := hleading.runs hopen
      obtain ⟨hi, -⟩ := List.getElem?_eq_some_iff.1 hget
      cases cells with
      | nil => simp at hi
      | cons second cells =>
        have hnil : second.chars ++ assemble cells rest = [] := by
          rw [← assemble_cons]
          exact hafter
        exact absurd (List.append_eq_nil_iff.1 hnil).1 second.chars_ne_nil

theorem opens (h : Proper cells rest) (hget : cells[i]? = some cell) : OpensAtEnd cell.gap := by
  induction h generalizing i with
  | rest hnone => simp at hget
  | cell hleading behind ih =>
    cases i with
    | zero =>
      obtain rfl := Option.some.inj hget
      exact hleading.opens
    | succ i => exact ih hget

end Proper

/-! ## Writing into a cell -/

theorem assemble_append (front behind : List Cell) (rest : List Char) :
    assemble (front ++ behind) rest = assemble front (assemble behind rest) := by
  rw [assemble, assemble, assemble, List.flatMap_append, List.append_assoc]

theorem assemble_append_rest (cells : List Cell) (a b : List Char) :
    assemble cells (a ++ b) = assemble cells a ++ b := by
  rw [assemble, assemble, List.append_assoc]

theorem assemble_modify {cells : List Cell} {i : Nat} {cell : Cell} (hget : cells[i]? = some cell)
    (f : Cell → Cell) (rest : List Char) :
    assemble (cells.modify i f) rest =
      assemble (cells.take i) ((f cell).chars ++ assemble (cells.drop (i + 1)) rest) := by
  obtain ⟨hi, rfl⟩ := List.getElem?_eq_some_iff.1 hget
  rw [List.modify_eq_take_cons_drop hi, assemble_append, assemble_cons]

/-- The text in front of a block that is written. A block at the very beginning gets a line feed. -/
def Cell.lead (i : Nat) (gap : List Char) : List Char :=
  if i = 0 ∧ gap = [] then ['\n'] else gap

/-- The cell at the place with the target's entries, which stays as it is if it holds them. -/
def Cell.write (i : Nat) (target : Record) (cell : Cell) : Cell :=
  match cell.parsed with
  | .error _ => cell
  | .ok record =>
    if target.entries = record.entries then cell
    else ⟨lead i cell.gap, '\n' :: Record.chars { record with entries := target.entries }, true⟩

namespace Cell

theorem write_of_parsed {cell : Cell} {record : Record} (h : cell.parsed = .ok record) (i : Nat)
    (target : Record) :
    cell.write i target = if target.entries = record.entries then cell
      else ⟨lead i cell.gap, '\n' :: Record.chars { record with entries := target.entries }, true⟩ := by
  rw [write, h]

theorem lead_lead (i : Nat) (gap : List Char) : lead i (lead i gap) = lead i gap := by
  by_cases h : i = 0 ∧ gap = []
  · simp [lead, h]
  · simp only [lead, if_neg h]

/-- The text in front of the cell as a splice writes it. -/
theorem assemble_take_lead {cells : List Cell} {i : Nat} (hi : i < cells.length) (gap : List Char) :
    assemble (cells.take i) (lead i gap) =
      if assemble (cells.take i) gap = [] then ['\n'] else assemble (cells.take i) gap := by
  cases i with
  | zero =>
    rw [List.take_zero, assemble_nil, assemble_nil]
    by_cases hgap : gap = [] <;> simp [lead, hgap]
  | succ i =>
    cases cells with
    | nil => simp at hi
    | cons first cells =>
      have hne : assemble ((first :: cells).take (i + 1)) gap ≠ [] := by
        rw [List.take_succ_cons, assemble_cons]
        exact fun hnil => first.chars_ne_nil (List.append_eq_nil_iff.1 hnil).1
      have hlead : lead (i + 1) gap = gap := if_neg fun h => Nat.succ_ne_zero i h.1
      rw [if_neg hne, hlead]

theorem chars_written (gap : List Char) (record : Record) :
    chars ⟨gap, '\n' :: record.chars, true⟩ = gap ++ record.fenced := by
  simp [chars, cut, Cut.inside, Record.fenced]

end Cell

namespace Proper

variable {cells : List Cell} {rest : List Char} {i : Nat} {cell : Cell} {target record : Record}

theorem findIdx?_scan (h : Proper cells rest) (target : Record) :
    (Cut.scan (assemble cells rest)).findIdx? (fun cut => target.owns cut.parsed) =
      cells.findIdx? fun cell => target.owns cell.parsed := by
  have hparsed := congrArg (List.findIdx? target.owns) h.map_parsed_scan
  rw [List.findIdx?_map, List.findIdx?_map] at hparsed
  exact hparsed

/-- The first block of a target is the first cell that belongs to it. -/
theorem firstBlock (h : Proper cells rest) {cut : Cut}
    (hfirst : FirstBlock (assemble cells rest) target i cut record) :
    ∃ cell, cells[i]? = some cell ∧ cell.parsed = .ok record ∧
      cut = ⟨assemble (cells.take i) cell.gap, cell.body, cell.closed,
        assemble (cells.drop (i + 1)) rest⟩ := by
  have hplace := hfirst.at_place
  rw [h.scan_getElem?, Option.map_eq_some_iff] at hplace
  obtain ⟨cell, hget, rfl⟩ := hplace
  exact ⟨cell, hget, hfirst.parsed_eq, rfl⟩

/-- What a splice makes of the first block of its target is the cell with the target's entries. -/
theorem spliced_eq (h : Proper cells rest) {cut : Cut}
    (hfirst : FirstBlock (assemble cells rest) target i cut record) :
    (if target.entries = record.entries then assemble cells rest
      else (if cut.before = [] then ['\n'] else cut.before) ++
        Record.fenced { record with entries := target.entries } ++ cut.after) =
      assemble (cells.modify i (Cell.write i target)) rest := by
  obtain ⟨cell, hget, hparsed, rfl⟩ := h.firstBlock hfirst
  obtain ⟨hi, -⟩ := List.getElem?_eq_some_iff.1 hget
  rw [assemble_modify hget, Cell.write_of_parsed hparsed]
  split
  · have hself := assemble_modify hget id rest
    rwa [List.modify_id] at hself
  · rw [Cell.chars_written, ← Cell.assemble_take_lead hi, List.append_assoc, List.append_assoc,
      ← assemble_append_rest]

end Proper

/-- A splice writes into the first cell that belongs to its target, and fails only if there is
none. -/
theorem splice_assemble_iff {text out : String} {target : Record} {cells : List Cell}
    {rest : List Char} (h : Proper cells rest) (htext : text.toList = assemble cells rest) :
    splice text target = .ok out ↔
      ∃ i, cells.findIdx? (fun cell => target.owns cell.parsed) = some i ∧
        out.toList = assemble (cells.modify i (Cell.write i target)) rest := by
  rw [splice_eq_ok_iff, htext]
  constructor
  · rintro ⟨i, cut, record, hfirst, hout⟩
    refine ⟨i, ?_, ?_⟩
    · rw [← h.findIdx?_scan]
      exact exists_firstBlock_iff.1 ⟨cut, record, hfirst⟩
    · rw [hout, h.spliced_eq hfirst]
  · rintro ⟨i, hi, hout⟩
    rw [← h.findIdx?_scan] at hi
    obtain ⟨cut, record, hfirst⟩ := exists_firstBlock_iff.2 hi
    exact ⟨i, cut, record, hfirst, by rw [hout, h.spliced_eq hfirst]⟩

/-! ## What a write leaves alone -/

namespace Proper

variable {cells : List Cell} {rest : List Char} {i : Nat} {cell : Cell} {target record : Record}

theorem opensAtEnd_lead {gap : List Char} (h : OpensAtEnd gap) (i : Nat) :
    OpensAtEnd (Cell.lead i gap) := by
  by_cases hlead : i = 0 ∧ gap = []
  · have hopening : cutOpening? ('\n' :: openingFence) = some (['\n'], []) := by
      rw [cutOpening?_newline, show cutOpening? openingFence = some ([], []) from opensAtEnd_nil]
      rfl
    rw [Cell.lead, if_pos hlead]
    exact hopening
  · rwa [Cell.lead, if_neg hlead]

theorem modify_eq_set (hget : cells[i]? = some cell) (f : Cell → Cell) :
    cells.modify i f = cells.set i (f cell) := by
  rw [List.modify_eq_set_getElem?, hget]
  rfl

/-- A written cell holds the target's entries, and the cells are laid out as before. -/
theorem write (h : Proper cells rest) (hget : cells[i]? = some cell)
    (hparsed : cell.parsed = .ok record)
    (hentries : ∀ entry ∈ target.entries.toList, entry.Writable) :
    Proper (cells.modify i (Cell.write i target)) rest ∧
      (cell.write i target).parsed = .ok { record with entries := target.entries } := by
  rw [modify_eq_set hget, Cell.write_of_parsed hparsed]
  by_cases hsame : target.entries = record.entries
  · have hself : cells.set i cell = cells := by
      obtain ⟨hi, rfl⟩ := List.getElem?_eq_some_iff.1 hget
      exact List.set_getElem_self hi
    rw [if_pos hsame, hself, withEntries_eq_iff.2 hsame]
    exact ⟨h, hparsed⟩
  · have hcut : Cut.mk (assemble (cells.take i) cell.gap) cell.body cell.closed
        (assemble (cells.drop (i + 1)) rest) ∈ Cut.scan (assemble cells rest) := by
      refine List.mem_of_getElem? (i := i) ?_
      rw [h.scan_getElem?, hget]
      rfl
    obtain ⟨hlegible, hstops⟩ := readable_withEntries hcut hparsed hentries
    rw [if_neg hsame]
    refine ⟨h.set hget (opensAtEnd_lead (h.opens hget) i) rfl (wordEnds_newline _) hstops, ?_⟩
    exact (Record.ofBody_newline _).trans hlegible.ofBody_chars_eq

/-- Writing entries moves no record to another cell. -/
theorem findIdx?_write (h : Proper cells rest) (hget : cells[i]? = some cell)
    (hparsed : cell.parsed = .ok record)
    (hentries : ∀ entry ∈ target.entries.toList, entry.Writable) (other : Record) :
    (cells.modify i (Cell.write i target)).findIdx? (fun cell => other.owns cell.parsed) =
      cells.findIdx? fun cell => other.owns cell.parsed := by
  have howns : (cells.modify i (Cell.write i target)).map (fun cell => other.owns cell.parsed) =
      cells.map fun cell => other.owns cell.parsed := by
    refine List.ext_getElem? fun j => ?_
    rw [List.getElem?_map, List.getElem?_map, List.getElem?_modify]
    by_cases hij : i = j
    · subst hij
      have hwritten := (h.write hget hparsed hentries).2
      simp only [hget, if_true, Option.map_eq_map, Option.map_some, hwritten, hparsed]
      rfl
    · simp only [if_neg hij, Option.map_eq_map, Option.map_id']
  have hidx := congrArg (List.findIdx? id) howns
  rw [List.findIdx?_map, List.findIdx?_map] at hidx
  exact hidx

end Proper

end RollCall
