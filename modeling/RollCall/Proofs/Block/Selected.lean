import RollCall.Proofs.Block.Places
import RollCall.Proofs.Command.RecordState

/-!
# The block that a selection leads to

A block is read by its date or title and written by its date, title and query, so that two searches
have to find the same one. They do (`locate_of_pick`): a block with the head of the record that was
selected satisfies the selection as well, and only one block does.
-/

namespace RollCall

/-- Nothing outside the range of the block has changed. Only a block at the very beginning may have
got a line feed in front. -/
def Block.Overwritten (block : Block) (text out : String) : Prop :=
  ∃ before inside after lead written, text.toList = before ++ inside ++ after ∧
    Text.bytes before = block.start ∧ Text.bytes (before ++ inside) = block.stop ∧
    out.toList = lead ++ written ++ after ∧ (lead = before ∨ before = [] ∧ lead = ['\n'])

namespace FirstBlock

variable {text : String} {target record : Record} {i : Nat} {cut : Cut}

theorem locate_eq (h : FirstBlock text.toList target i cut record) :
    locate text.toList target = .ok ⟨cut, record⟩ :=
  locate_eq_ok_iff.2 ⟨i, h⟩

/-- A splice writes within the block of its target, whatever is written. -/
theorem exists_overwritten (h : FirstBlock text.toList target i cut record) :
    ∃ out, splice text target = .ok out ∧ cut.block.Overwritten text out := by
  have hpieces : cut.before ++ cut.inside ++ cut.after = text.toList :=
    (Cut.text_of_mem_scan (List.mem_of_getElem? h.at_place)).1
  refine ⟨String.ofList _, splice_eq_ok_iff.2 ⟨i, cut, record, h, String.toList_ofList⟩, ?_⟩
  rw [Block.Overwritten, String.toList_ofList]
  by_cases hsame : target.entries = record.entries
  · rw [if_pos hsame]
    exact ⟨cut.before, cut.inside, cut.after, cut.before, cut.inside, hpieces.symm, rfl,
      cut.stop_eq.symm, hpieces.symm, .inl rfl⟩
  · rw [if_neg hsame]
    refine ⟨cut.before, cut.inside, cut.after, _, _, hpieces.symm, rfl, cut.stop_eq.symm, rfl, ?_⟩
    by_cases hbefore : cut.before = []
    · exact .inr ⟨hbefore, if_pos hbefore⟩
    · exact .inl (if_neg hbefore)

end FirstBlock

/-- The block that a selection names is the first one of any target with the head of its record. -/
theorem Selection.Names.exists_firstBlock {selection : Selection} {text : String} {i : Nat}
    {record : Record} (h : selection.Names text i record) (target : Record)
    (hhead : record.sameHead target = true) :
    ∃ cut, (Block.scan text)[i]? = some cut.block ∧ FirstBlock text.toList target i cut record := by
  have hplace := h.at_place
  rw [Block.parsed_getElem?_scan, Option.map_eq_some_iff] at hplace
  obtain ⟨cut, hcut, hparsed⟩ := hplace
  refine ⟨cut, by rw [Block.scan, List.getElem?_map, hcut, Option.map_some], hcut, hparsed, hhead,
    fun j hj other hother found hfound => ?_⟩
  rw [← Bool.not_eq_true]
  intro hsame
  -- an earlier block of the target would be accepted as well
  have haccepted : selection.accepts found = true := by
    rw [accepts_of_sameHead hsame, ← accepts_of_sameHead hhead, h.accepted]
  have hread : ((Block.scan text)[j]?).map Block.parsed = some (.ok found) := by
    rw [Block.parsed_getElem?_scan, hother, Option.map_some, hfound]
  exact absurd (h.only j found hread haccepted) (Nat.ne_of_lt hj)

/-- The block that a selection names is the one that its record is written into, whatever state is
recorded: it is located, and a splice changes nothing outside its range. -/
theorem locate_of_pick {selection : Selection} {path text : String} {record : Record}
    (h : selection.pick path (DocumentBlock.scan path text) = .ok record) :
    ∃ i block, (Block.scan text)[i]? = some block ∧ selection.Names text i record ∧
      ∀ link state note,
        (∃ located, locate text.toList (record.withState link state note) = .ok located ∧
          located.cut.block = block ∧ located.record = record) ∧
        ∃ out, splice text (record.withState link state note) = .ok out ∧
          block.Overwritten text out := by
  obtain ⟨i, hnames⟩ := Selection.pick_scan_eq_ok_iff.1 h
  obtain ⟨cut, hcut, -⟩ := hnames.exists_firstBlock record (sameHead_iff.2 ⟨rfl, rfl, rfl⟩)
  refine ⟨i, cut.block, hcut, hnames, fun link state note => ?_⟩
  obtain ⟨found, hfound, hfirst⟩ :=
    hnames.exists_firstBlock (record.withState link state note) (sameHead_iff.2 ⟨rfl, rfl, rfl⟩)
  have hblock : found.block = cut.block := Option.some.inj (hfound.symm.trans hcut)
  obtain ⟨out, hsplice, hframe⟩ := hfirst.exists_overwritten
  exact ⟨⟨⟨found, record⟩, hfirst.locate_eq, hblock, rfl⟩, out, hsplice, hblock ▸ hframe⟩

/-- A block that cannot be read begins the text, and the selected one stands behind another with the
same title and the same query. What is recorded could not be read back. -/
theorem locate_of_pick_choir :
    let front := "```attendance\n- Ann```" ++
      "```attendance\ndate: 2024-1-5\ntitle: Choir\nquery: #alto\n```\n"
    let text := front ++ "```attendance\ndate: 2024-1-12\ntitle: Choir\nquery: #alto\n```\n"
    let selection : Selection := ⟨some ⟨2024, 1, 12, by decide, by decide, by decide⟩, none⟩
    let record : Record :=
      ⟨⟨2024, 1, 12, by decide, by decide, by decide⟩, "Choir", .tag "alto", "#alto", ∅⟩
    let target := record.withState "Ann" "here" "late\n```"
    selection.pick "d.md" (DocumentBlock.scan "d.md" text) = .ok record ∧
      (∃ located, locate text.toList target = .ok located ∧ located.cut.start = front.utf8ByteSize ∧
        located.record = record) ∧
      ∃ block out, (Block.scan text)[2]? = some block ∧ splice text target = .ok out ∧
        block.Overwritten text out := by
  intro front text selection record target
  have hpick : selection.pick "d.md" (DocumentBlock.scan "d.md" text) = .ok record := by
    decide +kernel
  obtain ⟨hplace, hstart⟩ : ((Block.scan text)[2]?).map Block.parsed = some (.ok record) ∧
      ((Block.scan text)[2]?).map Block.start = some front.utf8ByteSize := by
    decide +kernel
  obtain ⟨i, block, hblock, hnames, hwrites⟩ := locate_of_pick hpick
  obtain rfl : 2 = i := hnames.only 2 record hplace hnames.accepted
  obtain ⟨⟨located, hlocated, hcut, hrecord⟩, out, hsplice, hframe⟩ :=
    hwrites "Ann" "here" "late\n```"
  rw [hblock, Option.map_some, Option.some.injEq] at hstart
  exact ⟨hpick, ⟨located, hlocated, by rw [← hstart, ← hcut]; rfl, hrecord⟩, block, out, hblock,
    hsplice, hframe⟩

end RollCall
