import RollCall.Proofs.Block.Owner
import RollCall.Proofs.Block.Places

/-!
# Walking through a document

The blocks of a document can be found one after the other: each search begins at the byte offset
behind the block that was found last. Collecting all blocks on the way (`walk`) and stopping at the
first one that belongs to a record (`seek`) are two loops, which take their turns in a different
order. Both find what the scan finds (`Block.scan_exact`).
-/

namespace RollCall.Block

/-! ## One turn -/

theorem next?_eq_some {text : String} {offset : Nat} {block : Block}
    (h : next? text offset = some block) :
    ∃ lead cut, cut ∈ Cut.first? (text.toList.drop lead.length) ∧ lead <+: text.toList ∧
      Text.bytes lead = min offset (Text.bytes text.toList) ∧ (cut.shift lead).block = block := by
  rw [next?] at h
  cases hsplit : Text.splitAtByte? (min offset (Text.bytes text.toList)) text.toList with
  | none => simp [hsplit] at h
  | some sides =>
    obtain ⟨lead, rest⟩ := sides
    obtain ⟨htext, hbytes⟩ := Text.append_of_splitAtByte? hsplit
    simp only [hsplit, Option.map_eq_some_iff] at h
    obtain ⟨cut, hcut, hblock⟩ := h
    refine ⟨lead, cut, ?_, ⟨rest, htext⟩, hbytes, hblock⟩
    rw [← htext, List.drop_left]
    exact hcut

/-- A search only finds a block in front of the end, and the block ends further on. -/
theorem lt_of_next? {text : String} {offset : Nat} {block : Block}
    (h : next? text offset = some block) :
    offset < Text.bytes text.toList ∧ offset < block.stop := by
  obtain ⟨lead, cut, hcut, ⟨rest, htext⟩, hbytes, rfl⟩ := next?_eq_some h
  rw [← htext, List.drop_left] at hcut
  have hpieces := (Cut.first?_eq_some_iff.1 hcut).1
  have hrest : 0 < Text.bytes rest := by
    have hinside := Text.bytes_pos cut.inside_ne_nil
    rw [← hpieces, Cut.text, Text.bytes_append, Text.bytes_append]
    omega
  have htotal : Text.bytes text.toList = Text.bytes lead + Text.bytes rest := by
    rw [← htext, Text.bytes_append]
  have hstop : (cut.shift lead).block.stop = Text.bytes lead + cut.stop := Cut.stop_shift lead cut
  have hlt := cut.start_lt_stop
  omega

/-- The next block behind a part of the text is the first one of the rest. -/
theorem next?_bytes {text : String} {lead rest : List Char} (htext : text.toList = lead ++ rest) :
    next? text (Text.bytes lead) = (Cut.first? rest).map fun cut => (cut.shift lead).block := by
  have hmin : min (Text.bytes lead) (Text.bytes text.toList) = Text.bytes lead := by
    rw [htext, Text.bytes_append]
    omega
  rw [next?, hmin, htext, Text.splitAtByte?_bytes]

/-! ## The two loops -/

/-- Whether the block holds a record with the date, the title and the query of the target. -/
def belongsTo (target : Record) (block : Block) : Bool :=
  target.owns block.parsed

/-- The blocks from a byte offset on. A block that runs to the end of the text is the last one. -/
def walk (text : String) (offset : Nat) : List Block :=
  match _h : next? text offset with
  | none => []
  | some block => block :: if block.endOfText then [] else walk text block.stop
termination_by Text.bytes text.toList - offset
decreasing_by
  have := lt_of_next? _h
  omega

/-- The first block from a byte offset on that belongs to the target. -/
def seek (target : Record) (text : String) (offset : Nat) : Option Block :=
  match _h : next? text offset with
  | none => none
  | some block =>
    if block.belongsTo target then some block
    else if block.endOfText then none
    else seek target text block.stop
termination_by Text.bytes text.toList - offset
decreasing_by
  have := lt_of_next? _h
  omega

theorem walk_eq (text : String) (offset : Nat) :
    walk text offset = (next? text offset).elim []
      fun block => block :: if block.endOfText then [] else walk text block.stop := by
  rw [walk]
  split
  · next hnext => rw [hnext, Option.elim_none]
  · next block hnext => rw [hnext, Option.elim_some]

theorem seek_eq (target : Record) (text : String) (offset : Nat) :
    seek target text offset = (next? text offset).bind fun block =>
      if block.belongsTo target then some block
      else if block.endOfText then none
      else seek target text block.stop := by
  rw [seek]
  split
  · next hnext => rw [hnext, Option.bind_none]
  · next block hnext => rw [hnext, Option.bind_some]

/-- The loop that stops early finds the first of the blocks that the other one collects. -/
theorem seek_eq_find? (target : Record) (text : String) (offset : Nat) :
    seek target text offset = (walk text offset).find? (belongsTo target) := by
  induction offset using seek.induct target text with
  | case1 offset hnext =>
    rw [seek_eq, walk_eq, hnext]
    rfl
  | case2 offset block hnext hbelongs =>
    rw [seek_eq, walk_eq, hnext, Option.bind_some, Option.elim_some, if_pos hbelongs,
      List.find?_cons_of_pos hbelongs]
  | case3 offset block hnext hbelongs hend =>
    rw [seek_eq, walk_eq, hnext, Option.bind_some, Option.elim_some, if_neg hbelongs,
      List.find?_cons_of_neg hbelongs, if_pos hend, if_pos hend, List.find?_nil]
  | case4 offset block hnext hbelongs hend ih =>
    rw [seek_eq, walk_eq, hnext, Option.bind_some, Option.elim_some, if_neg hbelongs,
      List.find?_cons_of_neg hbelongs, if_neg hend, if_neg hend, ih]

/-- Collecting from behind a part of the text gives the blocks of the rest. -/
theorem walk_bytes {text : String} {lead rest : List Char} (htext : text.toList = lead ++ rest) :
    walk text (Text.bytes lead) = (Cut.scan rest).map fun cut => (cut.shift lead).block := by
  induction rest using Cut.text_induction generalizing lead with
  | plain rest hfirst =>
    rw [walk_eq, next?_bytes htext, hfirst, Cut.scan_of_first?_eq_none hfirst]
    rfl
  | block cut hleading ih =>
    have hturn : (if (cut.shift lead).block.endOfText then [] else
        walk text (cut.shift lead).block.stop) =
          (Cut.scan cut.after).map
            fun inner => (inner.shift (lead ++ (cut.before ++ cut.inside))).block := by
      cases hclosed : cut.closed with
      | false =>
        have hend : (cut.shift lead).block.endOfText = true := by
          simp [Cut.block, Cut.shift, hclosed]
        rw [if_pos hend, (hleading.runs hclosed).2, Cut.scan_nil, List.map_nil]
      | true =>
        have hend : (cut.shift lead).block.endOfText = false := by
          simp [Cut.block, Cut.shift, hclosed]
        have hstop : (cut.shift lead).block.stop =
            Text.bytes (lead ++ (cut.before ++ cut.inside)) := by
          rw [← List.append_assoc]
          exact Cut.stop_eq (cut.shift lead)
        have hrest : text.toList = lead ++ (cut.before ++ cut.inside) ++ cut.after := by
          rw [htext, Cut.text]
          simp
        rw [hend, hstop]
        exact ih hrest
    rw [walk_eq, next?_bytes htext, hleading.first?_text, Option.map_some, Option.elim_some, hturn,
      hleading.scan_text, List.map_cons, List.map_map]
    simp only [Function.comp_def, Cut.shift_shift]

/-- Collecting from the beginning gives the blocks that the scan reports. -/
theorem walk_zero (text : String) : walk text 0 = scan text := by
  have hwalk : walk text (Text.bytes []) = (Cut.scan text.toList).map fun cut => (cut.shift []).block :=
    walk_bytes (List.nil_append _).symm
  simpa [scan] using hwalk

/-! ## The block of a record -/

/-- Locating a record is looking for the first block that belongs to it. -/
theorem map_findSome?_locate? (target : Record) (cuts : List Cut) :
    (cuts.findSome? (Cut.locate? target)).map (·.cut.block) =
      (cuts.map Cut.block).find? (belongsTo target) := by
  induction cuts with
  | nil => rfl
  | cons cut cuts ih =>
    rw [List.findSome?_cons, List.map_cons]
    cases hlocate : cut.locate? target with
    | none =>
      have hbelongs : ¬ cut.block.belongsTo target = true := by
        rw [Bool.not_eq_true, belongsTo, Record.owns_eq_false_iff]
        exact Cut.locate?_eq_none_iff.1 hlocate
      rw [List.find?_cons_of_neg hbelongs, ← ih]
    | some located =>
      obtain ⟨hcut, hparsed, hhead⟩ := Cut.locate?_eq_some_iff.1 hlocate
      have hbelongs : cut.block.belongsTo target = true := Record.owns_iff.2 ⟨_, hparsed, hhead⟩
      rw [List.find?_cons_of_pos hbelongs, Option.map_some, hcut]

/-- The block that is located is the first one that belongs to the target; nothing is located only
if there is none. -/
theorem locate_eq_find? (text : String) (target : Record) :
    (locate text.toList target).toOption.map (·.cut.block) = (scan text).find? (belongsTo target) ∧
      (locate text.toList target = .error target.notFound ↔
        (scan text).find? (belongsTo target) = none) := by
  rw [scan, ← map_findSome?_locate?, locate]
  cases (Cut.scan text.toList).findSome? (Cut.locate? target) <;> simp [Except.toOption]

/-! ## What the scan finds -/

/-- An offset of a block is a position between two characters. -/
theorem isValid_of_mem_scan {text : String} {cut : Cut} (h : cut ∈ Cut.scan text.toList) :
    String.Pos.Raw.IsValid text ⟨cut.start⟩ ∧ String.Pos.Raw.IsValid text ⟨cut.stop⟩ := by
  have hpieces := (Cut.text_of_mem_scan h).1
  constructor
  · have hstart : text.toList = cut.before ++ (cut.inside ++ cut.after) := by
      rw [← hpieces, Cut.text, List.append_assoc]
    exact Text.isValid_bytes hstart
  · rw [Cut.stop_eq]
    exact Text.isValid_bytes hpieces.symm

theorem exists_mem_scan_of_fenceAt {text : String} {offset : Nat}
    (h : FenceAt text.toList offset) : ∃ block ∈ scan text,
      block.start = offset ∨ block.start < offset ∧ offset < block.stop := by
  obtain ⟨before, rest, htext, hword, rfl⟩ := h
  obtain ⟨cut, hcut, skipped, left, hbefore, hne, hinside⟩ :=
    Cut.exists_mem_scan_of_opening htext hword
  refine ⟨cut.block, List.mem_map_of_mem hcut, ?_⟩
  have hstart : cut.block.start = Text.bytes cut.before := rfl
  have hstop : cut.block.stop = Text.bytes cut.before + Text.bytes cut.inside := rfl
  rw [hbefore, hstart, hstop, hinside, Text.bytes_append, Text.bytes_append]
  by_cases hskipped : skipped = []
  · left
    rw [hskipped, Text.bytes_nil, Nat.add_zero]
  · right
    have hskippedPos := Text.bytes_pos hskipped
    have hleftPos := Text.bytes_pos hne
    omega

/-- The blocks that a scan reports stand in the text as reported, on boundaries of characters, one
behind the other, and only the last one may be without a closing fence. Every opening fence of the
text begins one of them or stands within one. Both loops over the text find these blocks, and the
block of a record is the first one that belongs to it. -/
theorem scan_exact (text : String) :
    (∀ block ∈ scan text, block.Spans text.toList ∧ block.start < block.stop ∧
      String.Pos.Raw.IsValid text ⟨block.start⟩ ∧ String.Pos.Raw.IsValid text ⟨block.stop⟩) ∧
    ((scan text).Pairwise fun a b => a.endOfText = false ∧ a.stop ≤ b.start) ∧
    (∀ offset, FenceAt text.toList offset → ∃ block ∈ scan text,
      block.start = offset ∨ block.start < offset ∧ offset < block.stop) ∧
    walk text 0 = scan text ∧
    ∀ target : Record,
      seek target text 0 = (scan text).find? (belongsTo target) ∧
      (locate text.toList target).toOption.map (·.cut.block) =
        (scan text).find? (belongsTo target) ∧
      (locate text.toList target = .error target.notFound ↔
        ∀ block ∈ scan text, ∀ record, block.parsed = .ok record →
          record.sameHead target = false) := by
  refine ⟨?_, ?_, fun offset => exists_mem_scan_of_fenceAt, walk_zero text, fun target => ⟨?_, ?_, ?_⟩⟩
  · intro block hblock
    obtain ⟨cut, hcut, rfl⟩ := List.mem_map.1 hblock
    obtain ⟨hstart, hstop⟩ := isValid_of_mem_scan hcut
    exact ⟨spans_of_mem_scan hcut, cut.start_lt_stop, hstart, hstop⟩
  · rw [scan, List.pairwise_map]
    refine (Cut.pairwise_scan text.toList).imp fun {a b} hab => ?_
    obtain ⟨hclosed, hle⟩ := hab
    refine ⟨?_, hle⟩
    rw [Cut.block, hclosed]
    rfl
  · rw [seek_eq_find?, walk_zero]
  · exact (locate_eq_find? text target).1
  · rw [(locate_eq_find? text target).2, List.find?_eq_none]
    refine forall₂_congr fun block _ => ?_
    rw [Bool.not_eq_true, belongsTo, Record.owns_eq_false_iff]

end RollCall.Block
