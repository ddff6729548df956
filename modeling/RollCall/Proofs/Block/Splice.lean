import RollCall.Block.Splice
import RollCall.Proofs.Block.Body
import RollCall.Proofs.Block.Scan

/-!
# Writing records into documents

A record whose entries are writable is read back from the block that it is written into, and every
other block of the document is left as it is (`splice_frame`). That an entry is writable is needed:
every entry that is read from a block is (`Cut.writable_of_parsed`).
-/

namespace RollCall

/-- An entry that can be written into a block. -/
structure Entry.Writable (entry : Entry) : Prop extends entry.Legible where
  /-- The link does not end the block. -/
  link_unfenced : ¬ closingFence <:+: entry.link.toList
  /-- The state does not end the block. -/
  state_unfenced : ¬ closingFence <:+: entry.state.toList
  /-- The note does not end the block. -/
  note_unfenced : ¬ closingFence <:+: entry.note.toList

instance (entry : Entry) : Decidable entry.Writable :=
  decidable_of_iff (entry.Legible ∧ ¬ closingFence <:+: entry.link.toList ∧
      ¬ closingFence <:+: entry.state.toList ∧ ¬ closingFence <:+: entry.note.toList)
    ⟨fun ⟨h, hlink, hstate, hnote⟩ => ⟨h, hlink, hstate, hnote⟩,
      fun h => ⟨h.toLegible, h.link_unfenced, h.state_unfenced, h.note_unfenced⟩⟩

/-! ## Fences in what is written -/

theorem closingFence_eq : closingFence = ['`', '`', '`'] := rfl

theorem not_closingFence_infix_nil : ¬ closingFence <:+: [] := by
  simp [closingFence_eq]

/-- Text on both sides of a character other than a backtick, neither of which holds a fence. -/
theorem not_closingFence_infix_append_cons {a b : List Char} {c : Char} (hc : c ≠ '`')
    (ha : ¬ closingFence <:+: a) (hb : ¬ closingFence <:+: b) :
    ¬ closingFence <:+: a ++ c :: b := by
  have hmem : c ∉ closingFence := by simpa [closingFence_eq] using hc
  rw [Text.infix_append_cons_iff hmem, not_or]
  exact ⟨ha, hb⟩

theorem not_closingFence_infix_cons {b : List Char} {c : Char} (hc : c ≠ '`')
    (hb : ¬ closingFence <:+: b) : ¬ closingFence <:+: c :: b :=
  not_closingFence_infix_append_cons hc not_closingFence_infix_nil hb

namespace Entry

theorem Writable.not_infix_chars_append {entry : Entry} (h : entry.Writable) {rest : List Char}
    (hrest : ¬ closingFence <:+: rest) : ¬ closingFence <:+: entry.chars ++ rest := by
  have hnote : ¬ closingFence <:+: entry.note.toList ++ '"' :: '\n' :: rest :=
    not_closingFence_infix_append_cons (by decide) h.note_unfenced
      (not_closingFence_infix_cons (by decide) hrest)
  have hstate : ¬ closingFence <:+: entry.state.toList ++
      '"' :: ',' :: ' ' :: '"' :: (entry.note.toList ++ '"' :: '\n' :: rest) :=
    not_closingFence_infix_append_cons (by decide) h.state_unfenced
      (not_closingFence_infix_append_cons (a := [',', ' ']) (by decide) (by decide) hnote)
  have hlink : ¬ closingFence <:+: entry.link.toList ++
      ']' :: ']' :: ',' :: ' ' :: '"' :: (entry.state.toList ++
        '"' :: ',' :: ' ' :: '"' :: (entry.note.toList ++ '"' :: '\n' :: rest)) :=
    not_closingFence_infix_append_cons (by decide) h.link_unfenced
      (not_closingFence_infix_append_cons (a := [']', ',', ' ']) (by decide) (by decide) hstate)
  have hline := not_closingFence_infix_append_cons (a := ['-', ' ', '[']) (c := '[') (by decide)
    (by decide) hlink
  simpa [chars] using hline

end Entry

namespace Record

theorem not_infix_flatMap_chars {entries : List Entry} (h : ∀ entry ∈ entries, entry.Writable) :
    ¬ closingFence <:+: entries.flatMap Entry.chars := by
  induction entries with
  | nil => exact not_closingFence_infix_nil
  | cons entry entries ih =>
    rw [List.flatMap_cons]
    exact (h entry List.mem_cons_self).not_infix_chars_append
      (ih fun e he => h e (List.mem_cons_of_mem _ he))

/-- A fence within a written record stands in the title, in the query text or in an entry. -/
theorem not_infix_chars {record : Record} (htitle : ¬ closingFence <:+: record.title.toList)
    (hsource : ¬ closingFence <:+: record.source.toList)
    (hentries : ∀ entry ∈ record.entries.toList, entry.Writable) :
    ¬ closingFence <:+: record.chars := by
  have hdate : ¬ closingFence <:+: record.date.chars := by
    intro hpart
    have hmem : '`' ∈ record.date.chars := hpart.mem (by decide)
    exact absurd (Date.mem_chars hmem) (by decide)
  have hheader : ∀ (header : Header) (value : List Char), ¬ closingFence <:+: value →
      ¬ closingFence <:+: header.name.toList ++ ':' :: ' ' :: value := by
    intro header value hvalue
    have hname : ¬ closingFence <:+: header.name.toList := by cases header <;> decide
    exact not_closingFence_infix_append_cons (by decide) hname
      (not_closingFence_infix_cons (by decide) hvalue)
  rw [chars_eq]
  exact not_closingFence_infix_append_cons (by decide) (hheader .date _ hdate)
    (not_closingFence_infix_append_cons (by decide) (hheader .title _ htitle)
      (not_closingFence_infix_append_cons (by decide) (hheader .query _ hsource)
        (not_infix_flatMap_chars hentries)))

theorem newline_suffix_chars (record : Record) : ['\n'] <:+ record.chars := by
  have hentries : ['\n'] <:+ '\n' :: record.entries.toList.flatMap Entry.chars := by
    rcases List.eq_nil_or_concat' record.entries.toList with hnil | ⟨entries, entry, hconcat⟩
    · rw [hnil]
      exact List.suffix_rfl
    · rw [hconcat, List.flatMap_append, List.flatMap_singleton, Entry.chars_eq]
      exact ⟨'\n' :: (entries.flatMap Entry.chars ++ '-' :: ' ' :: entry.lineText), by simp⟩
  have hline : ∀ line rest : List Char, ['\n'] <:+ rest → ['\n'] <:+ line ++ '\n' :: rest :=
    fun line rest h => h.trans ((List.suffix_cons '\n' rest).trans (List.suffix_append line _))
  rw [chars_eq]
  exact hline _ _ (hline _ _ (hentries.trans (List.suffix_append _ _)))

/-- The block of a written record ends behind the record. -/
theorem onlyAtEnd_chars {record : Record} (h : ¬ closingFence <:+: record.chars) :
    Text.OnlyAtEnd closingFence ('\n' :: record.chars) := by
  obtain ⟨text, htext⟩ := record.newline_suffix_chars
  rw [← htext] at h ⊢
  have hfront : ¬ closingFence <:+: '\n' :: text :=
    not_closingFence_infix_cons (by decide) fun hpart =>
      h (hpart.trans (List.prefix_append text ['\n']).isInfix)
  exact Text.onlyAtEnd_append_singleton (by decide) hfront

end Record

/-- Every entry that is read from a block can be written into a block. -/
theorem Cut.writable_of_parsed {text : List Char} {cut : Cut} (hcut : cut ∈ Cut.scan text)
    {record : Record} (h : cut.parsed = .ok record) :
    ∀ entry ∈ record.entries.toList, entry.Writable := by
  have hbody := (Cut.text_of_mem_scan hcut).2
  intro entry hentry
  obtain ⟨hlegible, hwithin⟩ := Record.entry_of_ofBody h entry hentry
  exact ⟨hlegible, fun hi => hbody (hi.trans hwithin.link_isInfix),
    fun hi => hbody (hi.trans hwithin.state_isInfix), fun hi => hbody (hi.trans hwithin.note_isInfix)⟩

/-! ## The block of a record -/

/-- The block at the place is the first one that belongs to the target, and it holds the record. -/
structure FirstBlock (text : List Char) (target : Record) (i : Nat) (cut : Cut) (record : Record) :
    Prop where
  /-- The block stands at the place. -/
  at_place : (Cut.scan text)[i]? = some cut
  /-- The block holds the record. -/
  parsed_eq : cut.parsed = .ok record
  /-- The record belongs to the target. -/
  same_head : record.sameHead target = true
  /-- No block in front of it does. -/
  earlier : ∀ j < i, ∀ other, (Cut.scan text)[j]? = some other →
    ∀ found, other.parsed = .ok found → found.sameHead target = false

theorem sameHead_iff {record target : Record} :
    record.sameHead target = true ↔
      record.date = target.date ∧ record.title = target.title ∧ record.query = target.query := by
  simp [Record.sameHead]

/-- With its block's query text, a target is its block's record with other entries. -/
theorem withSource_eq {record target : Record} (h : record.sameHead target = true) :
    { target with source := record.source } = { record with entries := target.entries } := by
  obtain ⟨hdate, htitle, hquery⟩ := sameHead_iff.1 h
  simp [hdate, htitle, hquery]

theorem withEntries_eq_iff {record : Record} {entries : Entries} :
    { record with entries := entries } = record ↔ entries = record.entries := by
  cases record
  simp

theorem Cut.locate?_eq_some_iff {target : Record} {cut : Cut} {located : Located} :
    cut.locate? target = some located ↔
      located.cut = cut ∧ cut.parsed = .ok located.record ∧ located.record.sameHead target = true := by
  obtain ⟨locatedCut, record⟩ := located
  unfold Cut.locate?
  cases hparsed : cut.parsed with
  | error error => simp
  | ok found =>
    by_cases hfound : found.sameHead target = true
    · simp only [if_pos hfound, Option.some.injEq, Located.mk.injEq, Except.ok.injEq]
      constructor
      · rintro ⟨rfl, rfl⟩
        exact ⟨rfl, rfl, hfound⟩
      · rintro ⟨rfl, rfl, -⟩
        exact ⟨rfl, rfl⟩
    · simp only [if_neg hfound, reduceCtorEq, Except.ok.injEq, false_iff]
      rintro ⟨-, rfl, hrecord⟩
      exact hfound hrecord

theorem Cut.locate?_eq_none_iff {target : Record} {cut : Cut} :
    cut.locate? target = none ↔ ∀ found, cut.parsed = .ok found → found.sameHead target = false := by
  unfold Cut.locate?
  cases hparsed : cut.parsed with
  | error error => simp
  | ok found => simp

theorem locate_eq_ok_iff {text : List Char} {target : Record} {located : Located} :
    locate text target = .ok located ↔ ∃ i, FirstBlock text target i located.cut located.record := by
  have hlocate : locate text target = .ok located ↔
      (Cut.scan text).findSome? (Cut.locate? target) = some located := by
    unfold locate
    cases (Cut.scan text).findSome? (Cut.locate? target) <;> simp
  rw [hlocate, List.findSome?_eq_some_iff]
  constructor
  · rintro ⟨front, cut, behind, hscan, hfound, hfront⟩
    obtain ⟨rfl, hparsed, hhead⟩ := Cut.locate?_eq_some_iff.1 hfound
    refine ⟨front.length, by simp [hscan], hparsed, hhead, fun j hj other hother => ?_⟩
    rw [hscan, List.getElem?_append_left hj] at hother
    exact Cut.locate?_eq_none_iff.1 (hfront other (List.mem_of_getElem? hother))
  · rintro ⟨i, h⟩
    obtain ⟨hi, hget⟩ := List.getElem?_eq_some_iff.1 h.at_place
    refine ⟨(Cut.scan text).take i, located.cut, (Cut.scan text).drop (i + 1), ?_,
      Cut.locate?_eq_some_iff.2 ⟨rfl, h.parsed_eq, h.same_head⟩, fun other hother => ?_⟩
    · rw [← hget, List.getElem_cons_drop, List.take_append_drop]
    · obtain ⟨j, hj⟩ := List.mem_iff_getElem?.1 hother
      have hlt : j < i := by
        have := (List.getElem?_eq_some_iff.1 hj).1
        simp only [List.length_take] at this
        omega
      rw [List.getElem?_take_of_lt hlt] at hj
      exact Cut.locate?_eq_none_iff.2 (h.earlier j hlt other hj)

theorem splice_eq_ok_iff {text out : String} {target : Record} :
    splice text target = .ok out ↔ ∃ i cut record, FirstBlock text.toList target i cut record ∧
      out.toList =
        if target.entries = record.entries then text.toList
        else (if cut.before = [] then ['\n'] else cut.before) ++
          Record.fenced { record with entries := target.entries } ++ cut.after := by
  have hchars : splice text target = .ok out ↔ spliceChars text.toList target = .ok out.toList := by
    unfold splice
    cases spliceChars text.toList target with
    | error error => simp [Except.map]
    | ok chars =>
      simp only [Except.map, Except.ok.injEq]
      constructor
      · rintro rfl
        rw [String.toList_ofList]
      · rintro rfl
        rw [String.ofList_toList]
  rw [hchars, spliceChars]
  constructor
  · intro h
    split at h
    · simp at h
    next located hlocated =>
    obtain ⟨i, hfirst⟩ := locate_eq_ok_iff.1 hlocated
    refine ⟨i, located.cut, located.record, hfirst, ?_⟩
    simp only [withSource_eq hfirst.same_head, withEntries_eq_iff] at h
    split at h
    · next hentries => rw [if_pos hentries, Except.ok.inj h]
    · next hentries => rw [if_neg hentries, Except.ok.inj h]
  · rintro ⟨i, cut, record, hfirst, hout⟩
    have hlocated : locate text.toList target = .ok ⟨cut, record⟩ := locate_eq_ok_iff.2 ⟨i, hfirst⟩
    rw [hlocated, hout]
    simp only [withSource_eq hfirst.same_head, withEntries_eq_iff]
    split <;> rfl

/-! ## Replacing a block -/

/-- The block with another record in it, written as a splice writes it. -/
def Cut.rewrite (cut : Cut) (record : Record) : Cut :=
  ⟨if cut.before = [] then ['\n'] else cut.before, '\n' :: record.chars, true, cut.after⟩

theorem Cut.text_rewrite (cut : Cut) (record : Record) :
    (cut.rewrite record).text =
      (if cut.before = [] then ['\n'] else cut.before) ++ record.fenced ++ cut.after := by
  simp [Cut.text, Cut.rewrite, Cut.inside, Record.fenced]

theorem Cut.rewrite_eq_fill (cut : Cut) (record : Record) :
    cut.rewrite record =
      if cut.before = [] then (cut.fill ('\n' :: record.chars)).shift ['\n']
      else cut.fill ('\n' :: record.chars) := by
  split
  · next hbefore => simp [Cut.rewrite, Cut.fill, Cut.shift, hbefore]
  · next hbefore => simp [Cut.rewrite, Cut.fill, hbefore]

theorem wordEnds_newline (text : List Char) : WordEnds ('\n' :: text) := by
  simp only [WordEnds, List.head?_cons, Option.mem_def, Option.some.injEq]
  rintro c rfl
  decide

/-- The rewritten block stays at its place, and the other bodies stay as they are. -/
theorem Cut.scan_rewrite {text : List Char} {cut : Cut} {i : Nat}
    (h : (Cut.scan text)[i]? = some cut) {record : Record}
    (hstops : Text.OnlyAtEnd closingFence ('\n' :: record.chars)) :
    (Cut.scan (cut.rewrite record).text)[i]? = some (cut.rewrite record) ∧
      (Cut.scan (cut.rewrite record).text).map Cut.body =
        ((Cut.scan text).map Cut.body).set i ('\n' :: record.chars) := by
  obtain ⟨hplace, hbodies⟩ := Cut.scan_fill h hstops (wordEnds_newline _)
  rw [Cut.rewrite_eq_fill]
  split
  · rw [Cut.text_shift, List.singleton_append, Cut.scan_newline, Cut.map_body_map_shift,
      List.getElem?_map, hplace]
    exact ⟨rfl, hbodies⟩
  · exact ⟨hplace, hbodies⟩

/-- The block at the place has been replaced and nothing else has changed. -/
structure Replaced (text out : List Char) (i : Nat) (old new : Cut) : Prop where
  /-- The old block stands at the place. -/
  old_at : (Cut.scan text)[i]? = some old
  /-- The new block stands at the place. -/
  new_at : (Cut.scan out)[i]? = some new
  /-- The text in front is the same; only a block at the very beginning gets a line feed. -/
  before_eq : new.before = old.before ∨ old.before = [] ∧ new.before = ['\n']
  /-- The text behind is the same. -/
  after_eq : new.after = old.after
  /-- All other blocks are read as before. -/
  others : (Cut.scan out).map Cut.parsed = ((Cut.scan text).map Cut.parsed).set i new.parsed

theorem Replaced.parsed_of_ne {text out : List Char} {i : Nat} {old new : Cut}
    (h : Replaced text out i old new) {j : Nat} (hj : j ≠ i) :
    ((Cut.scan out)[j]?).map Cut.parsed = ((Cut.scan text)[j]?).map Cut.parsed := by
  rw [← List.getElem?_map, ← List.getElem?_map, h.others, List.getElem?_set_ne (Ne.symm hj)]

theorem Replaced.length_scan {text out : String} {i : Nat} {old new : Cut}
    (h : Replaced text.toList out.toList i old new) :
    (Block.scan out).length = (Block.scan text).length := by
  have := congrArg List.length h.others
  simpa [Block.scan] using this

/-- Other records in place of the first one of a target do not put another block in front of it. -/
theorem Replaced.firstBlock {text out : List Char} {target record written : Record} {i : Nat}
    {old new : Cut} (h : Replaced text out i old new) (hfirst : FirstBlock text target i old record)
    (hparsed : new.parsed = .ok written) (hhead : written.sameHead target = true) :
    FirstBlock out target i new written := by
  refine ⟨h.new_at, hparsed, hhead, fun j hj other hother found hfound => ?_⟩
  have hsame := h.parsed_of_ne (Nat.ne_of_lt hj)
  rw [hother, Option.map_some, eq_comm, Option.map_eq_some_iff] at hsame
  obtain ⟨before, hbefore, heq⟩ := hsame
  exact hfirst.earlier j hj before hbefore found (heq.trans hfound)

/-- A block that stays as it is. -/
theorem replaced_self {text : List Char} {i : Nat} {cut : Cut} (h : (Cut.scan text)[i]? = some cut) :
    Replaced text text i cut cut := by
  refine ⟨h, h, .inl rfl, rfl, ?_⟩
  obtain ⟨hi, hget⟩ := List.getElem?_eq_some_iff.1 h
  rw [← hget, ← List.map_set, List.set_getElem_self]

theorem replaced_rewrite {text : List Char} {i : Nat} {cut : Cut}
    (h : (Cut.scan text)[i]? = some cut) {record : Record}
    (hstops : Text.OnlyAtEnd closingFence ('\n' :: record.chars)) :
    Replaced text (cut.rewrite record).text i cut (cut.rewrite record) := by
  obtain ⟨hplace, hbodies⟩ := Cut.scan_rewrite h hstops
  refine ⟨h, hplace, ?_, rfl, ?_⟩
  · by_cases hbefore : cut.before = []
    · exact .inr ⟨hbefore, by simp [Cut.rewrite, hbefore]⟩
    · exact .inl (by simp [Cut.rewrite, hbefore])
  · have hrecords := congrArg (List.map Record.ofBody) hbodies
    rw [List.map_set, List.map_map, List.map_map] at hrecords
    exact hrecords

/-- A record that was read from a block stays readable with other writable entries, and its text
still ends the block where it ends. -/
theorem readable_withEntries {text : List Char} {cut : Cut} (hcut : cut ∈ Cut.scan text)
    {record : Record} (hparsed : cut.parsed = .ok record) {entries : Entries}
    (hentries : ∀ entry ∈ entries.toList, entry.Writable) :
    Record.Legible { record with entries := entries } ∧
      Text.OnlyAtEnd closingFence ('\n' :: Record.chars { record with entries := entries }) := by
  constructor
  · have hlegible := Record.legible_of_ofBody hparsed
    exact ⟨hlegible.title_line, hlegible.title_trimmed, hlegible.source_line,
      hlegible.source_trimmed, hlegible.source_query,
      fun entry hentry => (hentries entry hentry).toLegible⟩
  · have hbody := (Cut.text_of_mem_scan hcut).2
    obtain ⟨htitle, hsource⟩ := Record.headers_infix_of_ofBody hparsed
    exact Record.onlyAtEnd_chars (Record.not_infix_chars (fun hi => hbody (hi.trans htitle))
      (fun hi => hbody (hi.trans hsource)) hentries)

/-- A splice replaces the first block of its target. -/
theorem exists_replaced {text out : String} {target : Record} (h : splice text target = .ok out)
    (hentries : ∀ entry ∈ target.entries.toList, entry.Writable) :
    ∃ i old new record, FirstBlock text.toList target i old record ∧
      FirstBlock out.toList target i new { record with entries := target.entries } ∧
      Replaced text.toList out.toList i old new := by
  obtain ⟨i, old, record, hfirst, hout⟩ := splice_eq_ok_iff.1 h
  by_cases hsame : target.entries = record.entries
  · rw [if_pos hsame] at hout
    refine ⟨i, old, old, record, hfirst, ?_, ?_⟩
    · rw [withEntries_eq_iff.2 hsame, hout]
      exact hfirst
    · rw [hout]
      exact replaced_self hfirst.at_place
  · rw [if_neg hsame, ← Cut.text_rewrite] at hout
    obtain ⟨hlegible, hstops⟩ :=
      readable_withEntries (List.mem_of_getElem? hfirst.at_place) hfirst.parsed_eq hentries
    have hreplaced := replaced_rewrite hfirst.at_place hstops
    rw [← hout] at hreplaced
    have hparsed : (old.rewrite { record with entries := target.entries }).parsed =
        .ok { record with entries := target.entries } :=
      (Record.ofBody_newline _).trans hlegible.ofBody_chars_eq
    exact ⟨i, old, _, record, hfirst, hreplaced.firstBlock hfirst hparsed hfirst.same_head, hreplaced⟩

theorem Block.parsed_getElem?_scan (text : String) (i : Nat) :
    ((Block.scan text)[i]?).map Block.parsed = ((Cut.scan text.toList)[i]?).map Cut.parsed := by
  rw [Block.scan, List.getElem?_map, Option.map_map]
  rfl

/-- Writing a record with writable entries changes the first block that belongs to it, which then
holds exactly these entries, and no other block. Writing it again changes nothing. -/
theorem splice_frame {text out : String} {target : Record} (h : splice text target = .ok out)
    (hentries : ∀ entry ∈ target.entries.toList, entry.Writable) :
    (Block.scan out).length = (Block.scan text).length ∧
      (∃ i old new record, FirstBlock text.toList target i old record ∧
        FirstBlock out.toList target i new { record with entries := target.entries } ∧
        (∀ j, j ≠ i → ((Block.scan out)[j]?).map Block.parsed =
          ((Block.scan text)[j]?).map Block.parsed) ∧
        text.toList = old.before ++ old.inside ++ old.after ∧
        out.toList = new.before ++ new.inside ++ new.after ∧
        (new.before = old.before ∨ old.before = [] ∧ new.before = ['\n']) ∧
        new.after = old.after) ∧
      splice out target = .ok out := by
  obtain ⟨i, old, new, record, hfirst, hnew, hreplaced⟩ := exists_replaced h hentries
  have holdText := (Cut.text_of_mem_scan (List.mem_of_getElem? hreplaced.old_at)).1
  have hnewText := (Cut.text_of_mem_scan (List.mem_of_getElem? hreplaced.new_at)).1
  refine ⟨?_, ⟨i, old, new, record, hfirst, hnew, fun j hj => ?_, holdText.symm, hnewText.symm,
    hreplaced.before_eq, hreplaced.after_eq⟩, ?_⟩
  · exact hreplaced.length_scan
  · rw [Block.parsed_getElem?_scan, Block.parsed_getElem?_scan, hreplaced.parsed_of_ne hj]
  · exact splice_eq_ok_iff.2 ⟨i, new, _, hnew, by rw [if_pos rfl]⟩

/-- A block at the beginning of a document, and behind it one that cannot be read. -/
theorem splice_frame_choir :
    let text := "```attendance\ndate: 2024-1-5\ntitle: Choir\nquery: #alto\n``````attendance\n- Ann```."
    let target : Record := ⟨⟨2024, 1, 5, by decide, by decide, by decide⟩, "Choir", .tag "alto", "",
      ⟨[⟨"Ann", "here", "\"late\""⟩], by decide⟩⟩
    let out := "\n```attendance\ndate: 2024-01-05\ntitle: Choir\nquery: #alto\n" ++
      "- [[Ann]], \"here\", \"\"late\"\"\n``````attendance\n- Ann```."
    splice text target = .ok out ∧ (∀ entry ∈ target.entries.toList, entry.Writable) ∧
      (Block.scan out).length = (Block.scan text).length ∧ splice out target = .ok out := by
  intro text target out
  have h : splice text target = .ok out := by decide +kernel
  have hentries : ∀ entry ∈ target.entries.toList, entry.Writable := by decide +kernel
  have hframe := splice_frame h hentries
  exact ⟨h, hentries, hframe.1, hframe.2.2⟩

end RollCall
