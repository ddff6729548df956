import RollCall.Proofs.Block.Entry
import RollCall.Proofs.Calendar.Date
import RollCall.Proofs.Record.Entries

/-!
# The written form of a record

Reading the body that a record is written as gives the record back exactly if the record is legible
(`parse_serialize_iff`), and whatever body a record is read from, it is legible. The lines of a
written record are three headers and one line for each entry.
-/

namespace RollCall

/-- An entry whose line is read as the entry. -/
structure Entry.Legible (entry : Entry) : Prop where
  /-- The link stands on one line. -/
  link_line : '\n' ∉ entry.link.toList
  /-- The state stands on one line. -/
  state_line : '\n' ∉ entry.state.toList
  /-- The note stands on one line. -/
  note_line : '\n' ∉ entry.note.toList
  /-- The brackets behind the link are the first ones that close it. -/
  link_closed : Text.OnlyAtEnd [']', ']'] entry.link.toList
  /-- No quote ends the state too early. -/
  state_unquoted : '"' ∉ entry.state.toList

instance (entry : Entry) : Decidable entry.Legible :=
  decidable_of_iff ('\n' ∉ entry.link.toList ∧ '\n' ∉ entry.state.toList ∧ '\n' ∉ entry.note.toList ∧
      Text.OnlyAtEnd [']', ']'] entry.link.toList ∧ '"' ∉ entry.state.toList)
    ⟨fun ⟨hlink, hstate, hnote, hclosed, hquote⟩ => ⟨hlink, hstate, hnote, hclosed, hquote⟩,
      fun h => ⟨h.link_line, h.state_line, h.note_line, h.link_closed, h.state_unquoted⟩⟩

/-- A record whose body is read as the record. -/
structure Record.Legible (record : Record) : Prop where
  /-- The title stands on one line. -/
  title_line : '\n' ∉ record.title.toList
  /-- No blank of the title is lost. -/
  title_trimmed : Text.Trimmed record.title.toList
  /-- The query text stands on one line. -/
  source_line : '\n' ∉ record.source.toList
  /-- No blank of the query text is lost. -/
  source_trimmed : Text.Trimmed record.source.toList
  /-- The query text spells the query. -/
  source_query : Query.parse record.source = .ok record.query
  /-- The entries are legible. -/
  entries_legible : ∀ entry ∈ record.entries.toList, entry.Legible

/-! ## What a line is for -/

namespace BodyLine

@[simp] theorem entry?_header (header : Header) (value : List Char) :
    entry? (.header header value) = none := rfl

@[simp] theorem entry?_entry (line text : List Char) : entry? (.entry line text) = some (line, text) :=
  rfl

@[simp] theorem entry?_other : entry? .other = none := rfl

@[simp] theorem value?_header (wanted header : Header) (value : List Char) :
    value? wanted (.header header value) = if header = wanted then some value else none := rfl

@[simp] theorem value?_entry (wanted : Header) (line text : List Char) :
    value? wanted (.entry line text) = none := rfl

@[simp] theorem value?_other (wanted : Header) : value? wanted .other = none := rfl

theorem exists_of_classify_header {line value : List Char} {header : Header}
    (h : classify line = .header header value) :
    ∃ rest, line = header.name.toList ++ ':' :: rest ∧ value = Text.trim rest := by
  unfold classify at h
  split at h
  · next rest hrest =>
    simp only [BodyLine.header.injEq] at h
    obtain ⟨rfl, rfl⟩ := h
    exact ⟨rest, by simpa [Header.name] using Text.after?_eq_some_iff.1 hrest, rfl⟩
  split at h
  · next rest hrest =>
    simp only [BodyLine.header.injEq] at h
    obtain ⟨rfl, rfl⟩ := h
    exact ⟨rest, by simpa [Header.name] using Text.after?_eq_some_iff.1 hrest, rfl⟩
  split at h
  · next rest hrest =>
    simp only [BodyLine.header.injEq] at h
    obtain ⟨rfl, rfl⟩ := h
    exact ⟨rest, by simpa [Header.name] using Text.after?_eq_some_iff.1 hrest, rfl⟩
  split at h <;> simp at h

theorem exists_of_classify_entry {line text whole : List Char}
    (h : classify line = .entry whole text) :
    whole = line ∧ ∃ bullet rest, line = bullet :: rest ∧ text = Text.trim rest := by
  unfold classify at h
  split at h
  · simp at h
  split at h
  · simp at h
  split at h
  · simp at h
  split at h
  · next rest hrest =>
    simp only [BodyLine.entry.injEq] at h
    obtain ⟨rfl, rfl⟩ := h
    rw [afterBullet?, Option.or_eq_some_iff] at hrest
    rcases hrest with hrest | ⟨-, hrest⟩
    · exact ⟨rfl, '-', rest, Text.after?_eq_some_iff.1 hrest, rfl⟩
    · exact ⟨rfl, '*', rest, Text.after?_eq_some_iff.1 hrest, rfl⟩
  · simp at h

/-- A header line is read without the blanks around its value. -/
theorem classify_header (header : Header) (value : List Char) :
    classify (Text.trim (header.name.toList ++ ':' :: ' ' :: value)) =
      .header header (Text.trim value) := by
  have hvalue : Text.trim (Text.trimEnd (' ' :: value)) = Text.trim value := by
    rw [Text.trim_trimEnd, Text.trim_cons_of_isBlank (by decide)]
  have hline : ∀ c name, header.name.toList = c :: name → Text.isBlank c = false →
      Text.trim (header.name.toList ++ ':' :: ' ' :: value) =
        header.name.toList ++ ':' :: Text.trimEnd (' ' :: value) := by
    intro c name hname hc
    rw [hname]
    exact Text.trim_cons_append hc (by decide) name (' ' :: value)
  cases header with
  | date =>
    rw [hline 'd' ['a', 't', 'e'] rfl (by decide)]
    simp [classify, Header.name, hvalue]
  | title =>
    rw [hline 't' ['i', 't', 'l', 'e'] rfl (by decide)]
    simp [classify, Header.name, hvalue]
  | query =>
    rw [hline 'q' ['u', 'e', 'r', 'y'] rfl (by decide)]
    simp [classify, Header.name, hvalue]

theorem ofBody_line {line : List Char} (h : '\n' ∉ line) (rest : List Char) :
    ofBody (line ++ '\n' :: rest) = classify (Text.trim line) :: ofBody rest := by
  simp [ofBody, Text.split_append h]

/-- A line break in front adds a line that counts for nothing. -/
theorem ofBody_newline (body : List Char) : ofBody ('\n' :: body) = .other :: ofBody body :=
  ofBody_line List.not_mem_nil body

/-- What is known about the line of a body that a kind of line was read from. -/
theorem exists_line_of_mem_ofBody {body : List Char} {kind : BodyLine} (h : kind ∈ ofBody body) :
    ∃ line, classify line = kind ∧ line <:+: body ∧ '\n' ∉ line := by
  obtain ⟨line, hline, rfl⟩ := List.mem_map.1 h
  obtain ⟨hpart, hnewline⟩ := Text.infix_of_mem_split hline
  exact ⟨Text.trim line, rfl, (Text.trim_isInfix line).trans hpart,
    fun hmem => hnewline ((Text.trim_isInfix line).mem hmem)⟩

end BodyLine

/-! ## Reading a body -/

namespace Record

theorem headerValue_eq_ok_iff {header : Header} {lines : List BodyLine} {value : List Char} :
    headerValue header lines = .ok value ↔
      (lines.filterMap (BodyLine.value? header)).getLast? = some value := by
  unfold headerValue
  split
  · next h => simp [h]
  · next value' h => simp [h]

/-- The value of a header is trimmed and stands on one line of the body. -/
theorem headerValue_spec {header : Header} {body value : List Char}
    (h : headerValue header (BodyLine.ofBody body) = .ok value) :
    Text.Trimmed value ∧ value <:+: body ∧ '\n' ∉ value := by
  have hmem := List.mem_of_getLast? (headerValue_eq_ok_iff.1 h)
  obtain ⟨kind, hkind, hvalue⟩ := List.mem_filterMap.1 hmem
  obtain ⟨line, rfl, hpart, hnewline⟩ := BodyLine.exists_line_of_mem_ofBody hkind
  cases hline : BodyLine.classify line with
  | header found text =>
    obtain ⟨rest, rfl, rfl⟩ := BodyLine.exists_of_classify_header hline
    obtain ⟨-, rfl⟩ : found = header ∧ Text.trim rest = value := by
      simpa [hline] using hvalue
    have hrest : Text.trim rest <:+: found.name.toList ++ ':' :: rest :=
      (Text.trim_isInfix rest).trans ⟨found.name.toList ++ [':'], [], by simp⟩
    exact ⟨Text.trimmed_trim rest, hrest.trans hpart, fun hm => hnewline (hrest.mem hm)⟩
  | entry whole text => simp [hline] at hvalue
  | other => simp [hline] at hvalue

theorem readEntries_cons {line text : List Char} {lines : List (List Char × List Char)}
    {entries : List Entry} (h : readEntries ((line, text) :: lines) = .ok entries) :
    ∃ entry rest, Entry.read text = .ok entry ∧ readEntries lines = .ok rest ∧
      entries = entry :: rest := by
  rw [readEntries] at h
  split at h
  · simp at h
  · next entry hentry =>
    split at h
    · simp at h
    · next rest hrest => exact ⟨entry, rest, hentry, hrest, (Except.ok.inj h).symm⟩

theorem exists_of_mem_readEntries {lines : List (List Char × List Char)} {entries : List Entry}
    (h : readEntries lines = .ok entries) :
    ∀ entry ∈ entries, ∃ line ∈ lines, Entry.read line.2 = .ok entry := by
  induction lines generalizing entries with
  | nil =>
    simp only [readEntries, Except.ok.injEq] at h
    simp [← h]
  | cons line lines ih =>
    obtain ⟨first, rest, hfirst, hrest, rfl⟩ := readEntries_cons h
    intro entry hentry
    rcases List.mem_cons.1 hentry with rfl | hentry
    · exact ⟨line, List.mem_cons_self, hfirst⟩
    · obtain ⟨found, hfound, hread⟩ := ih hrest entry hentry
      exact ⟨found, List.mem_cons_of_mem _ hfound, hread⟩

/-- The parts that a body has to hold to be the body of a record. -/
theorem ofBody_eq_ok_iff {body : List Char} {record : Record} :
    ofBody body = .ok record ↔ ∃ entries date,
      readEntries ((BodyLine.ofBody body).filterMap BodyLine.entry?) = .ok entries ∧
      headerValue .date (BodyLine.ofBody body) = .ok date ∧
      headerValue .title (BodyLine.ofBody body) = .ok record.title.toList ∧
      headerValue .query (BodyLine.ofBody body) = .ok record.source.toList ∧
      Date.read? .tight date = some record.date ∧
      Query.parse record.source = .ok record.query ∧ record.entries = Entries.ofList entries := by
  unfold ofBody
  cases hentries : readEntries ((BodyLine.ofBody body).filterMap BodyLine.entry?) with
  | error error => simp [hentries, bind, Except.bind]
  | ok entries =>
  cases hdate : headerValue .date (BodyLine.ofBody body) with
  | error error => simp [hentries, hdate, bind, Except.bind]
  | ok dateText =>
  cases htitle : headerValue .title (BodyLine.ofBody body) with
  | error error => simp [hentries, hdate, htitle, bind, Except.bind]
  | ok title =>
  cases hsource : headerValue .query (BodyLine.ofBody body) with
  | error error => simp [hentries, hdate, htitle, hsource, bind, Except.bind]
  | ok source =>
  constructor
  · intro h
    simp only [hentries, hdate, htitle, hsource, bind, Except.bind] at h
    cases hd : Date.read? .tight dateText with
    | none => simp [hd, throw, throwThe, MonadExceptOf.throw] at h
    | some date =>
      cases hq : Query.parse (String.ofList source) with
      | error error => simp [hd, hq, pure, Except.pure, throw, throwThe, MonadExceptOf.throw] at h
      | ok query =>
        simp only [hd, hq, pure, Except.pure, Except.ok.injEq] at h
        subst h
        exact ⟨entries, dateText, rfl, rfl, by simp, by simp, hd, hq, rfl⟩
  · rintro ⟨entries', date', he, hd', ht, hs, hd, hq, hr⟩
    obtain rfl := Except.ok.inj he
    obtain rfl := Except.ok.inj hd'
    obtain rfl := Except.ok.inj ht
    obtain rfl := Except.ok.inj hs
    simp only [hentries, hdate, htitle, hsource, bind, Except.bind, hd, String.ofList_toList, hq, pure,
      Except.pure, ← hr]

/-- A line break in front of a body changes nothing. -/
theorem ofBody_newline (body : List Char) : ofBody ('\n' :: body) = ofBody body := by
  unfold ofBody
  simp only [headerValue, BodyLine.ofBody_newline, List.filterMap_cons, BodyLine.value?_other,
    BodyLine.entry?_other]

end Record

/-! ## Entries -/

/-- All fields of the entry stand in the text. -/
structure Entry.Within (entry : Entry) (text : List Char) : Prop where
  /-- The link stands in the text. -/
  link_isInfix : entry.link.toList <:+: text
  /-- The state stands in the text. -/
  state_isInfix : entry.state.toList <:+: text
  /-- The note stands in the text. -/
  note_isInfix : entry.note.toList <:+: text

theorem Entry.Within.trans {entry : Entry} {text whole : List Char} (h : entry.Within text)
    (hwhole : text <:+: whole) : entry.Within whole :=
  ⟨h.link_isInfix.trans hwhole, h.state_isInfix.trans hwhole, h.note_isInfix.trans hwhole⟩

theorem StateWritten.isInfix {text state note : List Char} (h : StateWritten text state note) :
    state <:+: text ∧ note <:+: text := by
  cases h with
  | none => exact ⟨by simp, by simp⟩
  | @state blanks state =>
    exact ⟨⟨',' :: blanks ++ ['"'], ['"'], by simp⟩, by simp⟩
  | @note blanks state before behind note =>
    exact ⟨⟨',' :: blanks ++ ['"'], '"' :: before ++ ',' :: behind ++ '"' :: note ++ ['"'], by simp⟩,
      ⟨',' :: blanks ++ '"' :: state ++ '"' :: before ++ ',' :: behind ++ ['"'], ['"'], by simp⟩⟩

theorem StateWritten.unquoted {text state note : List Char} (h : StateWritten text state note) :
    '"' ∉ state := by
  cases h with
  | none => simp
  | state _ hstate => exact hstate
  | note _ hstate => exact hstate

namespace Entry

theorem Written.within {entry : Entry} {text : List Char} (h : entry.Written text) :
    entry.Within text := by
  obtain ⟨blanks, rest, rfl, -, hstate⟩ := h.exists_state
  have hrest : rest <:+: '[' :: '[' :: entry.link.toList ++ [']', ']'] ++ blanks ++ rest :=
    (List.suffix_append ..).isInfix
  exact ⟨⟨['[', '['], [']', ']'] ++ blanks ++ rest, by simp⟩, hstate.isInfix.1.trans hrest,
    hstate.isInfix.2.trans hrest⟩

theorem Written.legible {entry : Entry} {text : List Char} (h : entry.Written text)
    (hline : '\n' ∉ text) : entry.Legible where
  link_line hm := hline (h.within.link_isInfix.mem hm)
  state_line hm := hline (h.within.state_isInfix.mem hm)
  note_line hm := hline (h.within.note_isInfix.mem hm)
  link_closed := h.link_closed
  state_unquoted := by
    obtain ⟨blanks, rest, -, -, hstate⟩ := h.exists_state
    exact hstate.unquoted

/-- What stands behind the bullet of the line of an entry. -/
def lineText (entry : Entry) : List Char :=
  '[' :: ('[' :: entry.link.toList ++ [']', ']', ',', ' ', '"'] ++ entry.state.toList ++
    ['"', ',', ' ', '"'] ++ entry.note.toList) ++ ['"']

theorem chars_eq (entry : Entry) : entry.chars = '-' :: ' ' :: entry.lineText ++ ['\n'] := by
  simp [chars, lineText]

theorem trimmed_lineText (entry : Entry) : Text.Trimmed entry.lineText :=
  Text.trimmed_cons_concat (by decide) (by decide) _

theorem Legible.written {entry : Entry} (h : entry.Legible) : entry.Written entry.lineText := by
  have hblank : ∀ c ∈ [' '], Text.isBlank c = true := by simp [Text.isBlank]
  have hstate : StateWritten (',' :: [' '] ++ '"' :: entry.state.toList ++ '"' :: [] ++ ',' :: [' '] ++
      '"' :: entry.note.toList ++ ['"']) entry.state.toList entry.note.toList :=
    .note hblank h.state_unquoted (by simp) hblank
  exact ⟨h.link_closed, [], _, by simp [lineText], by simp, hstate⟩

theorem Legible.newline_not_mem {entry : Entry} (h : entry.Legible) : '\n' ∉ entry.lineText := by
  simp [lineText, h.link_line, h.state_line, h.note_line]

theorem classify_line (entry : Entry) :
    BodyLine.classify (Text.trim ('-' :: ' ' :: entry.lineText)) =
      .entry ('-' :: ' ' :: entry.lineText) entry.lineText := by
  have hline : Text.Trimmed ('-' :: ' ' :: entry.lineText) :=
    Text.trimmed_cons_concat (d := '"') (by decide) (by decide)
      (' ' :: '[' :: ('[' :: entry.link.toList ++ [']', ']', ',', ' ', '"'] ++ entry.state.toList ++
        ['"', ',', ' ', '"'] ++ entry.note.toList))
  have htext : Text.trim (' ' :: entry.lineText) = entry.lineText := by
    rw [Text.trim_cons_of_isBlank (by decide), entry.trimmed_lineText]
  rw [hline]
  simp [BodyLine.classify, BodyLine.afterBullet?, htext]

end Entry

namespace Record

/-! ## Writing a record and reading it -/

theorem ofBody_flatMap_chars {entries : List Entry} (h : ∀ entry ∈ entries, entry.Legible) :
    BodyLine.ofBody (entries.flatMap Entry.chars) =
      entries.map (fun entry => .entry ('-' :: ' ' :: entry.lineText) entry.lineText) ++ [.other] := by
  induction entries with
  | nil => rfl
  | cons entry entries ih =>
    have hline : '\n' ∉ '-' :: ' ' :: entry.lineText := by
      simpa using (h entry List.mem_cons_self).newline_not_mem
    rw [List.flatMap_cons, Entry.chars_eq, List.append_assoc, List.singleton_append,
      BodyLine.ofBody_line hline, entry.classify_line,
      ih fun e he => h e (List.mem_cons_of_mem _ he)]
    rfl

/-- A written record, line by line. -/
theorem chars_eq (record : Record) :
    record.chars = (Header.date.name.toList ++ ':' :: ' ' :: record.date.chars) ++
      '\n' :: ((Header.title.name.toList ++ ':' :: ' ' :: record.title.toList) ++
        '\n' :: ((Header.query.name.toList ++ ':' :: ' ' :: record.source.toList) ++
          '\n' :: record.entries.toList.flatMap Entry.chars)) := by
  have hdate : "date: ".toList = Header.date.name.toList ++ [':', ' '] := rfl
  have htitle : "\ntitle: ".toList = '\n' :: Header.title.name.toList ++ [':', ' '] := rfl
  have hquery : "\nquery: ".toList = '\n' :: Header.query.name.toList ++ [':', ' '] := rfl
  have hchars : record.chars = "date: ".toList ++ record.date.chars ++ "\ntitle: ".toList ++
    record.title.toList ++ "\nquery: ".toList ++ record.source.toList ++
      '\n' :: record.entries.toList.flatMap Entry.chars := rfl
  rw [hchars, hdate, htitle, hquery]
  simp only [List.append_assoc, List.cons_append, List.nil_append]

/-- The lines of a written record: the headers and one line for each entry. -/
theorem ofBody_chars {record : Record} (h : record.Legible) :
    BodyLine.ofBody record.chars =
      [.header .date record.date.chars, .header .title record.title.toList,
          .header .query record.source.toList] ++
        (record.entries.toList.map (fun entry =>
          .entry ('-' :: ' ' :: entry.lineText) entry.lineText) ++ [.other]) := by
  have hdate : '\n' ∉ Header.date.name.toList ++ ':' :: ' ' :: record.date.chars := by
    have hnewline : '\n' ∉ record.date.chars := fun hm =>
      absurd (Date.isBlank_of_mem_chars hm) (by decide)
    simpa [Header.name] using hnewline
  have htitle : '\n' ∉ Header.title.name.toList ++ ':' :: ' ' :: record.title.toList := by
    simpa [Header.name] using h.title_line
  have hsource : '\n' ∉ Header.query.name.toList ++ ':' :: ' ' :: record.source.toList := by
    simpa [Header.name] using h.source_line
  have hdateTrimmed : Text.trim record.date.chars = record.date.chars :=
    Text.trimmed_of_forall fun c hc => Date.isBlank_of_mem_chars hc
  rw [chars_eq, BodyLine.ofBody_line hdate, BodyLine.ofBody_line htitle, BodyLine.ofBody_line hsource,
    ofBody_flatMap_chars h.entries_legible, BodyLine.classify_header, BodyLine.classify_header,
    BodyLine.classify_header, hdateTrimmed, h.title_trimmed, h.source_trimmed]
  rfl

theorem readEntries_lineText {entries : List Entry} (h : ∀ entry ∈ entries, entry.Legible) :
    readEntries (entries.map fun entry => ('-' :: ' ' :: entry.lineText, entry.lineText)) =
      .ok entries := by
  induction entries with
  | nil => rfl
  | cons entry entries ih =>
    have hread : Entry.read entry.lineText = .ok entry :=
      (Entry.read_eq_ok_iff entry.trimmed_lineText).2 (h entry List.mem_cons_self).written
    rw [List.map_cons, readEntries, hread, ih fun e he => h e (List.mem_cons_of_mem _ he)]

/-- A legible record is read from what is written. -/
theorem Legible.ofBody_chars_eq {record : Record} (h : record.Legible) :
    ofBody record.chars = .ok record := by
  have hentries : (BodyLine.ofBody record.chars).filterMap BodyLine.entry? =
      record.entries.toList.map fun entry => ('-' :: ' ' :: entry.lineText, entry.lineText) := by
    rw [ofBody_chars h]
    simp only [List.filterMap_append, List.filterMap_cons, List.filterMap_nil, List.filterMap_map,
      List.nil_append, List.append_nil, Function.comp_def, BodyLine.entry?_header,
      BodyLine.entry?_entry, BodyLine.entry?_other]
    exact congrFun List.filterMap_eq_map _
  have hvalue : ∀ header value, [BodyLine.header .date record.date.chars,
        .header .title record.title.toList, .header .query record.source.toList].filterMap
          (BodyLine.value? header) = [value] →
      headerValue header (BodyLine.ofBody record.chars) = .ok value := by
    intro header value hone
    rw [headerValue_eq_ok_iff, ofBody_chars h, List.filterMap_append, hone]
    simp [List.filterMap_map, List.filterMap_cons, Function.comp_def]
  rw [ofBody_eq_ok_iff]
  refine ⟨record.entries.toList, record.date.chars, ?_, hvalue _ _ rfl, hvalue _ _ rfl,
    hvalue _ _ rfl, Date.read?_chars _, h.source_query, (Entries.ofList_toList _).symm⟩
  rw [hentries, readEntries_lineText h.entries_legible]

/-- What is known about an entry that is read from a body: it is legible, and its fields stand in
the body. -/
theorem entry_of_ofBody {body : List Char} {record : Record} (h : ofBody body = .ok record) :
    ∀ entry ∈ record.entries.toList, entry.Legible ∧ entry.Within body := by
  obtain ⟨entries, date, hentries, -, -, -, -, -, hlist⟩ := ofBody_eq_ok_iff.1 h
  intro entry hentry
  rw [hlist] at hentry
  obtain ⟨⟨whole, text⟩, hline, hread⟩ :=
    exists_of_mem_readEntries hentries entry (Entries.mem_of_mem_ofList hentry)
  obtain ⟨kind, hkind, hentry?⟩ := List.mem_filterMap.1 hline
  obtain ⟨line, rfl, hpart, hnewline⟩ := BodyLine.exists_line_of_mem_ofBody hkind
  cases hclass : BodyLine.classify line with
  | header header value => simp [hclass] at hentry?
  | other => simp [hclass] at hentry?
  | entry whole' text' =>
    obtain ⟨-, rfl⟩ : whole' = whole ∧ text' = text := by
      simpa [hclass] using hentry?
    obtain ⟨-, bullet, rest, rfl, rfl⟩ := BodyLine.exists_of_classify_entry hclass
    have htext : Text.trim rest <:+: bullet :: rest :=
      (Text.trim_isInfix rest).trans (List.suffix_cons bullet rest).isInfix
    have hwritten := (Entry.read_eq_ok_iff (Text.trimmed_trim rest)).1 hread
    exact ⟨hwritten.legible fun hm => hnewline (htext.mem hm),
      hwritten.within.trans (htext.trans hpart)⟩

theorem legible_of_ofBody {body : List Char} {record : Record} (h : ofBody body = .ok record) :
    record.Legible := by
  obtain ⟨-, -, -, -, htitle, hsource, -, hquery, -⟩ := ofBody_eq_ok_iff.1 h
  obtain ⟨htitleTrimmed, -, htitleLine⟩ := headerValue_spec htitle
  obtain ⟨hsourceTrimmed, -, hsourceLine⟩ := headerValue_spec hsource
  exact ⟨htitleLine, htitleTrimmed, hsourceLine, hsourceTrimmed, hquery,
    fun entry hentry => (entry_of_ofBody h entry hentry).1⟩

theorem headers_infix_of_ofBody {body : List Char} {record : Record} (h : ofBody body = .ok record) :
    record.title.toList <:+: body ∧ record.source.toList <:+: body := by
  obtain ⟨-, -, -, -, htitle, hsource, -⟩ := ofBody_eq_ok_iff.1 h
  exact ⟨(headerValue_spec htitle).2.1, (headerValue_spec hsource).2.1⟩

/-- A written record is read as itself exactly if it is legible. A record that was read from a body
is legible, so that it is read from what is written for it. -/
theorem parse_serialize_iff :
    (∀ record : Record, parse record.serialize = .ok record ↔ record.Legible) ∧
      ∀ (body : String) (record : Record), parse body = .ok record →
        parse record.serialize = .ok record := by
  have hparse : ∀ record : Record, parse record.serialize = ofBody record.chars := by
    intro record
    rw [parse, serialize, String.toList_ofList]
  refine ⟨fun record => ?_, fun body record h => ?_⟩
  · rw [hparse]
    exact ⟨legible_of_ofBody, Legible.ofBody_chars_eq⟩
  · rw [hparse]
    exact (legible_of_ofBody h).ofBody_chars_eq

/-- A body with blanks around its values, a starred entry and quotes in a note. -/
theorem parse_serialize_choir :
    let body := "title:  Choir \nquery: #alto\ndate: 2024-1-5\n* [[Ann]] , \"here\" ,\"\"late\"\""
    ∃ record : Record, parse body = .ok record ∧ record.source = "#alto" ∧
      record.entries.find? "Ann" = some ⟨"Ann", "here", "\"late\""⟩ ∧
      parse record.serialize = .ok record := by
  have h : parse "title:  Choir \nquery: #alto\ndate: 2024-1-5\n* [[Ann]] , \"here\" ,\"\"late\"\"" =
      .ok ⟨⟨2024, 1, 5, by decide, by decide, by decide⟩, "Choir", .tag "alto", "#alto",
        ⟨[⟨"Ann", "here", "\"late\""⟩], by decide⟩⟩ := by
    decide +kernel
  exact ⟨_, h, rfl, rfl, parse_serialize_iff.2 _ _ h⟩

end Record

end RollCall
