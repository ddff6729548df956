import RollCall.Proofs.Block.Body
import RollCall.Proofs.Traversal

/-!
# The lines of a body that count

A body says what its last header lines of each kind and its entries say, and nothing else
(`Record.parse_recognised`). Of several faults the first malformed entry is reported, then the first
header that is missing, then a date that is none, and a query that is none only if all else is well.
-/

namespace RollCall

/-- The headers that are asked for before a header. -/
def Header.earlier : Header → List Header
  | date => []
  | title => [date]
  | query => [date, title]

namespace Body

/-- The lines of a body without the blanks around them. -/
def lines (body : List Char) : List (List Char) :=
  (Text.split '\n' body).map Text.trim

/-- How the lines of a header start. -/
def label (header : Header) : List Char :=
  header.name.toList ++ [':']

/-- The last line of a header. -/
def lastLine? (header : Header) (body : List Char) : Option (List Char) :=
  ((lines body).filter (label header <+: ·)).getLast?

/-- What a line of a header says. -/
def value (header : Header) (line : List Char) : List Char :=
  Text.trim (line.drop (label header).length)

/-- Whether a line starts with a bullet. -/
def isBulleted (line : List Char) : Bool :=
  line.head? = some '-' ∨ line.head? = some '*'

/-- The lines with a bullet, in order. -/
def bulletLines (body : List Char) : List (List Char) :=
  (lines body).filter isBulleted

/-- What a line with a bullet says. -/
def item (line : List Char) : List Char :=
  Text.trim line.tail

variable {header other : Header} {body line : List Char}

/-! ## What a line is for -/

theorem classify_label (header : Header) (rest : List Char) :
    BodyLine.classify (label header ++ rest) = .header header (Text.trim rest) := by
  cases header <;> simp [BodyLine.classify, label, Header.name]

theorem classify_bullet {bullet : Char} (h : bullet = '-' ∨ bullet = '*') (rest : List Char) :
    BodyLine.classify (bullet :: rest) = .entry (bullet :: rest) (Text.trim rest) := by
  rcases h with rfl | rfl <;> simp [BodyLine.classify, BodyLine.afterBullet?]

theorem classify_other (hlabel : ∀ header, ¬ label header <+: line)
    (hbullet : isBulleted line = false) : BodyLine.classify line = .other := by
  have hdate : Text.after? "date:".toList line = none := Text.after?_eq_none_iff.2 (hlabel .date)
  have htitle : Text.after? "title:".toList line = none := Text.after?_eq_none_iff.2 (hlabel .title)
  have hquery : Text.after? "query:".toList line = none := Text.after?_eq_none_iff.2 (hlabel .query)
  have hentry : BodyLine.afterBullet? line = none := by
    cases line with
    | nil => rfl
    | cons c line =>
      simp only [isBulleted, List.head?_cons, Option.some.injEq, Bool.decide_or,
        Bool.or_eq_false_iff, decide_eq_false_iff_not] at hbullet
      simp [BodyLine.afterBullet?, Ne.symm hbullet.1, Ne.symm hbullet.2]
  unfold BodyLine.classify
  simp only [hdate, htitle, hquery, hentry]

/-- No line starts as two headers do. -/
theorem label_prefix_label_iff (header found : Header) (rest : List Char) :
    label header <+: label found ++ rest ↔ found = header := by
  cases header <;> cases found <;> simp [label, Header.name]

/-- No line of a header starts with a bullet. -/
theorem isBulleted_label (header : Header) (rest : List Char) :
    isBulleted (label header ++ rest) = false := by
  cases header <;> simp [isBulleted, label, Header.name]

/-- A line belongs to a header, has a bullet or means nothing. -/
theorem line_cases (line : List Char) :
    (∃ header rest, line = label header ++ rest) ∨
      (∃ bullet rest, line = bullet :: rest ∧ (bullet = '-' ∨ bullet = '*')) ∨
        ((∀ header, ¬ label header <+: line) ∧ isBulleted line = false) := by
  by_cases hlabel : ∃ header, label header <+: line
  · obtain ⟨header, rest, hrest⟩ := hlabel
    exact .inl ⟨header, rest, hrest.symm⟩
  · cases hbullet : isBulleted line with
    | true =>
      cases line with
      | nil => simp [isBulleted] at hbullet
      | cons bullet rest => exact .inr (.inl ⟨bullet, rest, rfl, by simpa [isBulleted] using hbullet⟩)
    | false => exact .inr (.inr ⟨fun header hprefix => hlabel ⟨header, hprefix⟩, rfl⟩)

theorem value?_classify (header : Header) (line : List Char) :
    BodyLine.value? header (BodyLine.classify line) =
      if label header <+: line then some (value header line) else none := by
  rcases line_cases line with ⟨found, rest, rfl⟩ | ⟨bullet, rest, rfl, hbullet⟩ | ⟨hlabel, hbullet⟩
  · rw [classify_label, BodyLine.value?_header, if_congr (label_prefix_label_iff header found rest) rfl rfl]
    by_cases hfound : found = header
    · subst hfound
      simp [value]
    · rw [if_neg hfound, if_neg hfound]
  · have hnot : ¬ label header <+: bullet :: rest := by
      rcases hbullet with rfl | rfl <;> cases header <;> simp [label, Header.name]
    rw [classify_bullet hbullet, BodyLine.value?_entry, if_neg hnot]
  · rw [classify_other hlabel hbullet, BodyLine.value?_other, if_neg (hlabel header)]

theorem entry?_classify (line : List Char) :
    BodyLine.entry? (BodyLine.classify line) =
      if isBulleted line then some (line, item line) else none := by
  rcases line_cases line with ⟨found, rest, rfl⟩ | ⟨bullet, rest, rfl, hbullet⟩ | ⟨hlabel, hbullet⟩
  · rw [classify_label, BodyLine.entry?_header, isBulleted_label]
    rfl
  · have hyes : isBulleted (bullet :: rest) = true := by simpa [isBulleted] using hbullet
    rw [classify_bullet hbullet, BodyLine.entry?_entry, if_pos hyes]
    rfl
  · rw [classify_other hlabel hbullet, BodyLine.entry?_other, hbullet]
    rfl

/-! ## The lines that count -/

theorem filterMap_ite {α β : Type} (keep : α → Bool) (f : α → β) (items : List α) :
    items.filterMap (fun a => if keep a then some (f a) else none) = (items.filter keep).map f := by
  induction items with
  | nil => rfl
  | cons a items ih =>
    by_cases h : keep a
    · rw [List.filterMap_cons_some (by rw [if_pos h]), List.filter_cons_of_pos h, List.map_cons, ih]
    · rw [List.filterMap_cons_none (by rw [if_neg h]), List.filter_cons_of_neg h, ih]

theorem headerValue_ofBody (header : Header) (body : List Char) :
    Record.headerValue header (BodyLine.ofBody body) =
      ((lastLine? header body).map (value header)).elim (.error (.missingHeader header)) .ok := by
  have hvalues : (BodyLine.ofBody body).filterMap (BodyLine.value? header) =
      ((lines body).filter (label header <+: ·)).map (value header) := by
    rw [← filterMap_ite, BodyLine.ofBody, lines, List.filterMap_map, List.filterMap_map]
    simp only [Function.comp_def, value?_classify, decide_eq_true_eq]
  unfold Record.headerValue
  rw [hvalues, List.getLast?_map, lastLine?]
  cases ((lines body).filter (label header <+: ·)).getLast? <;> rfl

theorem entries_ofBody (body : List Char) :
    (BodyLine.ofBody body).filterMap BodyLine.entry? =
      (bulletLines body).map fun line => (line, item line) := by
  rw [bulletLines, ← filterMap_ite, BodyLine.ofBody, lines, List.filterMap_map, List.filterMap_map]
  simp only [Function.comp_def, entry?_classify]

/-- The bodies have the same last lines of each header and the same lines with a bullet. -/
structure Agrees (a b : List Char) : Prop where
  /-- The last lines of the headers. -/
  lastLine?_eq : ∀ header, lastLine? header a = lastLine? header b
  /-- The lines with a bullet. -/
  bulletLines_eq : bulletLines a = bulletLines b

theorem Agrees.ofBody_eq {a b : List Char} (h : Agrees a b) : Record.ofBody a = Record.ofBody b := by
  unfold Record.ofBody
  simp only [headerValue_ofBody, entries_ofBody, h.lastLine?_eq, h.bulletLines_eq]

/-! ## What a body is read as -/

/-- What the headers of a body say. -/
structure Headers (body date title source : List Char) : Prop where
  date_eq : (lastLine? .date body).map (value .date) = some date
  title_eq : (lastLine? .title body).map (value .title) = some title
  source_eq : (lastLine? .query body).map (value .query) = some source

/-- What a line with a bullet is read as. A fault is reported with the line. -/
def readItem (line : List Char) : Except BodyError Entry :=
  (Entry.read (item line)).mapError (.malformedEntry (String.ofList line))

/-- The entries that the lines with a bullet spell. -/
def Items (body : List Char) : List Entry → Prop :=
  List.Forall₂ (fun line entry => readItem line = .ok entry) (bulletLines body)

/-- What a body is read as: each fault where none that is reported before it is there. -/
inductive Outcome (body : List Char) : Except BodyError Record → Prop
  /-- The first line with a bullet that spells no entry is reported. -/
  | malformed {error : BodyError} (hitems : FirstFailure readItem (bulletLines body) error) :
    Outcome body (.error error)
  /-- A header is missing, and none that is asked for before it. -/
  | missing {header : Header} {entries : List Entry} (hitems : Items body entries)
      (hearlier : ∀ earlier ∈ header.earlier, lastLine? earlier body ≠ none)
      (hmissing : lastLine? header body = none) :
    Outcome body (.error (.missingHeader header))
  /-- The date is none. -/
  | invalidDate {entries : List Entry} {date title source : List Char} (hitems : Items body entries)
      (hheaders : Headers body date title source) (hdate : Date.read? .tight date = none) :
    Outcome body (.error (.invalidDate (String.ofList date)))
  /-- The query is none. -/
  | invalidQuery {entries : List Entry} {dateText title source : List Char} {date : Date}
      {error : SyntaxError} (hitems : Items body entries)
      (hheaders : Headers body dateText title source)
      (hdate : Date.read? .tight dateText = some date)
      (hquery : Query.parse (String.ofList source) = .error error) :
    Outcome body (.error (.invalidQuery error))
  /-- Nothing is wrong. -/
  | record {entries : List Entry} {dateText title source : List Char} {date : Date} {query : Query}
      (hitems : Items body entries) (hheaders : Headers body dateText title source)
      (hdate : Date.read? .tight dateText = some date)
      (hquery : Query.parse (String.ofList source) = .ok query) :
    Outcome body (.ok ⟨date, String.ofList title, query, String.ofList source, Entries.ofList entries⟩)

theorem readEntries_eq_mapM (items : List (List Char)) :
    Record.readEntries (items.map fun line => (line, item line)) = items.mapM readItem := by
  induction items with
  | nil => rfl
  | cons line items ih =>
    rw [List.map_cons, Record.readEntries, List.mapM_cons, ← ih, readItem]
    cases Entry.read (item line) with
    | error fault => rfl
    | ok entry => cases Record.readEntries (items.map fun line => (line, item line)) <;> rfl

theorem Items.readEntries_eq {entries : List Entry} (h : Items body entries) :
    Record.readEntries ((bulletLines body).map fun line => (line, item line)) = .ok entries := by
  rw [readEntries_eq_mapM]
  exact mapM_of_forall₂ h

/-- All that is left to read is the date and then the query. -/
theorem Headers.ofBody_eq {dateText title source : List Char}
    (h : Headers body dateText title source) {entries : List Entry} (hitems : Items body entries) :
    Record.ofBody body =
      match Date.read? .tight dateText with
      | none => .error (.invalidDate (String.ofList dateText))
      | some date =>
        match Query.parse (String.ofList source) with
        | .error error => .error (.invalidQuery error)
        | .ok query => .ok
          ⟨date, String.ofList title, query, String.ofList source, Entries.ofList entries⟩ := by
  unfold Record.ofBody
  simp only [headerValue_ofBody, entries_ofBody, hitems.readEntries_eq, h.date_eq, h.title_eq, h.source_eq,
    Option.elim, bind, Except.bind]
  cases Date.read? .tight dateText with
  | none => rfl
  | some date => cases Query.parse (String.ofList source) <;> rfl

theorem Outcome.ofBody_eq {outcome : Except BodyError Record} (h : Outcome body outcome) :
    Record.ofBody body = outcome := by
  cases h with
  | malformed hitems =>
    unfold Record.ofBody
    simp only [entries_ofBody, readEntries_eq_mapM, mapM_of_firstFailure hitems, bind, Except.bind]
  | @missing header entries hitems hearlier hmissing =>
    have hpresent : ∀ earlier ∈ header.earlier, ∃ line, lastLine? earlier body = some line :=
      fun earlier hmem => Option.ne_none_iff_exists'.1 (hearlier earlier hmem)
    unfold Record.ofBody
    simp only [headerValue_ofBody, entries_ofBody, hitems.readEntries_eq, bind, Except.bind]
    cases header with
    | date => simp only [hmissing, Option.map_none, Option.elim]
    | title =>
      obtain ⟨dateLine, hdate⟩ := hpresent .date (by simp [Header.earlier])
      simp only [hdate, hmissing, Option.map_none, Option.map_some, Option.elim]
    | query =>
      obtain ⟨dateLine, hdate⟩ := hpresent .date (by simp [Header.earlier])
      obtain ⟨titleLine, htitle⟩ := hpresent .title (by simp [Header.earlier])
      simp only [hdate, htitle, hmissing, Option.map_none, Option.map_some, Option.elim]
  | invalidDate hitems hheaders hdate => rw [hheaders.ofBody_eq hitems, hdate]
  | invalidQuery hitems hheaders hdate hquery =>
    rw [hheaders.ofBody_eq hitems, hdate]
    simp only [hquery]
  | record hitems hheaders hdate hquery =>
    rw [hheaders.ofBody_eq hitems, hdate]
    simp only [hquery]

/-- The checks in the order in which they are made. -/
theorem exists_outcome (body : List Char) : ∃ outcome, Outcome body outcome := by
  rcases forall₂_or_firstFailure readItem (bulletLines body) with ⟨entries, hitems⟩ | ⟨error, hitems⟩
  swap
  · exact ⟨_, .malformed hitems⟩
  cases hdateLine : lastLine? .date body with
  | none => exact ⟨_, .missing hitems (by simp [Header.earlier]) hdateLine⟩
  | some dateLine =>
  cases htitleLine : lastLine? .title body with
  | none => exact ⟨_, .missing hitems (by simp [Header.earlier, hdateLine]) htitleLine⟩
  | some titleLine =>
  cases hqueryLine : lastLine? .query body with
  | none => exact ⟨_, .missing hitems (by simp [Header.earlier, hdateLine, htitleLine]) hqueryLine⟩
  | some queryLine =>
  have hheaders : Headers body (value .date dateLine) (value .title titleLine)
      (value .query queryLine) :=
    ⟨by rw [hdateLine, Option.map_some], by rw [htitleLine, Option.map_some],
      by rw [hqueryLine, Option.map_some]⟩
  cases hdate : Date.read? .tight (value .date dateLine) with
  | none => exact ⟨_, .invalidDate hitems hheaders hdate⟩
  | some date =>
  cases hquery : Query.parse (String.ofList (value .query queryLine)) with
  | error error => exact ⟨_, .invalidQuery hitems hheaders hdate hquery⟩
  | ok query => exact ⟨_, .record hitems hheaders hdate hquery⟩

theorem ofBody_eq_iff {outcome : Except BodyError Record} :
    Record.ofBody body = outcome ↔ Outcome body outcome := by
  constructor
  · rintro rfl
    obtain ⟨outcome, houtcome⟩ := exists_outcome body
    rwa [houtcome.ofBody_eq]
  · exact Outcome.ofBody_eq

end Body

/-- Bodies with the same recognised lines are read alike, as a record or with the same fault, and the
fault is the first in the order of the lines of entries, the headers, the date and the query. -/
theorem Record.parse_recognised :
    (∀ a b : String, Body.Agrees a.toList b.toList → parse a = parse b) ∧
      ∀ (body : String) (outcome : Except BodyError Record),
        parse body = outcome ↔ Body.Outcome body.toList outcome :=
  ⟨fun _ _ h => h.ofBody_eq, fun _ _ => Body.ofBody_eq_iff⟩

/-- Blank lines, a stray line, a repeated title, other line ends, indentation and another order. -/
theorem Record.parse_recognised_choir :
    let plain := "date: 2024-01-05\ntitle: Choir\nquery: #alto\n- [[Ann]], \"here\"\n* [[Bob]]\n"
    let ragged := "\r\n  - [[Ann]], \"here\"\r\ntitle: Band\r\nquery: #alto\r\n\r\nsee below\r\n" ++
      "* [[Bob]]\r\n\ttitle: Choir\r\ndate: 2024-01-05"
    Body.Agrees plain.toList ragged.toList ∧ parse plain = parse ragged := by
  intro plain ragged
  -- in one evaluation, so that the lines of the two bodies are found once
  obtain ⟨hdate, htitle, hquery, hbullets⟩ :
      Body.lastLine? .date plain.toList = Body.lastLine? .date ragged.toList ∧
      Body.lastLine? .title plain.toList = Body.lastLine? .title ragged.toList ∧
      Body.lastLine? .query plain.toList = Body.lastLine? .query ragged.toList ∧
      Body.bulletLines plain.toList = Body.bulletLines ragged.toList := by decide +kernel
  have hagrees : Body.Agrees plain.toList ragged.toList := by
    refine ⟨fun header => ?_, hbullets⟩
    cases header with
    | date => exact hdate
    | title => exact htitle
    | query => exact hquery
  exact ⟨hagrees, parse_recognised.1 plain ragged hagrees⟩

end RollCall
