import RollCall.Proofs.Calendar.Date
import RollCall.Proofs.Names.Path
import RollCall.Proofs.Terminal.Style
import RollCall.Report.Attendees
import RollCall.Report.Blocks
import RollCall.Report.Query

/-!
# Reports in color

A report with colors is seen as the report without them, cell by cell: only whole pieces of a line are
painted, and the cell of a state, which is padded after it was painted, is wider by what its control
sequences take up.
-/

namespace RollCall

open Style

/-! ## The strings of what is reported -/

/-- Texts without escape characters. -/
def AllPlain (strings : List String) : Prop :=
  ∀ text ∈ strings, Plain text

instance (strings : List String) : Decidable (AllPlain strings) :=
  inferInstanceAs (Decidable (∀ text ∈ strings, Plain text))

theorem AllPlain.of_subset {a b : List String} (h : AllPlain b) (hsub : a ⊆ b) : AllPlain a :=
  fun text htext => h text (hsub htext)

theorem AllPlain.of_flatMap {α : Type} {items : List α} {strings : α → List String}
    (h : AllPlain (items.flatMap strings)) {x : α} (hx : x ∈ items) : AllPlain (strings x) :=
  fun text htext => h text (List.mem_flatMap.2 ⟨x, hx, htext⟩)

/-- The strings of a state. -/
def AttendanceState.strings (state : AttendanceState) : List String :=
  [state.name, state.icon, state.color]

/-- The strings of an entry. -/
def Entry.strings (entry : Entry) : List String :=
  [entry.link, entry.state, entry.note]

/-- The string of a term. -/
def Term.strings : Term → List String
  | tag name => [name]
  | folder path => [path]
  | link target => [target]

/-- The strings of a query. -/
def Query.strings : Query → List String
  | term t => t.strings
  | binary _ left right => left.strings ++ right.strings

/-- The strings of a record. -/
def Record.strings (record : Record) : List String :=
  record.title :: record.source :: (record.query.strings ++ record.entries.toList.flatMap Entry.strings)

theorem Entry.plain_parts {entry : Entry} (h : AllPlain entry.strings) :
    Plain entry.link ∧ Plain entry.state ∧ Plain entry.note :=
  ⟨h _ (by simp [strings]), h _ (by simp [strings]), h _ (by simp [strings])⟩

theorem Record.plain_head {record : Record} (h : AllPlain record.strings) :
    Plain record.title ∧ Plain record.source :=
  ⟨h _ (by simp [strings]), h _ (by simp [strings])⟩

/-- The strings of a fault of a query. -/
def SyntaxError.strings : SyntaxError → List String
  | invalidKeyword word _ => [word]
  | unexpectedTerm term _ => [term]
  | _ => []

/-- The strings of the reason why a body is no record. -/
def BodyError.strings : BodyError → List String
  | missingHeader _ => []
  | invalidDate text => [text]
  | invalidQuery error => error.strings
  | malformedEntry line _ => [line]

/-- The strings of a block. -/
def DocumentBlock.strings (block : DocumentBlock) : List String :=
  block.path ::
    match block.parsed with
    | .ok record => record.strings
    | .error error => error.strings

/-! ## Texts that are shown as they are -/

theorem plain_repr (n : Nat) : Plain n.repr := by
  intro h
  exact absurd (isDigit_of_mem_repr h) (by decide)

theorem Date.plain_text (date : Date) : Plain date.text := by
  rw [Date.text, plain_ofList]
  intro h
  have hdigit := Date.mem_chars h
  revert hdigit
  decide

theorem Path.plain_displayName {path : String} (h : Plain path) : Plain (Path.displayName path) :=
  fun hesc => h ((Path.displayName_isInfix path).subset hesc)

theorem Query.plain_render {query : Query} (h : AllPlain query.strings) : Plain query.render := by
  rw [Query.render, plain_ofList]
  induction query with
  | term t =>
    cases t <;> simp_all [AllPlain, Query.strings, Term.strings, Query.chars, Term.chars, Plain]
  | binary operation left right ihLeft ihRight =>
    have hleft := ihLeft (h.of_subset (List.subset_append_left _ _))
    have hright := ihRight (h.of_subset (List.subset_append_right _ _))
    cases operation <;> simp [Query.chars, Operation.keyword, hleft, hright]

/-- Any character may stand in front of a text that does not begin with a bracket. -/
theorem seenAs_singleton_append (c : Char) {d : Char} {text : String} (h : Plain text)
    (hhead : text.toList.head? = some d) (hd : d ≠ '[') :
    SeenAs (String.singleton c ++ text) (String.singleton c ++ text) := by
  obtain ⟨behind, htext⟩ := List.head?_eq_some_iff.1 hhead
  refine ⟨fun rest => ?_, le_rfl, rfl⟩
  have hstrip := strip_append h rest
  rw [htext, List.cons_append] at hstrip
  rw [String.toList_append, String.toList_singleton, htext]
  change strip (c :: d :: (behind ++ rest)) = _
  rw [strip_cons_cons c hd, hstrip]
  rfl

theorem Operation.plain_name (operation : Operation) : Plain operation.name := by
  cases operation <;> decide

theorem Side.plain_name (side : Side) : Plain side.name := by
  cases side <;> decide

theorem SyntaxError.seenAs_message {error : SyntaxError} (h : AllPlain error.strings) :
    SeenAs error.message error.message := by
  unfold SyntaxError.message
  cases error <;> dsimp only [toString]
  case emptyQuery => exact .of_plain (by decide +kernel)
  case unclosedParenthesis => exact .of_plain (by decide +kernel)
  case invalidCharacter c position =>
    have hfront : Plain "unexpected character '" := by decide +kernel
    have hbehind : Plain "' at position " := by decide +kernel
    have hquote : "' at position ".toList.head? = some '\'' := by decide +kernel
    have hassoc := @String.append_assoc "unexpected character '" (String.singleton c) "' at position "
    rw [Char.toString_eq_singleton, hassoc]
    exact ((SeenAs.of_plain hfront).append (seenAs_singleton_append c hbehind hquote (by decide))).append
      (.of_plain (plain_repr position))
  all_goals
    refine .of_plain ?_
    simp only [plain_append, plain_repr, Operation.plain_name, Side.plain_name, and_true]
  case invalidKeyword word position =>
    have hword : Plain word := h word List.mem_cons_self
    simp only [hword, and_true]
    decide +kernel
  case unexpectedTerm term position =>
    have hterm : Plain term := h term List.mem_cons_self
    simp only [hterm, and_true]
    decide +kernel
  all_goals decide +kernel

theorem EntryFault.plain_message (fault : EntryFault) : Plain fault.message := by
  cases fault <;> decide +kernel

theorem BodyError.seenAs_message {error : BodyError} (h : AllPlain error.strings) :
    SeenAs error.message error.message := by
  unfold BodyError.message
  cases error with
  | missingHeader header =>
    refine .of_plain ?_
    cases header <;> decide +kernel
  | invalidDate text =>
    have htext : Plain text := h text List.mem_cons_self
    refine .of_plain ?_
    simp only [toString, plain_append, htext, and_true]
    decide +kernel
  | invalidQuery error =>
    have hfront : Plain "invalid query: " := by decide +kernel
    exact (SeenAs.of_plain hfront).append (SyntaxError.seenAs_message h)
  | malformedEntry line fault =>
    have hline : Plain line := h line List.mem_cons_self
    refine .of_plain ?_
    simp only [toString, plain_append, hline, fault.plain_message, and_true]
    decide +kernel

/-! ## States -/

namespace AttendanceState

variable {states : List AttendanceState} {key : String}

theorem seenAs_shown {state : AttendanceState} (h : AllPlain state.strings) :
    SeenAs (state.shown true) (state.shown false) := by
  have hname : Plain state.name := h state.name (by simp [strings])
  have hicon : Plain state.icon := h state.icon (by simp [strings])
  have hlabel : Plain state.label := by
    rw [label, plain_append, plain_append]
    exact ⟨⟨hicon, by decide⟩, hname⟩
  unfold shown
  cases state.style? with
  | none => exact .of_plain hlabel
  | some style => exact (SeenAs.of_plain hlabel).paint style

theorem seenAs_showKey (hstates : AllPlain (states.flatMap strings)) (hkey : Plain key) :
    SeenAs (showKey states true key) (showKey states false key) := by
  unfold showKey
  split
  · exact (SeenAs.of_plain (by decide)).paint .dimmed
  · cases hfind : ofKey? states key with
    | none => exact .of_plain hkey
    | some state => exact seenAs_shown (hstates.of_flatMap (List.mem_of_find?_eq_some hfind))

/-- Colors make the cell of a state no shorter, whatever is in it. -/
theorem bytes_showKey_le (states : List AttendanceState) (colors : Bool) (key : String) :
    Text.bytes (showKey states false key).toList ≤ Text.bytes (showKey states colors key).toList := by
  unfold showKey
  split
  · exact bytes_le_bytes_paint .dimmed colors "-"
  · cases ofKey? states key with
    | none => exact le_rfl
    | some state =>
      dsimp only
      unfold shown
      cases state.style? with
      | none => exact le_rfl
      | some style => exact bytes_le_bytes_paint style colors state.label

end AttendanceState

namespace Report

variable {states : List AttendanceState} {record : Record} {entry : Entry} {block : DocumentBlock}
  {query : Query}

/-! ## Cells -/

theorem plain_spaces (n : Nat) : Plain (String.ofList (List.replicate n ' ')) := by
  rw [plain_ofList]
  intro h
  exact absurd (List.eq_of_mem_replicate h) (by decide)

theorem left_eq (width : Nat) (text : String) :
    left width text = text ++ String.ofList (List.replicate (width - text.toList.length) ' ') := by
  rw [left, Text.padRight, String.ofList_append, String.ofList_toList]

theorem plain_left (width : Nat) {text : String} (h : Plain text) : Plain (left width text) := by
  rw [left_eq, plain_append]
  exact ⟨h, plain_spaces _⟩

theorem plain_right (width : Nat) {text : String} (h : Plain text) : Plain (right width text) := by
  rw [right, Text.padLeft, String.ofList_append, String.ofList_toList, plain_append]
  exact ⟨plain_spaces _, h⟩

theorem plain_cut (width : Nat) {text : String} (h : Plain text) : Plain (cut width text) := by
  refine plain_left width (plain_ofList.2 ?_)
  unfold Text.truncate
  split
  · rw [List.mem_append, not_or]
    exact ⟨fun hesc => h (List.mem_of_mem_take hesc), by decide⟩
  · exact h

/-- A cell that is wider already is not padded again. -/
theorem left_left {width wider : Nat} (h : width ≤ wider) (text : String) :
    left width (left wider text) = left wider text := by
  have hlength : width - (left wider text).toList.length = 0 := by
    rw [left, String.toList_ofList, Text.padRight, List.length_append, List.length_replicate]
    omega
  rw [left_eq width, hlength, List.replicate_zero, String.ofList_nil, String.append_empty]

/-- A cell that is wider by the control sequences in it is seen as a cell without them. -/
theorem seenAs_left {shown seen : String} (h : SeenAs shown seen) (width : Nat) :
    SeenAs (left (width + Text.bytes shown.toList - Text.bytes seen.toList) shown)
      (left width seen) := by
  have hbytes := h.bytes_le
  have hlength := h.bytes_add_length
  have hspaces : width + Text.bytes shown.toList - Text.bytes seen.toList - shown.toList.length =
      width - seen.toList.length := by
    omega
  rw [left_eq, left_eq, hspaces]
  exact h.append (.of_plain (plain_spaces _))

theorem seenAs_heading {text : String} (h : Plain text) :
    SeenAs (heading true text) (heading false text) :=
  ((SeenAs.of_plain h).paint .dimmed).append (.of_plain (by decide))

/-! ## Attendees -/

theorem seenAs_stateCell (hstates : AllPlain (states.flatMap AttendanceState.strings))
    {key : String} (hkey : Plain key) :
    SeenAs (left 12 (left (stateWidth states true key) (AttendanceState.showKey states true key)))
      (left 12 (left (stateWidth states false key) (AttendanceState.showKey states false key))) := by
  have hseen := AttendanceState.seenAs_showKey hstates hkey
  have hbytes := hseen.bytes_le
  have hplain : stateWidth states false key = 12 := Nat.add_sub_cancel _ _
  have hwide : 12 ≤ stateWidth states true key := by
    unfold stateWidth
    omega
  rw [left_left hwide, hplain, left_left le_rfl]
  exact seenAs_left hseen 12

theorem seenAs_attendeeLine (hstates : AllPlain (states.flatMap AttendanceState.strings))
    (hentry : AllPlain entry.strings) :
    SeenAs (attendeeLine states true entry) (attendeeLine states false entry) := by
  obtain ⟨hlink, hstate, hnote⟩ := Entry.plain_parts hentry
  have hname := plain_left 24 (plain_cut 24 (Path.plain_displayName hlink))
  have hspace : Plain " " := by decide
  have hend : Plain "\n" := by decide
  have hcells := ((SeenAs.of_plain hname).append (.of_plain hspace)).append
    (seenAs_stateCell hstates hstate)
  have hrow := (hcells.append (.of_plain hspace)).append (.of_plain hnote)
  exact hrow.append (.of_plain hend)

theorem seenAs_attendeeTable {entries : List Entry}
    (hstates : AllPlain (states.flatMap AttendanceState.strings))
    (hentries : AllPlain (entries.flatMap Entry.strings)) :
    SeenAs (attendeeTable states true entries) (attendeeTable states false entries) := by
  have hhead : Plain (attendeeRow "Attendee" "State" "Note") := by decide +kernel
  unfold attendeeTable
  split
  · exact .of_plain (by decide +kernel)
  · exact (seenAs_heading hhead).append
      (.join fun entry hentry => seenAs_attendeeLine hstates (hentries.of_flatMap hentry))

theorem seenAs_ofAttendees (path : String) {entries : List Entry}
    (hstates : AllPlain (states.flatMap AttendanceState.strings)) (hrecord : AllPlain record.strings)
    (hentries : AllPlain (entries.flatMap Entry.strings)) :
    SeenAs ((ofAttendees states path record entries).text true)
      ((ofAttendees states path record entries).text false) := by
  obtain ⟨htitle, hsource⟩ := Record.plain_head hrecord
  have hhead : Plain s!"{record.date.text} {record.title}" :=
    plain_append.2 ⟨plain_append.2 ⟨record.date.plain_text, by decide⟩, htitle⟩
  have hquery : Plain s!"Query: {record.source}\n\n" :=
    plain_append.2 ⟨plain_append.2 ⟨by decide, hsource⟩, by decide⟩
  have hend : Plain "\n" := by decide
  have hlines := (((SeenAs.of_plain hhead).paint .bold).append (.of_plain hend)).append
    (.of_plain hquery)
  exact hlines.append (seenAs_attendeeTable hstates hentries)

theorem seenAs_ofRecorded (path : String)
    (hstates : AllPlain (states.flatMap AttendanceState.strings)) (hrecord : AllPlain record.strings)
    (hentry : AllPlain entry.strings) :
    SeenAs ((ofRecorded states path record entry).text true)
      ((ofRecorded states path record entry).text false) := by
  obtain ⟨hlink, hstate, -⟩ := Entry.plain_parts hentry
  obtain ⟨htitle, -⟩ := Record.plain_head hrecord
  have hname := Path.plain_displayName hlink
  have hdate := record.date.plain_text
  have his : Plain " is " := by decide
  have hat : Plain " at " := by decide
  have hopening : Plain " (" := by decide
  have hclosing : Plain ")\n" := by decide
  have hfront := ((SeenAs.of_plain hname).append (.of_plain his)).append
    (AttendanceState.seenAs_showKey hstates hstate)
  have hplace := (hfront.append (.of_plain hat)).append (.of_plain htitle)
  exact ((hplace.append (.of_plain hopening)).append (.of_plain hdate)).append (.of_plain hclosing)

/-! ## Blocks and queries -/

theorem plain_blockLine? (h : AllPlain block.strings) : Plain ((blockLine? block).getD "") := by
  have hpath : Plain block.path := h block.path List.mem_cons_self
  unfold blockLine?
  cases hparsed : block.parsed with
  | error error => exact plain_empty
  | ok record =>
    have hrecord : AllPlain record.strings := by
      refine h.of_subset ?_
      simp [DocumentBlock.strings, hparsed]
    obtain ⟨htitle, hsource⟩ := Record.plain_head hrecord
    have hdate := plain_left 10 record.date.plain_text
    have htitleCell := plain_left 24 (plain_cut 24 htitle)
    have hentries := plain_right 7 (plain_repr record.entries.size)
    have hsourceCell := plain_left 24 (plain_cut 24 hsource)
    have hspace : Plain " " := by decide
    have hspaces : Plain "  " := by decide
    have hend : Plain "\n" := by decide
    simp only [Option.getD_some, blockRow, toString, plain_append, hdate, htitleCell, hentries,
      hsourceCell, hpath, hspace, hspaces, hend, and_true]

theorem seenAs_faultLine? (h : AllPlain block.strings) :
    SeenAs ((faultLine? true block).getD "") ((faultLine? false block).getD "") := by
  have hpath : Plain block.path := h block.path List.mem_cons_self
  unfold faultLine?
  cases hparsed : block.parsed with
  | ok record => exact .of_plain plain_empty
  | error error =>
    have herror : AllPlain error.strings := by
      refine h.of_subset ?_
      simp [DocumentBlock.strings, hparsed]
    have hcolon : Plain ": " := by decide
    have hend : Plain "\n" := by decide
    have hline := ((SeenAs.of_plain hpath).append (.of_plain hcolon)).append
      (BodyError.seenAs_message herror)
    exact (hline.paint .red).append (.of_plain hend)

theorem seenAs_ofBlocks {blocks : List DocumentBlock}
    (h : AllPlain (blocks.flatMap DocumentBlock.strings)) :
    SeenAs ((ofBlocks blocks).text true) ((ofBlocks blocks).text false) := by
  have hhead : Plain (blockRow "Date" "Title" "Entries" "Query" "Document") := by decide +kernel
  have hlines := SeenAs.join_filterMap fun block hblock =>
    SeenAs.of_plain (plain_blockLine? (h.of_flatMap hblock))
  have hfaults := SeenAs.join_filterMap fun block hblock => seenAs_faultLine? (h.of_flatMap hblock)
  dsimp only [ofBlocks]
  split
  · exact .of_plain (by decide +kernel)
  · exact ((seenAs_heading hhead).append hlines).append hfaults

theorem seenAs_ofQuery {resolved? : Option NameSet} (hquery : AllPlain query.strings)
    (hresolved : ∀ resolved ∈ resolved?, AllPlain resolved.toList) :
    SeenAs ((ofQuery query resolved?).text true) ((ofQuery query resolved?).text false) := by
  have hrender := Query.plain_render hquery
  have hend : Plain "\n" := by decide
  refine (((SeenAs.of_plain hrender).paint .bold).append (.of_plain hend)).append ?_
  cases resolved? with
  | none => exact .of_plain plain_empty
  | some resolved =>
    have hpaths := hresolved resolved rfl
    change SeenAs (resolvedLines resolved) (resolvedLines resolved)
    unfold resolvedLines
    split
    · exact .of_plain (by decide +kernel)
    · refine .join fun path hpath => .of_plain ?_
      exact plain_append.2 ⟨plain_append.2 ⟨by decide, hpaths path hpath⟩, by decide⟩

/-- Colors change nothing of what is seen: without its control sequences, a report with colors is the
report without colors. The width of the cell of a state never falls below zero. -/
theorem text_colors :
    (∀ states path record entries, AllPlain (states.flatMap AttendanceState.strings) →
      AllPlain record.strings → AllPlain (entries.flatMap Entry.strings) →
      strip ((ofAttendees states path record entries).text true).toList =
        ((ofAttendees states path record entries).text false).toList) ∧
    (∀ states path record entry, AllPlain (states.flatMap AttendanceState.strings) →
      AllPlain record.strings → AllPlain entry.strings →
      strip ((ofRecorded states path record entry).text true).toList =
        ((ofRecorded states path record entry).text false).toList) ∧
    (∀ blocks, AllPlain (blocks.flatMap DocumentBlock.strings) →
      strip ((ofBlocks blocks).text true).toList = ((ofBlocks blocks).text false).toList) ∧
    (∀ query resolved?, AllPlain query.strings →
      (∀ resolved ∈ resolved?, AllPlain (NameSet.toList resolved)) →
      strip ((ofQuery query resolved?).text true).toList =
        ((ofQuery query resolved?).text false).toList) ∧
    ∀ states colors key, Text.bytes (AttendanceState.showKey states false key).toList ≤
      12 + Text.bytes (AttendanceState.showKey states colors key).toList := by
  refine ⟨?_, ?_, ?_, ?_, ?_⟩
  · intro states path record entries hstates hrecord hentries
    exact (seenAs_ofAttendees path hstates hrecord hentries).strip_eq
  · intro states path record entry hstates hrecord hentry
    exact (seenAs_ofRecorded path hstates hrecord hentry).strip_eq
  · intro blocks hblocks
    exact (seenAs_ofBlocks hblocks).strip_eq
  · intro query resolved? hquery hresolved
    exact (seenAs_ofQuery hquery hresolved).strip_eq
  · intro states colors key
    exact (AttendanceState.bytes_showKey_le states colors key).trans (Nat.le_add_left _ _)

/-- A table with a known state, one that is not known and none, a state that was recorded, two blocks of
which one has a fault, and a query with what it selects. -/
theorem text_colors_choir :
    let states := AttendanceState.standard
    let choir : Record := ⟨⟨2024, 1, 5, by decide, by decide, by decide⟩, "Choir", .tag "alto", "#alto",
      ⟨[⟨"ann.md", "present", ""⟩, ⟨"bob.md", "late", "bus"⟩], by decide⟩⟩
    let guests := [⟨"ann.md", "present", ""⟩, ⟨"bob.md", "late", "bus"⟩, ⟨"eve.md", "", ""⟩]
    let blocks := [⟨"choir.md", .ok choir⟩, ⟨"draft.md", .error (.invalidDate "friday")⟩]
    let members := NameSet.ofList ["ann.md", "bob.md", "eve.md"]
    (ofAttendees states "choir.md" choir guests).text true ≠
        (ofAttendees states "choir.md" choir guests).text false ∧
      strip ((ofAttendees states "choir.md" choir guests).text true).toList =
        ((ofAttendees states "choir.md" choir guests).text false).toList ∧
      strip ((ofRecorded states "choir.md" choir ⟨"ann.md", "present", ""⟩).text true).toList =
        ((ofRecorded states "choir.md" choir ⟨"ann.md", "present", ""⟩).text false).toList ∧
      strip ((ofBlocks blocks).text true).toList = ((ofBlocks blocks).text false).toList ∧
      strip ((ofQuery (.tag "alto") (some members)).text true).toList =
        ((ofQuery (.tag "alto") (some members)).text false).toList := by
  intro states choir guests blocks members
  have hstates : AllPlain (states.flatMap AttendanceState.strings) := by decide +kernel
  have hchoir : AllPlain choir.strings := by decide +kernel
  obtain ⟨hattendees, hrecorded, hblocks, hquery, -⟩ := text_colors
  refine ⟨by decide +kernel, hattendees states _ choir guests hstates hchoir (by decide +kernel),
    hrecorded states _ choir _ hstates hchoir (by decide +kernel), hblocks blocks (by decide +kernel),
    hquery _ _ (by decide +kernel) ?_⟩
  rintro resolved ⟨⟩
  decide +kernel

end Report
end RollCall
