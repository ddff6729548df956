import RollCall.Block.Body

/-!
# Attendance blocks

A block is a region of a document between two fences: a line that begins with three backticks and the
word `attendance`, and the next three backticks. A block that is never closed runs to the end of the
text.

A scan cuts the text into what stands before a block, its body, and what stands behind it. The pieces
put together are the text, so that a block can be replaced without touching anything else.

`Block` is the program's `ScannedBlock`; `Block.scan` is `parse_all_blocks`, and `Block.next?` is
`parse_next_block`.
-/

namespace RollCall

/-- What closes a block. -/
def closingFence : List Char := "```".toList

/-- What opens a block. -/
def openingFence : List Char := "```attendance".toList

/-- A block and the text around it. -/
structure Cut where
  /-- The text in front of the opening fence. -/
  before : List Char
  /-- The text between the fences. -/
  body : List Char
  /-- Whether there is a closing fence; if not, the block runs to the end of the text. -/
  closed : Bool
  /-- The text behind the closing fence. -/
  after : List Char

namespace Cut

/-- The block with its fences. -/
def inside (cut : Cut) : List Char :=
  openingFence ++ cut.body ++ if cut.closed then closingFence else []

/-- The text that was cut. -/
def text (cut : Cut) : List Char :=
  cut.before ++ cut.inside ++ cut.after

/-- The same block in a text that begins with `lead`. -/
def shift (lead : List Char) (cut : Cut) : Cut :=
  { cut with before := lead ++ cut.before }

/-- The record of the block, or why it has none. -/
def parsed (cut : Cut) : Except BodyError Record :=
  Record.ofBody cut.body

/-- The byte offset of the opening fence. -/
def start (cut : Cut) : Nat := Text.bytes cut.before

/-- The byte offset behind the block. -/
def stop (cut : Cut) : Nat := cut.start + Text.bytes cut.inside

end Cut

/-- What follows an opening fence at the front of a text. The word on the fence has to end there, so
that a longer word opens no block. -/
def afterOpening? (text : List Char) : Option (List Char) :=
  match Text.after? openingFence text with
  | none => none
  | some rest => if (rest.head?.map Text.isBlank).getD true then some rest else none

/-- The text before and after the first opening fence. -/
def cutOpening? : List Char → Option (List Char × List Char)
  | [] => none
  | c :: text =>
    match afterOpening? (c :: text) with
    | some rest => some ([], rest)
    | none => (cutOpening? text).map fun (before, rest) => (c :: before, rest)

/-- The first block of a text. -/
def Cut.first? (text : List Char) : Option Cut :=
  match cutOpening? text with
  | none => none
  | some (before, rest) =>
    match Text.cut? closingFence rest with
    | some (body, after) => some ⟨before, body, true, after⟩
    | none => some ⟨before, rest, false, []⟩

theorem length_of_afterOpening? {text rest : List Char} (h : afterOpening? text = some rest) :
    rest.length < text.length := by
  unfold afterOpening? at h
  split at h
  · simp at h
  · next found hfound =>
    have hlength := Text.length_of_after? hfound
    have hfence : openingFence.length = 13 := by decide
    obtain rfl : found = rest := by simpa using (Option.ite_none_right_eq_some.1 h).2
    omega

theorem length_of_cutOpening? {text before rest : List Char}
    (h : cutOpening? text = some (before, rest)) : rest.length < text.length := by
  induction text generalizing before with
  | nil => simp [cutOpening?] at h
  | cons c text ih =>
    simp only [cutOpening?] at h
    split at h
    · next found hfound =>
      cases h
      exact length_of_afterOpening? hfound
    · obtain ⟨pieces, hpieces, he⟩ := Option.map_eq_some_iff.1 h
      cases he
      exact Nat.lt_succ_of_lt (ih hpieces)

/-- What stands behind a block is shorter than the text. -/
theorem Cut.length_after_lt {text : List Char} {cut : Cut} (h : Cut.first? text = some cut) :
    cut.after.length < text.length := by
  simp only [Cut.first?] at h
  split at h
  · simp at h
  · next before rest hopening =>
    have hrest := length_of_cutOpening? hopening
    split at h
    · next body after hclosing =>
      cases h
      exact Nat.lt_of_le_of_lt (Text.length_of_cut? hclosing) hrest
    · cases h
      exact Nat.zero_lt_of_lt hrest

/-- The blocks of `text`, which follows `lead`. Nothing follows a block that is not closed. -/
def Cut.scanFrom (lead text : List Char) : List Cut :=
  match _h : Cut.first? text with
  | none => []
  | some cut =>
    cut.shift lead ::
      if cut.closed then Cut.scanFrom (lead ++ cut.before ++ cut.inside) cut.after else []
termination_by text.length
decreasing_by exact Cut.length_after_lt _h

/-- The blocks of a text, in order. -/
def Cut.scan (text : List Char) : List Cut :=
  Cut.scanFrom [] text

/-- A block by its place in the text. -/
structure Block where
  /-- The byte offset of the opening fence. -/
  start : Nat
  /-- The byte offset behind the closing fence. -/
  stop : Nat
  /-- Whether the block is never closed and runs to the end of the text. -/
  endOfText : Bool
  /-- The record of the block, or why it has none. -/
  parsed : Except BodyError Record

/-- The place of a block. -/
def Cut.block (cut : Cut) : Block :=
  ⟨cut.start, cut.stop, !cut.closed, cut.parsed⟩

namespace Block

/-- The blocks of a text, in order. -/
def scan (text : String) : List Block :=
  (Cut.scan text.toList).map Cut.block

/-- The first block that begins at or after a byte offset. An offset past the end is the end; one
inside a character begins nothing. -/
def next? (text : String) (offset : Nat) : Option Block :=
  match Text.splitAtByte? (min offset (Text.bytes text.toList)) text.toList with
  | none => none
  | some (lead, rest) => (Cut.first? rest).map fun cut => (cut.shift lead).block

end Block

end RollCall
