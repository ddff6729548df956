import RollCall.Proofs.Query.Spelling
import RollCall.Proofs.Text.Offset
import Mathlib.Order.Monotone.Basic

/-!
# Reading tokens by byte offsets

A lexer that knows its place as a byte offset has to cut the text at offsets that it computes: one
byte behind a quote, two behind the brackets of a link, and where a search has found the closing ones.
A cut past the end or within a character would fail. `Cursor.next?` is such a lexer, and it never
fails, whatever has been read before (`Lexer.calls_in_bounds`).
-/

namespace RollCall

/-! ## Cutting a text at byte offsets -/

namespace Text

/-- The text behind an offset; nothing if the offset is past the end or within a character. -/
def behind? (text : List Char) (offset : Nat) : Option (List Char) :=
  (splitAtByte? offset text).map Prod.snd

/-- The text between two offsets; nothing unless both are places between characters, in this order. -/
def slice? (text : List Char) (start stop : Nat) : Option (List Char) :=
  (splitAtByte? stop text).bind fun pieces => behind? pieces.1 start

/-- The offset of the first occurrence of a pattern. -/
def offset? (pattern text : List Char) : Option Nat :=
  (cut? pattern text).map fun pieces => bytes pieces.1

theorem behind?_bytes (before after : List Char) :
    behind? (before ++ after) (bytes before) = some after := by
  rw [behind?, splitAtByte?_bytes, Option.map_some]

theorem slice?_bytes (before piece after : List Char) :
    slice? (before ++ (piece ++ after)) (bytes before) (bytes before + bytes piece) = some piece := by
  rw [slice?, ← bytes_append, ← List.append_assoc, splitAtByte?_bytes, Option.bind_some,
    behind?_bytes]

theorem bytes_add_utf8Size_le {text rest : List Char} {offset : Nat} {c : Char}
    (h : behind? text offset = some (c :: rest)) : offset + c.utf8Size ≤ bytes text := by
  obtain ⟨⟨front, behind⟩, hsplit, rfl⟩ := Option.map_eq_some_iff.1 h
  obtain ⟨rfl, rfl⟩ := append_of_splitAtByte? hsplit
  rw [bytes_append, bytes_cons]
  omega

end Text

/-! ## A lexer that knows offsets only -/

namespace Cursor

/-- What a step found, and the offset where it stopped; nothing if the text cannot be cut where the
step has to cut it. -/
abbrev Step := Option (Except SyntaxError (Option PlacedToken) × Nat)

/-- The step that finds a token. -/
def found (token : Token) (start stop : Nat) : Step :=
  some (.ok (some ⟨token, start⟩), stop)

/-- The step that finds a fault. -/
def fault (error : SyntaxError) (stop : Nat) : Step :=
  some (.error error, stop)

/-- The offset of the next character that is none of these. -/
def pass? (p : Char → Bool) (text : List Char) (offset : Nat) : Option Nat :=
  match _h : Text.behind? text offset with
  | none => none
  | some [] => some offset
  | some (c :: _) => if p c then pass? p text (offset + c.utf8Size) else some offset
termination_by Text.bytes text - offset
decreasing_by
  have hle := Text.bytes_add_utf8Size_le _h
  have hpos := c.utf8Size_pos
  omega

/-- Reads a tag, whose `#` takes one byte. -/
def readTag? (text : List Char) (start : Nat) : Step := do
  let stop ← pass? Token.isTagChar text (start + 1)
  let rest ← Text.behind? text stop
  let name ← Text.slice? text (start + 1) stop
  if stop ≠ start + 1 ∧ (rest.head?.map Token.isTagEnd).getD true = true then
    found (.term (.tag (String.ofList name))) start stop
  else fault (.invalidTag start) stop

/-- Reads a folder, whose quotes take one byte each. -/
def readFolder? (text : List Char) (start : Nat) : Step := do
  let inner ← Text.behind? text (start + 1)
  match Text.offset? ['"'] inner with
  | none => fault (.unterminatedFolder start) start
  | some length =>
    let path ← Text.slice? text (start + 1) (start + 1 + length)
    found (.term (.folder (String.ofList path))) start (start + 1 + length + 1)

/-- Reads a link, whose brackets take two bytes on each side. -/
def readLink? (text : List Char) (start : Nat) : Step := do
  let rest ← Text.behind? text start
  match Text.after? ['[', '['] rest with
  | none => fault (.invalidCharacter '[' start) start
  | some _ =>
    let inner ← Text.behind? text (start + 2)
    match Text.offset? [']', ']'] inner with
    | none => fault (.unterminatedLink start) start
    | some length =>
      let target ← Text.slice? text (start + 2) (start + 2 + length)
      found (.term (.link (String.ofList target))) start (start + 2 + length + 2)

/-- Reads a run of letters. -/
def readWord? (text : List Char) (start : Nat) : Step := do
  let stop ← pass? Char.isAlpha text start
  let word ← Text.slice? text start stop
  if word = Operation.keyword .and then found (.keyword .and) start stop
  else if word = Operation.keyword .or then found (.keyword .or) start stop
  else fault (.invalidKeyword (String.ofList word) start) stop

/-- Reads the token whose first character is at the offset. -/
def readToken? (text : List Char) (start : Nat) (c : Char) : Step :=
  if c = '(' then found .opening start (start + 1)
  else if c = ')' then found .closing start (start + 1)
  else if c = '#' then readTag? text start
  else if c = '"' then readFolder? text start
  else if c = '[' then readLink? text start
  else if c.isAlpha then readWord? text start
  else fault (.invalidCharacter c start) start

/-- The next token; none at the end of the text. -/
def next? (text : List Char) (offset : Nat) : Step := do
  let start ← pass? Text.isBlank text offset
  match ← Text.behind? text start with
  | [] => some (.ok none, start)
  | c :: _ => readToken? text start c

/-- The step of a lexer as it is seen by offsets. -/
def ofStep (step : Lexer.Step) : Step := some (step.1, step.2.position)

theorem pass?_bytes (p : Char → Bool) (before rest : List Char) :
    pass? p (before ++ rest) (Text.bytes before) =
      some (Text.bytes before + Text.bytes (rest.takeWhile p)) := by
  induction rest generalizing before with
  | nil =>
    rw [pass?, Text.behind?_bytes]
    rfl
  | cons c rest ih =>
    rw [pass?, Text.behind?_bytes]
    dsimp only
    by_cases hc : p c = true
    · have hnext := ih (before ++ [c])
      rw [List.append_assoc, List.singleton_append, Text.bytes_append] at hnext
      rw [if_pos hc, List.takeWhile_cons_of_pos hc]
      refine hnext.trans ?_
      rw [Text.bytes_cons, Text.bytes_cons, Text.bytes_nil, Nat.add_assoc, Nat.add_zero]
    · rw [if_neg hc, List.takeWhile_cons_of_neg hc]
      rfl

/-! ## The lexer by its offsets -/

section

variable {lexer : Lexer} {text after : List Char}

theorem ofStep_found (token : Token) {piece : List Char} {n : Nat}
    (hrest : lexer.rest = piece ++ after) (hn : n = piece.length) :
    ofStep (lexer.found token n) = found token lexer.position (lexer.position + Text.bytes piece) := by
  subst hn
  rw [ofStep, Lexer.found, Lexer.advance_length hrest, Lexer.position_append, found]

theorem ofStep_fault (error : SyntaxError) {piece : List Char} {n : Nat}
    (hrest : lexer.rest = piece ++ after) (hn : n = piece.length) :
    ofStep (lexer.fault error n) = fault error (lexer.position + Text.bytes piece) := by
  subst hn
  rw [ofStep, Lexer.fault, Lexer.advance_length hrest, Lexer.position_append, fault]

theorem ofStep_fault_zero (error : SyntaxError) :
    ofStep (lexer.fault error 0) = fault error lexer.position :=
  ofStep_fault error (List.nil_append lexer.rest).symm rfl

/-- What is left of the text behind a piece in front of the lexer. -/
theorem behind?_lexer (front after : List Char) (hrest : lexer.rest = front ++ after) :
    Text.behind? (lexer.done ++ lexer.rest) (lexer.position + Text.bytes front) = some after := by
  have hbehind := Text.behind?_bytes (lexer.done ++ front) after
  rwa [Text.bytes_append, List.append_assoc, ← hrest] at hbehind

theorem slice?_lexer (front piece after : List Char) (hrest : lexer.rest = front ++ (piece ++ after)) :
    Text.slice? (lexer.done ++ lexer.rest) (lexer.position + Text.bytes front)
      (lexer.position + Text.bytes front + Text.bytes piece) = some piece := by
  have hslice := Text.slice?_bytes (lexer.done ++ front) piece after
  rwa [Text.bytes_append, List.append_assoc, ← hrest] at hslice

theorem pass?_lexer (p : Char → Bool) (front after : List Char) (hrest : lexer.rest = front ++ after) :
    pass? p (lexer.done ++ lexer.rest) (lexer.position + Text.bytes front) =
      some (lexer.position + Text.bytes front + Text.bytes (after.takeWhile p)) := by
  have hpass := pass?_bytes p (lexer.done ++ front) after
  rwa [Text.bytes_append, List.append_assoc, ← hrest] at hpass

/-- A token that is a piece between two patterns ends behind the second one. -/
theorem ofStep_found_between {opening body closing rest : List Char} (token : Token) {n : Nat}
    (hrest : lexer.rest = opening ++ (body ++ (closing ++ rest)))
    (hn : n = body.length + (opening.length + closing.length)) :
    ofStep (lexer.found token n) = found token lexer.position
      (lexer.position + Text.bytes opening + Text.bytes body + Text.bytes closing) := by
  have hpiece : lexer.rest = (opening ++ body ++ closing) ++ rest := by
    rw [hrest, List.append_assoc, List.append_assoc]
  have hlength : n = (opening ++ body ++ closing).length := by
    rw [hn, List.length_append, List.length_append]
    omega
  rw [ofStep_found token hpiece hlength, Text.bytes_append, Text.bytes_append, ← Nat.add_assoc,
    ← Nat.add_assoc]

theorem readTag?_eq (hrest : lexer.rest = '#' :: text) :
    readTag? (lexer.done ++ lexer.rest) lexer.position = ofStep (lexer.readTag text) := by
  generalize hname : text.takeWhile Token.isTagChar = name
  generalize hbehind : text.dropWhile Token.isTagChar = rest
  have htext : text = name ++ rest := by
    rw [← hname, ← hbehind, List.takeWhile_append_dropWhile]
  have hpiece : lexer.rest = ('#' :: name) ++ rest := by rw [hrest, htext, List.cons_append]
  have hlength : 1 + name.length = ('#' :: name).length := Nat.add_comm _ _
  have hstop : lexer.position + 1 + Text.bytes name = lexer.position + Text.bytes ('#' :: name) :=
    Nat.add_assoc _ _ _
  have hpass : pass? Token.isTagChar (lexer.done ++ lexer.rest) (lexer.position + 1) =
      some (lexer.position + 1 + Text.bytes name) :=
    hname ▸ pass?_lexer Token.isTagChar ['#'] text hrest
  have hcut := behind?_lexer ('#' :: name) rest hpiece
  have hslice : Text.slice? (lexer.done ++ lexer.rest) (lexer.position + 1)
      (lexer.position + 1 + Text.bytes name) = some name :=
    slice?_lexer ['#'] name rest hpiece
  have hne : lexer.position + 1 + Text.bytes name ≠ lexer.position + 1 ↔ name ≠ [] := by
    constructor
    · rintro hbytes rfl
      exact hbytes rfl
    · intro hnil
      have := Text.bytes_pos hnil
      omega
  rw [← hstop] at hcut
  simp only [readTag?, hpass, hcut, hslice, Option.bind_eq_bind, Option.bind_some, Lexer.readTag, hname,
    hbehind, hne]
  split
  · rw [ofStep_found _ hpiece hlength, hstop]
  · rw [ofStep_fault _ hpiece hlength, hstop]

theorem readFolder?_eq (hrest : lexer.rest = '"' :: text) :
    readFolder? (lexer.done ++ lexer.rest) lexer.position = ofStep (lexer.readFolder text) := by
  have hinner : Text.behind? (lexer.done ++ lexer.rest) (lexer.position + 1) = some text :=
    behind?_lexer ['"'] text hrest
  simp only [readFolder?, hinner, Option.bind_eq_bind, Option.bind_some, Text.offset?, Lexer.readFolder]
  cases hcut : Text.cut? ['"'] text with
  | none => exact (ofStep_fault_zero _).symm
  | some pieces =>
    obtain ⟨path, rest⟩ := pieces
    have htext : lexer.rest = ['"'] ++ (path ++ (['"'] ++ rest)) := by
      rw [hrest, Text.eq_append_of_cut? hcut, List.append_assoc]
      rfl
    have hslice : Text.slice? (lexer.done ++ lexer.rest) (lexer.position + 1)
        (lexer.position + 1 + Text.bytes path) = some path :=
      slice?_lexer ['"'] path (['"'] ++ rest) htext
    simp only [Option.map_some, hslice, Option.bind_some]
    exact (ofStep_found_between _ htext rfl).symm

theorem readLink?_eq (hrest : lexer.rest = '[' :: text) :
    readLink? (lexer.done ++ lexer.rest) lexer.position = ofStep (lexer.readLink text) := by
  have hbehind : Text.behind? (lexer.done ++ lexer.rest) lexer.position = some lexer.rest :=
    behind?_lexer [] lexer.rest rfl
  have hopening : Text.after? ['[', '['] lexer.rest = Text.after? ['['] text := by
    rw [hrest, Text.after?_cons_cons, if_pos rfl]
  simp only [readLink?, hbehind, Option.bind_eq_bind, Option.bind_some, hopening, Text.offset?,
    Lexer.readLink]
  cases hafter : Text.after? ['['] text with
  | none => exact (ofStep_fault_zero _).symm
  | some inner =>
    have htext : lexer.rest = ['[', '['] ++ inner := by
      rw [hrest, Text.after?_eq_some_iff.1 hafter]
      rfl
    have hinner : Text.behind? (lexer.done ++ lexer.rest) (lexer.position + 2) = some inner :=
      behind?_lexer ['[', '['] inner htext
    simp only [hinner, Option.bind_some]
    cases hcut : Text.cut? [']', ']'] inner with
    | none => exact (ofStep_fault_zero _).symm
    | some pieces =>
      obtain ⟨target, rest⟩ := pieces
      have hpieces : lexer.rest = ['[', '['] ++ (target ++ ([']', ']'] ++ rest)) := by
        rw [htext, Text.eq_append_of_cut? hcut, List.append_assoc]
      have hslice : Text.slice? (lexer.done ++ lexer.rest) (lexer.position + 2)
          (lexer.position + 2 + Text.bytes target) = some target :=
        slice?_lexer ['[', '['] target ([']', ']'] ++ rest) hpieces
      simp only [Option.map_some, hslice, Option.bind_some]
      exact (ofStep_found_between _ hpieces rfl).symm

theorem readWord?_eq (hrest : lexer.rest = text) :
    readWord? (lexer.done ++ lexer.rest) lexer.position = ofStep (lexer.readWord text) := by
  generalize hword : text.takeWhile Char.isAlpha = word
  have hpiece : lexer.rest = word ++ text.dropWhile Char.isAlpha := by
    rw [hrest, ← hword, List.takeWhile_append_dropWhile]
  have hpass : pass? Char.isAlpha (lexer.done ++ lexer.rest) lexer.position =
      some (lexer.position + Text.bytes word) :=
    hword ▸ pass?_lexer Char.isAlpha [] text hrest
  have hslice : Text.slice? (lexer.done ++ lexer.rest) lexer.position
      (lexer.position + Text.bytes word) = some word :=
    slice?_lexer [] word _ hpiece
  simp only [readWord?, hpass, hslice, Option.bind_eq_bind, Option.bind_some, Lexer.readWord, hword]
  split
  · exact (ofStep_found _ hpiece rfl).symm
  split
  · exact (ofStep_found _ hpiece rfl).symm
  · exact (ofStep_fault _ hpiece rfl).symm

theorem readToken?_eq {c : Char} (hrest : lexer.rest = c :: text) :
    readToken? (lexer.done ++ lexer.rest) lexer.position c = ofStep (lexer.readToken c text) := by
  have hsingle : lexer.rest = [c] ++ text := hrest
  have hlength : 1 = [c].length := rfl
  unfold readToken? Lexer.readToken
  split
  · next hc => rw [ofStep_found .opening hsingle hlength, hc]; rfl
  split
  · next hc => rw [ofStep_found .closing hsingle hlength, hc]; rfl
  split
  · next hc => exact readTag?_eq (hc ▸ hrest)
  split
  · next hc => exact readFolder?_eq (hc ▸ hrest)
  split
  · next hc => exact readLink?_eq (hc ▸ hrest)
  split
  · exact readWord?_eq hrest
  · exact (ofStep_fault_zero _).symm

/-- Wherever a lexer is, it can cut the text at every offset that it needs for the next token. -/
theorem next?_eq (lexer : Lexer) :
    next? (lexer.done ++ lexer.rest) lexer.position = ofStep lexer.next := by
  obtain ⟨blanks, rest, hrest, hblanks, hhead⟩ := Text.exists_blanks_append lexer.rest
  have htake : lexer.rest.takeWhile Text.isBlank = blanks := by
    rw [hrest, Text.takeWhile_append_of_head? hblanks hhead]
  have hpass : pass? Text.isBlank (lexer.done ++ lexer.rest) lexer.position =
      some (lexer.position + Text.bytes blanks) :=
    htake ▸ pass?_lexer Text.isBlank [] lexer.rest rfl
  have hbehind := behind?_lexer blanks rest hrest
  have hskip := Lexer.skipBlanks_append hblanks hhead hrest
  have hposition : lexer.skipBlanks.position = lexer.position + Text.bytes blanks := by
    rw [hskip, Lexer.position_append]
  simp only [next?, hpass, hbehind, Option.bind_eq_bind, Option.bind_some, Lexer.next, hskip]
  cases rest with
  | nil => rw [ofStep, Lexer.position_append]
  | cons c text =>
    have htoken : readToken? ((lexer.done ++ blanks) ++ c :: text)
        (Lexer.mk (lexer.done ++ blanks) (c :: text)).position c =
        ofStep (Lexer.readToken ⟨lexer.done ++ blanks, c :: text⟩ c text) :=
      readToken?_eq rfl
    rwa [Lexer.position_append, List.append_assoc, ← hrest] at htoken

end

end Cursor

/-! ## Calls on one lexer -/

namespace Lexer

variable {lexer after : Lexer} {placed : PlacedToken}

/-- The place where the first `n` calls leave a lexer of the text, whatever they return. -/
def place (text : String) (n : Nat) : Lexer :=
  (fun lexer => lexer.next.2)^[n] (start text.toList)

theorem place_succ (text : String) (n : Nat) : place text (n + 1) = (place text n).next.2 :=
  Function.iterate_succ_apply' _ n _

theorem done_prefix_advance (lexer : Lexer) (n : Nat) : lexer.done <+: (lexer.advance n).done :=
  List.prefix_append _ _

theorem exists_advance_readToken (lexer : Lexer) (c : Char) (text : List Char) :
    ∃ n, (lexer.readToken c text).2 = lexer.advance n := by
  unfold readToken readTag readFolder readLink readWord
  dsimp only
  repeat' split
  all_goals exact ⟨_, rfl⟩

/-- A step reads on in the same text. -/
theorem next_advances (lexer : Lexer) :
    lexer.next.2.done ++ lexer.next.2.rest = lexer.done ++ lexer.rest ∧
      lexer.done <+: lexer.next.2.done := by
  have hskip : lexer.done <+: lexer.skipBlanks.done := done_prefix_advance _ _
  have htext : lexer.skipBlanks.done ++ lexer.skipBlanks.rest = lexer.done ++ lexer.rest :=
    done_append_rest_advance _ _
  rw [next]
  cases lexer.skipBlanks.rest with
  | nil => exact ⟨htext, hskip⟩
  | cons c text =>
    obtain ⟨n, hn⟩ := exists_advance_readToken lexer.skipBlanks c text
    dsimp only
    rw [hn, done_append_rest_advance, htext]
    exact ⟨rfl, hskip.trans (done_prefix_advance _ _)⟩

/-- No number of calls leaves the text. -/
theorem done_append_rest_place (text : String) (n : Nat) :
    (place text n).done ++ (place text n).rest = text.toList := by
  induction n with
  | zero => rfl
  | succ n ih => rw [place_succ, (next_advances _).1, ih]

theorem position_le_of_prefix (h : lexer.done <+: after.done) : lexer.position ≤ after.position := by
  obtain ⟨read, hread⟩ := h
  rw [position, position, ← hread, Text.bytes_append]
  exact Nat.le_add_right _ _

/-- A token is found where it stands, and the step stops where its spelling ends. -/
theorem next_spelling (h : lexer.next = (.ok (some placed), after)) :
    lexer.position ≤ placed.position ∧ placed.position < after.position ∧
      ∃ front, lexer.done ++ lexer.rest = front ++ placed.token.spelling ++ after.rest ∧
        placed.position = Text.bytes front ∧
        after.position = Text.bytes (front ++ placed.token.spelling) := by
  obtain ⟨blanks, -, hrest, -, -, -, hstart, hdone⟩ := exists_of_next_eq_some h
  have hpos : 0 < Text.bytes placed.token.spelling := by
    obtain ⟨c, text, hspelling, -⟩ := placed.token.exists_spelling_eq_cons
    exact Text.bytes_pos (by simp [hspelling])
  have hplaced : placed.position = Text.bytes (lexer.done ++ blanks) := hstart
  have hafter : after.position = Text.bytes (lexer.done ++ blanks ++ placed.token.spelling) :=
    congrArg Text.bytes hdone
  have hle : lexer.position ≤ placed.position := by
    rw [hplaced, Text.bytes_append]
    exact Nat.le_add_right _ _
  have hlt : placed.position < after.position := by
    rw [hafter, Text.bytes_append, ← hplaced]
    exact Nat.lt_add_of_pos_right hpos
  refine ⟨hle, hlt, lexer.done ++ blanks, ?_, hplaced, hafter⟩
  rw [hrest, ← List.append_assoc, ← List.append_assoc]

/-- Behind the end there is only the end. -/
theorem next_of_end (h : lexer.next.1 = .ok none) : lexer.next.2.next.1 = .ok none := by
  have hblanks : ∀ c ∈ lexer.rest, Text.isBlank c = true :=
    blank_of_next_eq_none (Prod.ext h rfl : lexer.next = (.ok none, lexer.next.2))
  rw [next_of_blanks hblanks, next_of_blanks (by simp)]

/-- A lexer never leaves its text and never goes back, whatever its calls return. Every call finds
all offsets that it needs between two characters, a token ends where its spelling ends, and the end
stays the end. -/
theorem calls_in_bounds (text : String) :
    (∀ n, String.Pos.Raw.IsValid text ⟨(place text n).position⟩ ∧
      (place text n).position ≤ text.utf8ByteSize ∧
      Cursor.next? text.toList (place text n).position =
        some ((place text n).next.1, (place text (n + 1)).position)) ∧
    (Monotone fun n => (place text n).position) ∧
    (∀ n placed, (place text n).next.1 = .ok (some placed) →
      (place text n).position ≤ placed.position ∧
      placed.position < (place text (n + 1)).position ∧
      ∃ front behind, text.toList = front ++ placed.token.spelling ++ behind ∧
        placed.position = Text.bytes front ∧
        (place text (n + 1)).position = Text.bytes (front ++ placed.token.spelling)) ∧
    ∀ n m, n ≤ m → (place text n).next.1 = .ok none → (place text m).next.1 = .ok none := by
  refine ⟨fun n => ⟨?_, ?_, ?_⟩, ?_, ?_, ?_⟩
  · exact Text.isValid_bytes (done_append_rest_place text n).symm
  · have hbytes := Text.bytes_ofList text.toList
    rw [String.ofList_toList, ← done_append_rest_place text n, Text.bytes_append] at hbytes
    rw [hbytes]
    exact Nat.le_add_right _ _
  · rw [← done_append_rest_place text n, Cursor.next?_eq, place_succ]
    rfl
  · refine monotone_nat_of_le_succ fun n => ?_
    rw [place_succ]
    exact position_le_of_prefix (next_advances _).2
  · intro n placed hplaced
    obtain ⟨hle, hlt, front, htext, hstart, hstop⟩ :=
      next_spelling (Prod.ext hplaced rfl : (place text n).next = (.ok (some placed), (place text n).next.2))
    rw [done_append_rest_place] at htext
    rw [place_succ]
    exact ⟨hle, hlt, front, _, htext, hstart, hstop⟩
  · intro n m hm hend
    induction m, hm using Nat.le_induction with
    | base => exact hend
    | succ m _ ih => exact place_succ text m ▸ next_of_end ih

/-- The second call fails behind the `#`. The third one goes on from there, the fourth one finds a
link that ends at the end of the text, and from then on there is only the end. -/
theorem calls_in_bounds_after_fault :
    (place "\"é\" #( [[ü]]" 1).next.1 = .error (.invalidTag 5) ∧
      (place "\"é\" #( [[ü]]" 3).next.1 = .ok (some ⟨.term (.link "ü"), 8⟩) ∧
      8 < (place "\"é\" #( [[ü]]" 4).position ∧
      ∀ m, 4 ≤ m → (place "\"é\" #( [[ü]]" m).next.1 = .ok none := by
  have hlink : (place "\"é\" #( [[ü]]" 3).next.1 = .ok (some ⟨.term (.link "ü"), 8⟩) := rfl
  obtain ⟨-, -, htoken, hend⟩ := calls_in_bounds "\"é\" #( [[ü]]"
  exact ⟨rfl, hlink, (htoken 3 _ hlink).2.1, fun m hm => hend 4 m hm rfl⟩

end Lexer
end RollCall
