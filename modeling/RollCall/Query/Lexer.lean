import RollCall.Query.Error
import RollCall.Query.Token
import RollCall.Text.Find

/-!
# Reading tokens

A lexer is a place in a text. Each step skips blanks and reads one token; a fault leaves the lexer
where it stopped reading, so that a further step goes on from there.
-/

namespace RollCall

/-- A place in a text. -/
structure Lexer where
  /-- What has been read. -/
  done : List Char
  /-- What is left to read. -/
  rest : List Char

namespace Lexer

/-- The beginning of a text. -/
def start (text : List Char) : Lexer := ⟨[], text⟩

/-- The byte offset of the place. -/
def position (lexer : Lexer) : Nat := Text.bytes lexer.done

/-- The place `n` characters further on. -/
def advance (lexer : Lexer) (n : Nat) : Lexer :=
  ⟨lexer.done ++ lexer.rest.take n, lexer.rest.drop n⟩

@[simp] theorem done_append_rest_advance (lexer : Lexer) (n : Nat) :
    (lexer.advance n).done ++ (lexer.advance n).rest = lexer.done ++ lexer.rest := by
  simp [advance]

@[simp] theorem rest_advance (lexer : Lexer) (n : Nat) :
    (lexer.advance n).rest = lexer.rest.drop n := rfl

/-- The place of the next character that is no blank. -/
def skipBlanks (lexer : Lexer) : Lexer :=
  lexer.advance (lexer.rest.takeWhile Text.isBlank).length

/-- What a step found, and the place where it stopped. -/
abbrev Step := Except SyntaxError (Option PlacedToken) × Lexer

/-- The step that finds a token of `n` characters. -/
def found (lexer : Lexer) (token : Token) (n : Nat) : Step :=
  (.ok (some ⟨token, lexer.position⟩), lexer.advance n)

/-- The step that finds a fault after reading `n` characters. -/
def fault (lexer : Lexer) (error : SyntaxError) (n : Nat) : Step :=
  (.error error, lexer.advance n)

/-- Reads a tag, whose `#` is in front of `text`. The name is as long as tag characters follow; what
comes next has to end the tag. -/
def readTag (lexer : Lexer) (text : List Char) : Step :=
  let name := text.takeWhile Token.isTagChar
  let ended := ((text.dropWhile Token.isTagChar).head?.map Token.isTagEnd).getD true
  if name ≠ [] ∧ ended = true then lexer.found (.term (.tag (String.ofList name))) (1 + name.length)
  else lexer.fault (.invalidTag lexer.position) (1 + name.length)

/-- Reads a folder, whose opening quote is in front of `text`. -/
def readFolder (lexer : Lexer) (text : List Char) : Step :=
  match Text.cut? ['"'] text with
  | some (path, _) => lexer.found (.term (.folder (String.ofList path))) (path.length + 2)
  | none => lexer.fault (.unterminatedFolder lexer.position) 0

/-- Reads a link, whose first bracket is in front of `text`. -/
def readLink (lexer : Lexer) (text : List Char) : Step :=
  match Text.after? ['['] text with
  | none => lexer.fault (.invalidCharacter '[' lexer.position) 0
  | some inner =>
    match Text.cut? [']', ']'] inner with
    | some (target, _) => lexer.found (.term (.link (String.ofList target))) (target.length + 4)
    | none => lexer.fault (.unterminatedLink lexer.position) 0

/-- Reads a run of letters, which has to be a keyword. -/
def readWord (lexer : Lexer) (text : List Char) : Step :=
  let word := text.takeWhile Char.isAlpha
  if word = Operation.keyword .and then lexer.found (.keyword .and) word.length
  else if word = Operation.keyword .or then lexer.found (.keyword .or) word.length
  else lexer.fault (.invalidKeyword (String.ofList word) lexer.position) word.length

/-- Reads the token whose first character is the next one. -/
def readToken (lexer : Lexer) (c : Char) (text : List Char) : Step :=
  if c = '(' then lexer.found .opening 1
  else if c = ')' then lexer.found .closing 1
  else if c = '#' then lexer.readTag text
  else if c = '"' then lexer.readFolder text
  else if c = '[' then lexer.readLink text
  else if c.isAlpha then lexer.readWord (c :: text)
  else lexer.fault (.invalidCharacter c lexer.position) 0

/-- The next token; none at the end of the text. -/
def next (lexer : Lexer) : Step :=
  let lexer := lexer.skipBlanks
  match lexer.rest with
  | [] => (.ok none, lexer)
  | c :: text => lexer.readToken c text

/-! ## Every token takes up text -/

/-- A step that finds a token stops further on. -/
def Progress (lexer : Lexer) (step : Step) : Prop :=
  ∀ token after, step = (.ok (some token), after) → after.rest.length < lexer.rest.length

theorem progress_found {lexer : Lexer} (token : Token) {n : Nat} (hn : 0 < n)
    (h : lexer.rest ≠ []) : lexer.Progress (lexer.found token n) := by
  intro t after e
  simp only [found, Prod.mk.injEq, Except.ok.injEq] at e
  obtain ⟨-, rfl⟩ := e
  have := List.length_pos_iff.2 h
  simp only [rest_advance, List.length_drop]
  omega

theorem progress_fault {lexer : Lexer} (error : SyntaxError) (n : Nat) :
    lexer.Progress (lexer.fault error n) := by
  intro t after e
  simp [fault] at e

theorem progress_readToken {lexer : Lexer} {c : Char} {text : List Char}
    (h : lexer.rest = c :: text) : lexer.Progress (lexer.readToken c text) := by
  have hne : lexer.rest ≠ [] := by simp [h]
  unfold readToken
  repeat' split
  · exact progress_found _ (by decide) hne
  · exact progress_found _ (by decide) hne
  · unfold readTag
    dsimp only
    split
    · exact progress_found _ (by omega) hne
    · exact progress_fault _ _
  · unfold readFolder
    split
    · exact progress_found _ (by omega) hne
    · exact progress_fault _ _
  · unfold readLink
    split
    · exact progress_fault _ _
    · split
      · exact progress_found _ (by omega) hne
      · exact progress_fault _ _
  · unfold readWord
    dsimp only
    split
    · next hw => exact progress_found _ (by rw [hw]; decide) hne
    · split
      · next hw => exact progress_found _ (by rw [hw]; decide) hne
      · exact progress_fault _ _
  · exact progress_fault _ _

theorem progress_next (lexer : Lexer) : lexer.Progress lexer.next := by
  have hskip : lexer.skipBlanks.rest.length ≤ lexer.rest.length := by
    simp [skipBlanks]
  intro token after e
  unfold next at e
  dsimp only at e
  split at e
  · simp at e
  · next c text h => exact Nat.lt_of_lt_of_le (progress_readToken h token after e) hskip

/-- All tokens from a place on, up to the first fault. -/
def tokens (lexer : Lexer) : Except SyntaxError (List PlacedToken) :=
  match _h : lexer.next with
  | (.error error, _) => .error error
  | (.ok none, _) => .ok []
  | (.ok (some token), after) =>
    match after.tokens with
    | .error error => .error error
    | .ok tokens => .ok (token :: tokens)
termination_by lexer.rest.length
decreasing_by exact progress_next lexer token after _h

end Lexer

/-- The tokens of a text. -/
def Token.read (text : String) : Except SyntaxError (List PlacedToken) :=
  (Lexer.start text.toList).tokens

end RollCall
