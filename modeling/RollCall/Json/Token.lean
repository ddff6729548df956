import RollCall.Text.Find
import RollCall.Text.Hexadecimal

/-!
# The tokens of a JSON text

A JSON text is read strictly: blanks are spaces, tabs and ends of lines, control characters do not
stand in strings, and numbers have no needless zeros. What a number is worth is not kept. A string
with half of a surrogate pair is a token too, but has no text.
-/

namespace RollCall

/-- A token of a JSON text. -/
inductive JsonToken where
  /-- The start of an object. -/
  | openObject
  /-- The end of an object. -/
  | closeObject
  /-- The start of an array. -/
  | openArray
  /-- The end of an array. -/
  | closeArray
  /-- What stands between a name and its value. -/
  | colon
  /-- What stands between two elements. -/
  | comma
  /-- The null value. -/
  | null
  /-- A truth value. -/
  | bool (value : Bool)
  /-- A number. -/
  | number
  /-- A string; it has no text if a surrogate in it is not paired. -/
  | string (text : Option String)
deriving DecidableEq, Repr

namespace JsonToken

/-- What is left of a text once a token is read from its front. -/
abbrev Rest (text : List Char) := { rest : List Char // rest.length < text.length }

/-- A part of a string: a character, or a number that is written in hexadecimal digits. -/
inductive Piece where
  /-- A character. -/
  | char (c : Char)
  /-- A code of 16 bits. -/
  | code (n : Nat)

/-- The character that stands behind a backslash for another. -/
def escaped? : Char → Option Char
  | '"' => some '"'
  | '\\' => some '\\'
  | '/' => some '/'
  | 'b' => some '\x08'
  | 'f' => some '\x0c'
  | 'n' => some '\n'
  | 'r' => some '\r'
  | 't' => some '\t'
  | _ => none

/-- The pieces of a string up to its closing quote, and what follows the quote. -/
def pieces? : (text : List Char) → Option (List Piece × Rest text)
  | [] => none
  | '"' :: rest => some ([], ⟨rest, Nat.lt_succ_self _⟩)
  | '\\' :: 'u' :: a :: b :: c :: d :: rest =>
    match Text.hexValue4? a b c d, pieces? rest with
    | some n, some (pieces, rest) =>
      some (.code n :: pieces, ⟨rest, by have := rest.2; simp only [List.length_cons]; omega⟩)
    | _, _ => none
  | '\\' :: e :: rest =>
    match escaped? e, pieces? rest with
    | some c, some (pieces, rest) =>
      some (.char c :: pieces, ⟨rest, by have := rest.2; simp only [List.length_cons]; omega⟩)
    | _, _ => none
  | c :: rest =>
    if c.toNat < 32 ∨ c = '\\' then none
    else
      match pieces? rest with
      | some (pieces, rest) =>
        some (.char c :: pieces, ⟨rest, by have := rest.2; simp only [List.length_cons]; omega⟩)
      | none => none

/-- Whether a code is the first half of a pair. -/
def isHighSurrogate (n : Nat) : Bool := 0xD800 ≤ n && n < 0xDC00

/-- Whether a code is the second half of a pair. -/
def isLowSurrogate (n : Nat) : Bool := 0xDC00 ≤ n && n < 0xE000

/-- The characters that some pieces stand for, if each surrogate is paired. -/
def characters? : List Piece → Option (List Char)
  | [] => some []
  | .char c :: pieces => (characters? pieces).map (c :: ·)
  | .code n :: pieces =>
    if isHighSurrogate n then
      match pieces with
      | .code m :: pieces =>
        if isLowSurrogate m then
          (characters? pieces).map (Char.ofNat (0x10000 + (n - 0xD800) * 0x400 + (m - 0xDC00)) :: ·)
        else none
      | _ => none
    else if isLowSurrogate n then none
    else (characters? pieces).map (Char.ofNat n :: ·)

/-- What follows a run of digits, which must not be empty. -/
def afterDigits? : List Char → Option (List Char)
  | [] => none
  | c :: text => if c.isDigit then some (text.dropWhile Char.isDigit) else none

/-- What follows the part of a number before the point. -/
def afterWhole? : List Char → Option (List Char)
  | '0' :: text => some text
  | text => afterDigits? text

/-- What follows the part of a number behind the point, if there is one. -/
def afterFraction? : List Char → Option (List Char)
  | '.' :: text => afterDigits? text
  | text => some text

/-- A text without the sign in front. -/
def dropSign : List Char → List Char
  | '+' :: text => text
  | '-' :: text => text
  | text => text

/-- What follows the exponent of a number, if there is one. -/
def afterExponent? : List Char → Option (List Char)
  | 'e' :: text => afterDigits? (dropSign text)
  | 'E' :: text => afterDigits? (dropSign text)
  | text => some text

/-- What follows a number. -/
def afterNumber? (text : List Char) : Option (List Char) :=
  let unsigned := match text with
    | '-' :: rest => rest
    | text => text
  match afterWhole? unsigned with
  | none => none
  | some rest =>
    match afterFraction? rest with
    | none => none
    | some rest => afterExponent? rest

/-- What follows a word, which stands for a token. -/
def word? (word : String) (token : JsonToken) (text : List Char) :
    Option (JsonToken × List Char) :=
  (Text.after? word.toList text).map fun rest => (token, rest)

/-- Reads a token that is no string. -/
def readPlain? (text : List Char) : Option (JsonToken × List Char) :=
  match text with
  | '\x7b' :: rest => some (.openObject, rest)
  | '\x7d' :: rest => some (.closeObject, rest)
  | '[' :: rest => some (.openArray, rest)
  | ']' :: rest => some (.closeArray, rest)
  | ':' :: rest => some (.colon, rest)
  | ',' :: rest => some (.comma, rest)
  | 'n' :: rest => word? "ull" .null rest
  | 't' :: rest => word? "rue" (.bool true) rest
  | 'f' :: rest => word? "alse" (.bool false) rest
  | _ => (afterNumber? text).map fun rest => (.number, rest)

theorem length_of_afterDigits? {text rest : List Char} (h : afterDigits? text = some rest) :
    rest.length < text.length := by
  cases text with
  | nil => simp [afterDigits?] at h
  | cons c text =>
    simp only [afterDigits?] at h
    split at h
    · cases h
      exact Nat.lt_succ_of_le (List.dropWhile_suffix _).length_le
    · simp at h

theorem length_of_afterWhole? {text rest : List Char} (h : afterWhole? text = some rest) :
    rest.length < text.length := by
  unfold afterWhole? at h
  split at h
  · cases h
    exact Nat.lt_succ_self _
  · exact length_of_afterDigits? h

theorem length_of_afterFraction? {text rest : List Char} (h : afterFraction? text = some rest) :
    rest.length ≤ text.length := by
  unfold afterFraction? at h
  split at h
  · exact Nat.le_succ_of_le (Nat.le_of_lt (length_of_afterDigits? h))
  · cases h
    exact Nat.le_refl _

theorem length_dropSign_le (text : List Char) : (dropSign text).length ≤ text.length := by
  unfold dropSign
  split
  · exact Nat.le_succ _
  · exact Nat.le_succ _
  · exact Nat.le_refl _

theorem length_of_afterExponent? {text rest : List Char} (h : afterExponent? text = some rest) :
    rest.length ≤ text.length := by
  unfold afterExponent? at h
  split at h
  · exact Nat.le_succ_of_le (Nat.le_trans (Nat.le_of_lt (length_of_afterDigits? h))
      (length_dropSign_le _))
  · exact Nat.le_succ_of_le (Nat.le_trans (Nat.le_of_lt (length_of_afterDigits? h))
      (length_dropSign_le _))
  · cases h
    exact Nat.le_refl _

theorem length_of_afterNumber? {text rest : List Char} (h : afterNumber? text = some rest) :
    rest.length < text.length := by
  simp only [afterNumber?] at h
  split at h
  · simp at h
  · next whole hw =>
    split at h
    · simp at h
    · next fraction hf =>
      have hlt := length_of_afterWhole? hw
      have hle := length_of_afterFraction? hf
      have hend := length_of_afterExponent? h
      split at hlt
      · simp only [List.length_cons]
        omega
      · omega

theorem length_of_word? {word : String} {token other : JsonToken} {text rest : List Char}
    (h : word? word token text = some (other, rest)) : rest.length ≤ text.length := by
  obtain ⟨r, hr, he⟩ := Option.map_eq_some_iff.1 h
  cases he
  have := Text.length_of_after? hr
  omega

/-- Reading a token shortens the text. -/
theorem length_of_readPlain? {text rest : List Char} {token : JsonToken}
    (h : readPlain? text = some (token, rest)) : rest.length < text.length := by
  unfold readPlain? at h
  split at h
  case h_10 =>
    obtain ⟨r, hr, he⟩ := Option.map_eq_some_iff.1 h
    cases he
    exact length_of_afterNumber? hr
  case h_7 => exact Nat.lt_succ_of_le (length_of_word? h)
  case h_8 => exact Nat.lt_succ_of_le (length_of_word? h)
  case h_9 => exact Nat.lt_succ_of_le (length_of_word? h)
  all_goals
    cases h
    exact Nat.lt_succ_self _

/-- Whether a character may stand between two tokens. -/
def isBlank (c : Char) : Bool :=
  c = ' ' || c = '\n' || c = '\t' || c = '\r'

/-- The tokens of a text. -/
def read? : List Char → Option (List JsonToken)
  | [] => some []
  | '"' :: text =>
    match pieces? text with
    | none => none
    | some (pieces, ⟨rest, _⟩) =>
      (read? rest).map (.string ((characters? pieces).map String.ofList) :: ·)
  | c :: text =>
    if isBlank c then read? text
    else
      match h : readPlain? (c :: text) with
      | none => none
      | some (token, rest) =>
        have : rest.length < text.length + 1 := length_of_readPlain? h
        (read? rest).map (token :: ·)
termination_by text => text.length

end JsonToken

end RollCall
