import RollCall.Text.Decimal
import RollCall.Toml.Quoted
import RollCall.Toml.Table

/-!
# Reading TOML

The plain part of TOML: comments, headers, dotted and quoted keys, texts, whole numbers, truth values,
arrays and tables written as values. There are no dates and no fractions.
-/

namespace RollCall.Toml

/-! ## Blanks and comments -/

/-- A text without the spaces and tabs in front. -/
def dropSpace (text : List Char) : List Char :=
  text.dropWhile fun c => c = ' ' || c = '\t'

/-- What follows a comment, if there is one. -/
def afterComment? : List Char → Option (List Char)
  | '#' :: text =>
    let comment := text.takeWhile (· ≠ '\n')
    let comment := if comment.getLast? = some '\r' then comment.dropLast else comment
    if comment.any isControl then none else some (text.dropWhile (· ≠ '\n'))
  | text => some text

/-- What follows the end of a line. -/
def afterLineEnd? (text : List Char) : Option (List Char) :=
  match afterComment? (dropSpace text) with
  | some [] => some []
  | some ('\n' :: rest) => some rest
  | some ('\r' :: '\n' :: rest) => some rest
  | _ => none

/-- What follows spaces, comments and ends of lines. -/
def afterBlank? (text : List Char) : Option (List Char) :=
  match dropSpace text with
  | [] => some []
  | c :: rest =>
    if c = '#' ∨ c = '\n' ∨ c = '\r' then
      match afterLineEnd? (c :: rest) with
      | none => none
      | some inner => if inner.length < text.length then afterBlank? inner else none
    else some (c :: rest)
termination_by text.length

/-! ## Keys -/

/-- Whether a character may stand in a key without quotes. -/
def isBare (c : Char) : Bool :=
  c.isAlphanum || c = '_' || c = '-'

/-- Reads one part of a key. -/
def key? (text : List Char) : Option (String × List Char) :=
  match text.takeWhile isBare with
  | [] => (readShort? text).map fun (key, rest) => (String.ofList key, rest)
  | key => some (String.ofList key, text.dropWhile isBare)

/-- Reads a key with its dots, and the blanks behind it. -/
def keys? (text : List Char) : Option (List String × List Char) :=
  match key? (dropSpace text) with
  | none => none
  | some (key, rest) =>
    match dropSpace rest with
    | '.' :: rest =>
      if rest.length < text.length then (keys? rest).map fun (keys, rest) => (key :: keys, rest)
      else none
    | rest => some ([key], rest)
termination_by text.length

/-! ## Values -/

/-- The number that some digits stand for in a base; underlines may stand between two digits. -/
def digits? (base : Nat) (text : List Char) : Option Nat :=
  let step := fun (state : Nat × Bool) (c : Char) =>
    if c = '_' then if state.2 then some (state.1, false) else none
    else
      match Text.hexValue? c with
      | some digit => if digit < base then some (base * state.1 + digit, true) else none
      | none => none
  match text.foldlM step (0, false) with
  | some (value, true) => some value
  | _ => none

/-- The number that a word with decimal digits stands for, which has no needless zeros. -/
def decimal? (text : List Char) : Option Int :=
  if text.head? = some '0' ∧ text ≠ ['0'] then none
  else (digits? 10 text).map Int.ofNat

/-- The whole number that a word stands for. -/
def wholeNumber? : List Char → Option Int
  | '+' :: text => decimal? text
  | '-' :: text => (decimal? text).map (- ·)
  | '0' :: 'x' :: text => (digits? 16 text).map Int.ofNat
  | '0' :: 'o' :: text => (digits? 8 text).map Int.ofNat
  | '0' :: 'b' :: text => (digits? 2 text).map Int.ofNat
  | text => decimal? text

/-- Whether a number fits into 64 bits. -/
def isMedium (n : Int) : Bool :=
  -9223372036854775808 ≤ n && n ≤ 9223372036854775807

/-- The value that a word without quotes stands for. -/
def word? (word : List Char) : Option Toml :=
  if word = "true".toList then some (.boolean true)
  else if word = "false".toList then some (.boolean false)
  else
    match wholeNumber? word with
    | none => none
    | some n => if isMedium n then some (.integer n) else none

/-- Whether a character may stand in a word without quotes. -/
def isWord (c : Char) : Bool :=
  isBare c || c = '+'

mutual

/-- Reads a value. -/
def value? (text : List Char) : Option (Toml × List Char) :=
  match text with
  | '[' :: rest => (items? rest).map fun (items, rest) => (.array items, rest)
  | '\x7b' :: rest =>
    match dropSpace rest with
    | '\x7d' :: rest => some (.table .inline [], rest)
    | _ => (pairs? [] rest).map fun (entries, rest) => (.table .inline entries, rest)
  | '"' :: _ | '\'' :: _ =>
    (readQuoted? text).map fun (value, rest) => (.string (String.ofList value), rest)
  | _ => (word? (text.takeWhile isWord)).map fun value => (value, text.dropWhile isWord)
termination_by 2 * text.length

/-- Reads the items of an array up to its end. -/
def items? (text : List Char) : Option (List Toml × List Char) :=
  match afterBlank? text with
  | none => none
  | some (']' :: rest) => some ([], rest)
  | some inner =>
    if inner.length ≤ text.length then
      match value? inner with
      | none => none
      | some (item, rest) =>
        match afterBlank? rest with
        | some (']' :: rest) => some ([item], rest)
        | some (',' :: rest) =>
          if rest.length < text.length then
            (items? rest).map fun (items, rest) => (item :: items, rest)
          else none
        | _ => none
    else none
termination_by 2 * text.length + 1

/-- Reads the entries of a table up to its end, behind some others. -/
def pairs? (entries : TomlEntries) (text : List Char) : Option (TomlEntries × List Char) :=
  match keys? text with
  | some (path, '=' :: rest) =>
    if (dropSpace rest).length < text.length then
      match value? (dropSpace rest) with
      | none => none
      | some (value, rest) =>
        match entries.assign path value, dropSpace rest with
        | some entries, '\x7d' :: rest => some (entries, rest)
        | some entries, ',' :: rest => if rest.length < text.length then pairs? entries rest else none
        | _, _ => none
    else none
  | _ => none
termination_by 2 * text.length + 1

end

/-! ## Lines -/

/-- Reads a line that says something. -/
def line? : List Char → Option (TomlLine × List Char)
  | '[' :: '[' :: text =>
    match keys? text with
    | some (path, ']' :: ']' :: rest) => some (.element path, rest)
    | _ => none
  | '[' :: text =>
    match keys? text with
    | some (path, ']' :: rest) => some (.header path, rest)
    | _ => none
  | text =>
    match keys? text with
    | some (path, '=' :: rest) =>
      (value? (dropSpace rest)).map fun (value, rest) => (.assignment path value, rest)
    | _ => none

/-- Reads the lines of a text. -/
def lines? (text : List Char) : Option (List TomlLine) :=
  match afterBlank? text with
  | none => none
  | some [] => some []
  | some inner =>
    match line? inner with
    | none => none
    | some (line, rest) =>
      match afterLineEnd? rest with
      | none => none
      | some rest => if rest.length < text.length then (lines? rest).map (line :: ·) else none
termination_by text.length

/-- The table that a text stands for. -/
def parse? (text : String) : Option TomlEntries :=
  let text := match text.toList with
    | '\ufeff' :: text => text
    | text => text
  (lines? text).bind TomlEntries.ofLines?

end RollCall.Toml
