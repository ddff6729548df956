import RollCall.Json.Token

/-!
# Quoted texts in TOML

A text stands between single or double quotes, one of them or three. Behind double quotes a
backslash escapes; behind single quotes every character stands for itself. Texts in three quotes may
go over several lines.
-/

namespace RollCall.Toml

/-- Whether a character may not stand for itself in a quoted text. -/
def isControl (c : Char) : Bool :=
  (c.toNat < 32 && c != '\t') || c.toNat = 127

/-- Whether a character may stand for itself, where the text may go over several lines or not. -/
def isPlain (long : Bool) (c : Char) : Bool :=
  !isControl c || (long && (c = '\n' || c = '\r'))

/-! ## Reading -/

/-- The character that a letter stands for behind a backslash. -/
def escaped? : Char → Option Char
  | '/' => none
  | c => JsonToken.escaped? c

/-- The character with a number, if there is one. -/
def character? (n : Nat) : Option Char :=
  if n.isValidChar then some (Char.ofNat n) else none

/-- The text up to its closing double quote or quotes, and what follows them. -/
def readBasic? (long : Bool) : List Char → Option (List Char × List Char)
  | [] => none
  | '\\' :: 'u' :: a :: b :: c :: d :: rest => do
    let (text, rest) ← readBasic? long rest
    return ((← character? (← Text.hexValue4? a b c d)) :: text, rest)
  | '\\' :: 'U' :: a :: b :: c :: d :: e :: f :: g :: h :: rest => do
    let (text, rest) ← readBasic? long rest
    let high ← Text.hexValue4? a b c d
    return ((← character? (high * 65536 + (← Text.hexValue4? e f g h))) :: text, rest)
  | '\\' :: c :: rest => do
    let (text, rest) ← readBasic? long rest
    return ((← escaped? c) :: text, rest)
  | '"' :: rest =>
    if long then
      match rest with
      | '"' :: '"' :: '"' :: _ => (readBasic? long rest).map fun (text, rest) => ('"' :: text, rest)
      | '"' :: '"' :: rest => some ([], rest)
      | _ => (readBasic? long rest).map fun (text, rest) => ('"' :: text, rest)
    else some ([], rest)
  | c :: rest =>
    if isPlain long c && c != '\\' then
      (readBasic? long rest).map fun (text, rest) => (c :: text, rest)
    else none

/-- The text up to its closing single quote or quotes, and what follows them. -/
def readLiteral? (long : Bool) : List Char → Option (List Char × List Char)
  | [] => none
  | '\'' :: rest =>
    if long then
      match rest with
      | '\'' :: '\'' :: '\'' :: _ =>
        (readLiteral? long rest).map fun (text, rest) => ('\'' :: text, rest)
      | '\'' :: '\'' :: rest => some ([], rest)
      | _ => (readLiteral? long rest).map fun (text, rest) => ('\'' :: text, rest)
    else some ([], rest)
  | c :: rest =>
    if isPlain long c then (readLiteral? long rest).map fun (text, rest) => (c :: text, rest)
    else none

/-- A text without the end of line in front. -/
def dropNewline : List Char → List Char
  | '\n' :: text => text
  | '\r' :: '\n' :: text => text
  | text => text

/-- Reads a quoted text that does not go over several lines. -/
def readShort? : List Char → Option (List Char × List Char)
  | '"' :: text => readBasic? false text
  | '\'' :: text => readLiteral? false text
  | _ => none

/-- Reads a quoted text. -/
def readQuoted? : List Char → Option (List Char × List Char)
  | '"' :: '"' :: '"' :: text => readBasic? true (dropNewline text)
  | '\'' :: '\'' :: '\'' :: text => readLiteral? true (dropNewline text)
  | text => readShort? text

/-! ## Writing -/

/-- The length of the longest run of a character. -/
def longestRun (c : Char) (text : List Char) : Nat :=
  (text.foldl (fun (longest, run) d =>
    let run := if d = c then run + 1 else 0
    (max longest run, run)) (0, 0)).1

/-- Whether some character of a text has to be escaped. -/
def needsEscape (text : List Char) : Bool :=
  text.any fun c => isControl c && c != '\n'

/-- A character as it stands between double quotes. -/
def escape (long : Bool) (c : Char) : List Char :=
  if c = '"' then ['\\', '"']
  else if c = '\\' then ['\\', '\\']
  else if c = '\n' then (if long then ['\n'] else ['\\', 'n'])
  else if c = '\r' then ['\\', 'r']
  else if c.toNat = 8 then ['\\', 'b']
  else if c.toNat = 12 then ['\\', 'f']
  else if isControl c then
    ['\\', 'u', '0', '0', (Text.hexDigit (c.toNat / 16)).toUpper, (Text.hexDigit (c.toNat % 16)).toUpper]
  else [c]

/-- A text between three quotes; one that goes over several lines starts on a line of its own. -/
def between (quote : Char) (text body : List Char) : List Char :=
  let quotes := [quote, quote, quote]
  quotes ++ (if '\n' ∈ text then ['\n'] else []) ++ body ++ quotes

/-- The written form of a text: the first that can do without escapes of double quotes, single quotes,
three double quotes and three single quotes; else double quotes with escapes. -/
def quoted (text : List Char) : List Char :=
  let newline := text.contains '\n'
  let control := needsEscape text
  let backslash := text.contains '\\'
  if !control && !backslash && !text.contains '"' && !newline then '"' :: text ++ ['"']
  else if !control && !text.contains '\'' && !newline then '\'' :: text ++ ['\'']
  else if !control && !backslash && longestRun '"' text ≤ 2 then between '"' text text
  else if !control && longestRun '\'' text ≤ 2 then between '\'' text text
  else if newline then between '"' text (text.flatMap (escape true))
  else '"' :: text.flatMap (escape false) ++ ['"']

end RollCall.Toml
