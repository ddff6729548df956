import RollCall.Text.Hexadecimal

/-!
# JSON values

The values that are written as JSON, and their two written forms: one without any blanks, and one
with a line for each element. The fields of an object are written in the order in which they stand.
-/

namespace RollCall

/-- A JSON value. -/
inductive Json where
  /-- The null value. -/
  | null
  /-- A truth value. -/
  | bool (value : Bool)
  /-- A whole number. -/
  | number (value : Int)
  /-- A text. -/
  | string (value : String)
  /-- A list of values. -/
  | array (items : List Json)
  /-- Named values. -/
  | object (fields : List (String × Json))
deriving Inhabited

namespace Json

/-- A character as it stands between quotes: quotes, backslashes and control characters are escaped,
and nothing else. -/
def escape (c : Char) : List Char :=
  if c = '"' then ['\\', '"']
  else if c = '\\' then ['\\', '\\']
  else if c = '\n' then ['\\', 'n']
  else if c = '\r' then ['\\', 'r']
  else if c = '\t' then ['\\', 't']
  else if c.toNat = 8 then ['\\', 'b']
  else if c.toNat = 12 then ['\\', 'f']
  else if c.toNat < 32 then ['\\', 'u', '0', '0', Text.hexDigit (c.toNat / 16), Text.hexDigit (c.toNat % 16)]
  else [c]

/-- A text between quotes. -/
def quoted (text : String) : String :=
  String.ofList ('"' :: text.toList.flatMap escape ++ ['"'])

mutual

/-- The written form without blanks. -/
def compact : Json → String
  | null => "null"
  | bool value => if value then "true" else "false"
  | number value => toString value
  | string value => quoted value
  | array items => "[" ++ compactItems items ++ "]"
  | object fields => "\x7b" ++ compactFields fields ++ "\x7d"

/-- The items of an array, without blanks. -/
def compactItems : List Json → String
  | [] => ""
  | [item] => item.compact
  | item :: items => item.compact ++ "," ++ compactItems items

/-- The fields of an object, without blanks. -/
def compactFields : List (String × Json) → String
  | [] => ""
  | [(name, value)] => quoted name ++ ":" ++ value.compact
  | (name, value) :: fields => quoted name ++ ":" ++ value.compact ++ "," ++ compactFields fields

end

/-- The beginning of a line at the given depth. -/
def lineStart (depth : Nat) : String :=
  String.ofList ('\n' :: List.replicate (2 * depth) ' ')

mutual

/-- The written form at the given depth, with a line for each element. -/
def prettyAt (depth : Nat) : Json → String
  | null => "null"
  | bool value => if value then "true" else "false"
  | number value => toString value
  | string value => quoted value
  | array [] => "[]"
  | array (item :: items) =>
    "[" ++ prettyItems (depth + 1) (item :: items) ++ lineStart depth ++ "]"
  | object [] => "\x7b\x7d"
  | object (field :: fields) =>
    "\x7b" ++ prettyFields (depth + 1) (field :: fields) ++ lineStart depth ++ "\x7d"

/-- The items of an array, each on its line. -/
def prettyItems (depth : Nat) : List Json → String
  | [] => ""
  | [item] => lineStart depth ++ item.prettyAt depth
  | item :: items => lineStart depth ++ item.prettyAt depth ++ "," ++ prettyItems depth items

/-- The fields of an object, each on its line. -/
def prettyFields (depth : Nat) : List (String × Json) → String
  | [] => ""
  | [(name, value)] => lineStart depth ++ quoted name ++ ": " ++ value.prettyAt depth
  | (name, value) :: fields =>
    lineStart depth ++ quoted name ++ ": " ++ value.prettyAt depth ++ "," ++
      prettyFields depth fields

end

/-- The written form with a line for each element. -/
def pretty (json : Json) : String :=
  json.prettyAt 0

/-- An array of texts. -/
def strings (texts : List String) : Json :=
  array (texts.map string)

end Json

end RollCall
