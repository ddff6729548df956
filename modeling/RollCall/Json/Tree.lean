import RollCall.Json.Token

/-!
# Reading a JSON text

The tree that a JSON text spells. It keeps what the text says and no more: fields stand in the order
of the text and may be repeated, and a string need not be a text.
-/

namespace RollCall

/-- What a JSON text spells. -/
inductive JsonTree where
  /-- The null value. -/
  | null
  /-- A truth value. -/
  | bool (value : Bool)
  /-- A number. -/
  | number
  /-- A string; it has no text if a surrogate in it is not paired. -/
  | string (text : Option String)
  /-- A list of values. -/
  | array (items : List JsonTree)
  /-- Named values. -/
  | object (fields : List (Option String × JsonTree))

namespace JsonTree

/-- Something that is read from the front of some tokens. -/
structure Parsed (α : Type) (tokens : List JsonToken) where
  /-- What is read. -/
  value : α
  /-- The tokens behind it. -/
  rest : List JsonToken
  /-- Some token is read. -/
  shorter : rest.length < tokens.length

/-- Something read behind some more tokens, and changed by a function. -/
def Parsed.behind {α β : Type} {inner tokens : List JsonToken} (f : α → β)
    (parsed : Parsed α inner) (h : inner.length ≤ tokens.length) : Parsed β tokens :=
  ⟨f parsed.value, parsed.rest, Nat.lt_of_lt_of_le parsed.shorter h⟩

mutual

/-- Reads a value. -/
def value? (tokens : List JsonToken) : Option (Parsed JsonTree tokens) :=
  match tokens with
  | .null :: rest => some ⟨.null, rest, Nat.lt_succ_self _⟩
  | .bool value :: rest => some ⟨.bool value, rest, Nat.lt_succ_self _⟩
  | .number :: rest => some ⟨.number, rest, Nat.lt_succ_self _⟩
  | .string text :: rest => some ⟨.string text, rest, Nat.lt_succ_self _⟩
  | .openArray :: .closeArray :: rest =>
    some ⟨.array [], rest, Nat.lt_succ_of_lt (Nat.lt_succ_self _)⟩
  | .openArray :: rest =>
    match items? rest with
    | none => none
    | some items => some (items.behind .array (Nat.le_succ _))
  | .openObject :: .closeObject :: rest =>
    some ⟨.object [], rest, Nat.lt_succ_of_lt (Nat.lt_succ_self _)⟩
  | .openObject :: rest =>
    match fields? rest with
    | none => none
    | some fields => some (fields.behind .object (Nat.le_succ _))
  | _ => none
termination_by (tokens.length, 0)

/-- Reads the items of an array and its end. -/
def items? (tokens : List JsonToken) : Option (Parsed (List JsonTree) tokens) :=
  match value? tokens with
  | none => none
  | some ⟨first, .closeArray :: rest, h⟩ => some ⟨[first], rest, Nat.lt_trans (Nat.lt_succ_self _) h⟩
  | some ⟨first, .comma :: rest, h⟩ =>
    have : rest.length < tokens.length := Nat.lt_trans (Nat.lt_succ_self _) h
    match items? rest with
    | none => none
    | some items => some (items.behind (first :: ·) (Nat.le_of_lt this))
  | some _ => none
termination_by (tokens.length, 1)

/-- Reads the fields of an object and its end. -/
def fields? (tokens : List JsonToken) : Option (Parsed (List (Option String × JsonTree)) tokens) :=
  match tokens with
  | .string name :: .colon :: inner =>
    match value? inner with
    | none => none
    | some ⟨first, .closeObject :: rest, h⟩ =>
      some ⟨[(name, first)], rest, by simp only [List.length_cons] at h ⊢; omega⟩
    | some ⟨first, .comma :: rest, h⟩ =>
      have : rest.length < inner.length := Nat.lt_trans (Nat.lt_succ_self _) h
      match fields? rest with
      | none => none
      | some fields =>
        some (fields.behind ((name, first) :: ·) (by simp only [List.length_cons]; omega))
    | some _ => none
  | _ => none
termination_by (tokens.length, 1)

end

/-- The tree that a whole text spells. -/
def parse? (text : String) : Option JsonTree :=
  match JsonToken.read? text.toList with
  | none => none
  | some tokens =>
    match value? tokens with
    | some ⟨tree, [], _⟩ => some tree
    | _ => none

/-! ## Taking trees apart -/

/-- The text of a string. -/
def text? : JsonTree → Option String
  | string text => text
  | _ => none

/-- The texts of an array of strings. -/
def texts? : JsonTree → Option (List String)
  | array items => items.mapM text?
  | _ => none

/-- The fields of an object whose names are all texts. -/
def entries? : JsonTree → Option (List (String × JsonTree))
  | object fields => fields.mapM fun (name, value) => name.map fun name => (name, value)
  | _ => none

/-- The value of a field, none if it is missing; nothing if the field is repeated. -/
def single? (name : String) (entries : List (String × JsonTree)) : Option (Option JsonTree) :=
  match entries.filter (·.1 = name) with
  | [] => some none
  | [(_, value)] => some (some value)
  | _ => none

/-- The values of some named fields, each of which may be missing. They stand in an object, where
other fields are passed over, or in an array in order, where the last ones may be missing. -/
def struct? (names : List String) : JsonTree → Option (List (Option JsonTree))
  | array items =>
    if items.length ≤ names.length then
      some (items.map some ++ List.replicate (names.length - items.length) none)
    else none
  | tree =>
    match tree.entries? with
    | none => none
    | some entries => names.mapM fun name => single? name entries

end JsonTree

end RollCall
