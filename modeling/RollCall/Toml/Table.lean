/-!
# TOML tables

The values of a TOML text, and how its lines build up the table that the text stands for. No key is
ever given a second value; a table may be opened once by a header, besides the headers of the tables
inside it.
-/

namespace RollCall

/-- How a table came to be. -/
inductive TableOrigin where
  /-- A header opened a table inside it. -/
  | implied
  /-- A header opened it. -/
  | opened
  /-- A dotted key goes through it. -/
  | dotted
  /-- It is written as a value. -/
  | inline
deriving DecidableEq, Repr

/-- A TOML value. -/
inductive Toml where
  /-- A text. -/
  | string (text : String)
  /-- A whole number. -/
  | integer (value : Int)
  /-- A truth value. -/
  | boolean (value : Bool)
  /-- A list of values. -/
  | array (items : List Toml)
  /-- Named values. -/
  | table (origin : TableOrigin) (entries : List (String × Toml))
  /-- A list of tables, each opened by a header; the last one is open. -/
  | tables (elements : List (List (String × Toml)))

/-- The named values of a table, in order. -/
abbrev TomlEntries := List (String × Toml)

namespace TomlEntries

/-- The value of a key. -/
def find? (entries : TomlEntries) (key : String) : Option Toml :=
  (List.find? (·.1 = key) entries).map Prod.snd

/-- The entries with a value for a key, in the place of its old one or at the end. -/
def put (entries : TomlEntries) (key : String) (value : Toml) : TomlEntries :=
  match entries with
  | [] => [(key, value)]
  | entry :: entries =>
    if entry.1 = key then (key, value) :: entries else entry :: put entries key value

/-- Whether a path may go on inside a table: that of a header, or that of a dotted key. -/
def mayEnter (isHeader : Bool) : TableOrigin → Bool
  | .implied | .dotted => true
  | .opened => isHeader
  | .inline => false

/-- Changes the table that a path leads to; the tables on the way are made if they are missing. -/
def changeAt (isHeader : Bool) (change : TomlEntries → Option TomlEntries) :
    List String → TomlEntries → Option TomlEntries
  | [], entries => change entries
  | key :: path, entries =>
    match entries.find? key with
    | none =>
      (changeAt isHeader change path []).map fun inner =>
        entries.put key (.table (if isHeader then .implied else .dotted) inner)
    | some (.table origin inner) =>
      if mayEnter isHeader origin then
        (changeAt isHeader change path inner).map fun inner => entries.put key (.table origin inner)
      else none
    | some (.tables elements) =>
      match elements.getLast?, isHeader with
      | some inner, true =>
        (changeAt isHeader change path inner).map fun inner =>
          entries.put key (.tables (elements.dropLast ++ [inner]))
      | _, _ => none
    | some _ => none

/-- Gives a value to a key, which may be dotted and must not have one. -/
def assign (path : List String) (value : Toml) (entries : TomlEntries) : Option TomlEntries :=
  match path.getLast? with
  | none => none
  | some key =>
    changeAt false (fun inner => if (inner.find? key).isSome then none else some (inner.put key value))
      path.dropLast entries

/-- Opens a table. -/
def openTable (path : List String) (entries : TomlEntries) : Option TomlEntries :=
  match path.getLast? with
  | none => none
  | some key =>
    changeAt true
      (fun inner =>
        match inner.find? key with
        | none => some (inner.put key (.table .opened []))
        | some (.table .implied table) => some (inner.put key (.table .opened table))
        | some _ => none)
      path.dropLast entries

/-- Opens a further table of a list of tables. -/
def openElement (path : List String) (entries : TomlEntries) : Option TomlEntries :=
  match path.getLast? with
  | none => none
  | some key =>
    changeAt true
      (fun inner =>
        match inner.find? key with
        | none => some (inner.put key (.tables [[]]))
        | some (.tables elements) => some (inner.put key (.tables (elements ++ [[]])))
        | some _ => none)
      path.dropLast entries

end TomlEntries

/-- A line of a TOML text that says something. -/
inductive TomlLine where
  /-- Opens a table. -/
  | header (path : List String)
  /-- Opens a further table of a list. -/
  | element (path : List String)
  /-- Gives a value to a key of the open table. -/
  | assignment (path : List String) (value : Toml)

/-- A table that is being built. -/
structure TomlDraft where
  /-- The path of the open table. -/
  current : List String
  /-- What has been built. -/
  entries : TomlEntries

namespace TomlDraft

/-- Takes one more line. -/
def take? (draft : TomlDraft) : TomlLine → Option TomlDraft
  | .header path => (draft.entries.openTable path).map fun entries => ⟨path, entries⟩
  | .element path => (draft.entries.openElement path).map fun entries => ⟨path, entries⟩
  | .assignment path value =>
    (TomlEntries.changeAt true (TomlEntries.assign path value) draft.current draft.entries).map
      fun entries => ⟨draft.current, entries⟩

end TomlDraft

/-- The table that some lines stand for. -/
def TomlEntries.ofLines? (lines : List TomlLine) : Option TomlEntries :=
  (lines.foldlM TomlDraft.take? ⟨[], []⟩).map TomlDraft.entries

end RollCall
