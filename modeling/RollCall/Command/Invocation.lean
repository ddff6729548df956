import RollCall.Command.Arguments
import RollCall.Record.Search
import RollCall.Record.Selection

/-!
# Invocations

What the program is asked to do: a command with its arguments, and what holds for every command.
-/

namespace RollCall

/-- What is done with the configuration. -/
inductive ConfigAction where
  /-- It is shown. -/
  | show
  /-- One setting is changed. -/
  | assign (key value : String)
  /-- The path of its file is shown. -/
  | path
deriving DecidableEq, Repr

/-- Which state is recorded. -/
inductive StateChange where
  /-- The state with a name. -/
  | toState (name : String)
  /-- None. -/
  | clear
deriving DecidableEq, Repr

/-- A command. -/
inductive Command where
  /-- Shows the canonical form of a query, and what it selects if that is asked for. -/
  | query (expression : String) (resolve : Bool)
  /-- Lists the blocks of a document or of the vault. -/
  | listBlocks (path? : Option String) (search : Search)
  /-- Lists the attendees of a block. -/
  | showBlock (path : String) (selection : Selection)
  /-- Records the state of an attendee. -/
  | recordState (path attendee : String) (change : StateChange) (note : String) (selection : Selection)
  /-- Writes a table of records to a file, a new one in the vault if none is named. -/
  | exportTo (search : Search) (output? : Option String)
  /-- Prints a table of records. -/
  | printExport (search : Search)
  /-- Shows or changes the configuration. -/
  | config (action : ConfigAction)
  /-- Prints what a shell needs to complete arguments. -/
  | completions (shell : String)
  /-- Says what the program is. -/
  | greet
deriving DecidableEq

/-- A command and what holds for every command. -/
structure Invocation where
  /-- Whether only errors are shown. -/
  quiet : Bool
  /-- Whether answers are JSON texts. -/
  json : Bool
  /-- Whether colors are unwanted. -/
  noColor : Bool
  /-- The path of the vault. -/
  vault? : Option String
  /-- The command. -/
  command : Command
deriving DecidableEq

namespace Invocation

/-! ## The grammar of the arguments -/

/-- The options of every command. -/
def commonOptions (vault? : Option String) : List OptionSpec :=
  [⟨"verbose", some 'v', .flag, none⟩, ⟨"quiet", some 'q', .flag, none⟩, ⟨"json", none, .flag, none⟩,
    ⟨"no-color", none, .flag, none⟩, ⟨"vault", none, .value .path, vault?⟩]

/-- A command, whose options stand beside the common ones. -/
def commandSpec (vault? : Option String) (names : List String) (options : List OptionSpec)
    (positionals : List PositionalSpec) (exclusive : List (String × String))
    (subcommands : List CommandSpec) : CommandSpec :=
  .mk names (options ++ commonOptions vault?) positionals (("quiet", "verbose") :: exclusive)
    subcommands

/-- The option that sets the title that is looked for. -/
def titleOption : OptionSpec := ⟨"title", some 't', .value .text, none⟩

/-- The options of a search. -/
def searchOptions : List OptionSpec :=
  [⟨"from", none, .value .date, none⟩, ⟨"to", none, .value .date, none⟩, titleOption]

/-- The options of a selection. -/
def selectionOptions : List OptionSpec :=
  [⟨"date", some 'd', .value .date, none⟩, titleOption]

/-- The shells whose completions can be asked for. -/
def shells : List String := ["bash", "zsh", "fish", "powershell"]

/-- The subcommands of the command for the configuration. -/
def configSpecs (vault? : Option String) : List CommandSpec :=
  let spec := commandSpec vault?
  [spec ["show"] [] [] [] [],
    spec ["set"] [] [⟨"key", .text, .required⟩, ⟨"value", .text, .required⟩] [] [],
    spec ["path"] [] [] [] []]

/-- The program and its commands; the path of the vault is what the system names. -/
def spec (vault? : Option String) : CommandSpec :=
  let spec := commandSpec vault?
  spec ["attend"] [] [] []
    [spec ["query", "q"] [⟨"resolve", some 'r', .flag, none⟩]
        [⟨"expression", .text, .required⟩] [] [],
      spec ["blocks", "b"] searchOptions [⟨"path", .text, .optional⟩] [] [],
      spec ["show", "s"] selectionOptions [⟨"path", .text, .required⟩] [] [],
      spec ["set"]
        ([⟨"note", some 'n', .value .text, none⟩, ⟨"clear", none, .flag, none⟩] ++ selectionOptions)
        [⟨"path", .text, .required⟩, ⟨"attendee", .text, .required⟩,
          ⟨"state", .text, .unless "clear"⟩]
        [("clear", "state")] [],
      spec ["export"]
        (searchOptions ++
          [⟨"output", some 'o', .value .path, none⟩, ⟨"stdout", none, .flag, none⟩])
        [] [("stdout", "output")] [],
      spec ["config"] [] [] [] (configSpecs vault?),
      spec ["completions"] [] [⟨"shell", .word shells, .required⟩] [] []]

/-! ## Reading an invocation -/

/-- The date that an option names. -/
def date? (given : Given) (name : String) : Option Date :=
  (given.value? name).bind fun text => Date.read? .loose text.toList

/-- The search that the options describe. -/
def search (given : Given) : Search :=
  ⟨date? given "from", date? given "to", given.value? "title"⟩

/-- The selection that the options describe. -/
def selection (given : Given) : Selection :=
  ⟨date? given "date", given.value? "title"⟩

/-- A positional argument that has to be given. -/
def positional (given : Given) (name : String) : String :=
  (given.value? name).getD ""

/-- What is done with the configuration. -/
def configAction : List Level → ConfigAction
  | [⟨"set", given⟩] => .assign (positional given "key") (positional given "value")
  | [⟨"path", _⟩] => .path
  | _ => .show

/-- The command that the arguments behind the name of the program describe. -/
def commandOf : List Level → Command
  | ⟨"query", given⟩ :: _ => .query (positional given "expression") (given.has "resolve")
  | ⟨"blocks", given⟩ :: _ => .listBlocks (given.value? "path") (search given)
  | ⟨"show", given⟩ :: _ => .showBlock (positional given "path") (selection given)
  | ⟨"set", given⟩ :: _ =>
    .recordState (positional given "path") (positional given "attendee")
      (if given.has "clear" then .clear else .toState (positional given "state"))
      (positional given "note") (selection given)
  | ⟨"export", given⟩ :: _ =>
    if given.has "stdout" then .printExport (search given)
    else .exportTo (search given) (given.value? "output")
  | ⟨"config", _⟩ :: levels => .config (configAction levels)
  | ⟨"completions", given⟩ :: _ => .completions (positional given "shell")
  | _ => .greet

/-- The path of the vault: what the innermost command was given, or else what the system names. -/
def vaultPath? (vault? : Option String) (levels : List Level) : Option String :=
  match levels.reverse.findSome? fun level => level.given.value? "vault" with
  | some path => some path
  | none => vault?

/-- The invocation that arguments spell, where the system may name a vault. -/
def read (vault? : Option String) (arguments : List String) : Except UsageFault Invocation :=
  match ArgumentReader.read (spec vault?) .start arguments with
  | .error fault => .error fault
  | .ok levels =>
    let any := fun name => levels.any fun level => level.given.has name
    .ok ⟨any "quiet", any "json", any "no-color", vaultPath? vault? levels, commandOf levels.tail⟩

end Invocation

end RollCall
