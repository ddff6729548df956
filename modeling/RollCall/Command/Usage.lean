import RollCall.Calendar.Date

/-!
# What can stand behind the name of a command

A command takes options, which are named, and positional arguments, which are known by their order; or
it is divided into subcommands. This is the grammar of its arguments, apart from how they are read.
-/

namespace RollCall

/-- Why arguments are not taken. Asking for help or for the version counts too. -/
inductive UsageFault where
  /-- An argument is not known, or there is one too many. -/
  | unknownArgument
  /-- Two arguments exclude each other, or one is given twice. -/
  | conflict
  /-- An argument is missing. -/
  | missingArgument
  /-- A word is no subcommand. -/
  | invalidSubcommand
  /-- A value is missing or is none of those allowed. -/
  | invalidValue
  /-- A value cannot be read. -/
  | unreadableValue
  /-- An option that takes no value has one. -/
  | needlessValue
  /-- Help is asked for. -/
  | help
  /-- The version is asked for. -/
  | version
deriving DecidableEq, Repr

/-- The exit code of the program. -/
def UsageFault.exitCode : UsageFault → Nat
  | help | version => 0
  | _ => 2

/-- The wording of the reason. -/
def UsageFault.message : UsageFault → String
  | unknownArgument => "unexpected argument"
  | conflict => "arguments exclude each other or are repeated"
  | missingArgument => "a required argument is missing"
  | invalidSubcommand => "there is no such subcommand"
  | invalidValue => "a value is missing or not allowed"
  | unreadableValue => "a value cannot be read"
  | needlessValue => "an option takes no value"
  | help | version => "attend - attendance codeblocks in markdown vaults"

/-- What values an argument can have. -/
inductive ValueKind where
  /-- Any text. -/
  | text
  /-- A path, which is not empty. -/
  | path
  /-- A date. -/
  | date
  /-- One of some words. -/
  | word (allowed : List String)
deriving DecidableEq, Repr

/-- What is wrong with a value. -/
def ValueKind.fault? (value : String) : ValueKind → Option UsageFault
  | text => none
  | path => if value = "" then some .invalidValue else none
  | date => if (Date.read? .loose value.toList).isSome then none else some .unreadableValue
  | word allowed => if value ∈ allowed then none else some .invalidValue

/-- What an option does. -/
inductive OptionEffect where
  /-- It is on. -/
  | flag
  /-- It has a value. -/
  | value (kind : ValueKind)
  /-- It asks for help. -/
  | help
  /-- It asks for the version. -/
  | version
deriving DecidableEq, Repr

/-- An option of a command. -/
structure OptionSpec where
  /-- The name behind two dashes. -/
  name : String
  /-- The letter behind one dash. -/
  letter? : Option Char
  /-- What it does. -/
  effect : OptionEffect
  /-- The value that it has if it is not given. -/
  fallback? : Option String := none
deriving DecidableEq, Repr

/-- Whether an argument has to be given. -/
inductive Need where
  /-- It may be left out. -/
  | optional
  /-- It has to be given. -/
  | required
  /-- It has to be given unless an option is. -/
  | unless (option : String)
deriving DecidableEq, Repr

/-- A positional argument of a command. -/
structure PositionalSpec where
  /-- What it is known by. -/
  name : String
  /-- What values it can have. -/
  kind : ValueKind
  /-- Whether it has to be given. -/
  need : Need
deriving DecidableEq, Repr

/-- A command and what can stand behind its name. -/
inductive CommandSpec where
  /-- The names of the command, its options and positional arguments, the pairs of arguments that exclude
  each other, and its subcommands. -/
  | mk (names : List String) (options : List OptionSpec) (positionals : List PositionalSpec)
      (exclusive : List (String × String)) (subcommands : List CommandSpec)

namespace CommandSpec

/-- The name of a command and the others that it has. -/
def names : CommandSpec → List String
  | mk names .. => names

/-- The name of a command. -/
def name (spec : CommandSpec) : String :=
  spec.names.head?.getD ""

/-- The options of a command, and those that every command has. -/
def options : CommandSpec → List OptionSpec
  | mk _ options .. => options ++ [⟨"help", some 'h', .help, none⟩, ⟨"version", some 'V', .version, none⟩]

/-- The positional arguments of a command, in order. -/
def positionals : CommandSpec → List PositionalSpec
  | mk _ _ positionals .. => positionals

/-- The pairs of arguments that exclude each other. -/
def exclusive : CommandSpec → List (String × String)
  | mk _ _ _ exclusive _ => exclusive

/-- The subcommands of a command. -/
def subcommands : CommandSpec → List CommandSpec
  | mk _ _ _ _ subcommands => subcommands

/-- The subcommand with a name. -/
def subcommand? (spec : CommandSpec) (word : String) : Option CommandSpec :=
  spec.subcommands.find? fun sub => word ∈ sub.names

/-- Whether a word asks for help on subcommands. -/
def isHelp (spec : CommandSpec) (word : String) : Bool :=
  word = "help" && !spec.subcommands.isEmpty

/-- The option with a name. -/
def option? (spec : CommandSpec) (name : String) : Option OptionSpec :=
  spec.options.find? (·.name = name)

/-- The option with a letter. -/
def letter? (spec : CommandSpec) (letter : Char) : Option OptionSpec :=
  spec.options.find? (·.letter? = some letter)

end CommandSpec

end RollCall
