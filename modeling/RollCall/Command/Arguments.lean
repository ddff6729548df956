import RollCall.Command.Usage
import RollCall.Text.Find

/-!
# Reading arguments

Arguments are read from left to right. The value of an argument is looked at only when the next argument
is taken or the command ends, so that an argument nobody knows is reported before a bad value in front
of it. The arguments of a subcommand are checked before those in front of its name.
-/

namespace RollCall

/-- The arguments that a command was given. -/
structure Given where
  /-- The options without a value. -/
  flags : List String
  /-- The values of options and positional arguments, under their names. -/
  values : List (String × String)
deriving DecidableEq, Repr

namespace Given

/-- Nothing. -/
def empty : Given := ⟨[], []⟩

/-- Whether an argument was given. -/
def has (given : Given) (name : String) : Bool :=
  given.flags.contains name || given.values.any (·.1 = name)

/-- The value of an argument. -/
def value? (given : Given) (name : String) : Option String :=
  (given.values.find? (·.1 = name)).map Prod.snd

end Given

/-- A command and the arguments that it was given. -/
structure Level where
  /-- The name of the command. -/
  command : String
  /-- Its arguments. -/
  given : Given
deriving DecidableEq, Repr

/-- An argument whose value has not been looked at. -/
structure PendingValue where
  /-- The name of the argument. -/
  name : String
  /-- What values it can have. -/
  kind : ValueKind
  /-- The value, unless it is still to come. -/
  value? : Option String
deriving DecidableEq, Repr

/-- How far the arguments of a command have been read. -/
structure ArgumentReader where
  /-- What was given. -/
  given : Given
  /-- The argument that was read last, if its value has not been looked at. -/
  pending? : Option PendingValue
  /-- Whether two dashes were read, behind which there are no options. -/
  afterDashes : Bool
  /-- The number of positional arguments. -/
  positionals : Nat

namespace ArgumentReader

/-- Nothing is read. -/
def start : ArgumentReader := ⟨.empty, none, false, 0⟩

/-- Whether the next argument is the value of an option, whatever it looks like. -/
def awaitsValue (reader : ArgumentReader) : Bool :=
  match reader.pending? with
  | some ⟨_, _, none⟩ => !reader.afterDashes
  | _ => false

/-- Looks at the value that was read last. -/
def settle (reader : ArgumentReader) : Except UsageFault ArgumentReader :=
  match reader.pending? with
  | none => .ok reader
  | some ⟨_, _, none⟩ => .error .invalidValue
  | some ⟨name, kind, some value⟩ =>
    if reader.given.has name then .error .conflict
    else
      match kind.fault? value with
      | some fault => .error fault
      | none =>
        .ok { reader with
          given := { reader.given with values := reader.given.values ++ [(name, value)] }
          pending? := none }

/-- Takes an argument with a value, or with one that is still to come. -/
def hold (reader : ArgumentReader) (pending : PendingValue) : Except UsageFault ArgumentReader :=
  match reader.settle with
  | .error fault => .error fault
  | .ok reader => .ok { reader with pending? := some pending }

/-- Takes an option without a value. -/
def raise (reader : ArgumentReader) (option : OptionSpec) : Except UsageFault ArgumentReader :=
  match reader.settle with
  | .error fault => .error fault
  | .ok reader =>
    match option.effect with
    | .help => .error .help
    | .version => .error .version
    | _ =>
      if reader.given.has option.name then .error .conflict
      else .ok { reader with given := { reader.given with flags := reader.given.flags ++ [option.name] } }

/-- Takes an option with the value that is written in the same argument, if there is one. -/
def takeOption (reader : ArgumentReader) (option : OptionSpec) (attached? : Option String) :
    Except UsageFault ArgumentReader :=
  match option.effect, attached? with
  | .value kind, none => reader.hold ⟨option.name, kind, none⟩
  | .value kind, some value =>
    match reader.hold ⟨option.name, kind, some value⟩ with
    | .error fault => .error fault
    | .ok reader => reader.settle
  | _, none => reader.raise option
  | _, some _ => .error .needlessValue

/-- Takes an option that is named behind two dashes. -/
def takeLong (spec : CommandSpec) (reader : ArgumentReader) (text : List Char) :
    Except UsageFault ArgumentReader :=
  let (name, attached?) := match Text.cut? ['='] text with
    | some (name, value) => (name, some (String.ofList value))
    | none => (text, none)
  match spec.option? (String.ofList name) with
  | none => .error .unknownArgument
  | some option => reader.takeOption option attached?

/-- Takes the options whose letters stand behind one dash. What follows the letter of an option with
a value is the value. -/
def takeLetters (spec : CommandSpec) (reader : ArgumentReader) :
    List Char → Except UsageFault ArgumentReader
  | [] => .ok reader
  | letter :: rest =>
    match spec.letter? letter with
    | none => .error .unknownArgument
    | some option =>
      match option.effect, rest with
      | .value _, [] => reader.takeOption option none
      | .value _, '=' :: value => reader.takeOption option (some (String.ofList value))
      | .value _, value => reader.takeOption option (some (String.ofList value))
      | _, rest =>
        match reader.raise option with
        | .error fault => .error fault
        | .ok reader => takeLetters spec reader rest

/-- Why an argument is one too many. -/
def surplus (spec : CommandSpec) (reader : ArgumentReader) (word : String) : UsageFault :=
  if spec.subcommands.isEmpty then .unknownArgument
  else if reader.afterDashes && (spec.isHelp word || (spec.subcommand? word).isSome) then
    .unknownArgument
  else .invalidSubcommand

/-- Takes a positional argument. -/
def takePositional (spec : CommandSpec) (reader : ArgumentReader) (word : String) :
    Except UsageFault ArgumentReader :=
  match spec.positionals[reader.positionals]? with
  | none => .error (surplus spec reader word)
  | some positional =>
    match reader.hold ⟨positional.name, positional.kind, some word⟩ with
    | .error fault => .error fault
    | .ok reader => .ok { reader with positionals := reader.positionals + 1 }

/-- Takes an argument that is no subcommand. -/
def take (spec : CommandSpec) (reader : ArgumentReader) (word : String) :
    Except UsageFault ArgumentReader :=
  if reader.afterDashes then reader.takePositional spec word
  else
    match word.toList with
    | ['-', '-'] => .ok { reader with afterDashes := true }
    | '-' :: '-' :: text => reader.takeLong spec text
    | '-' :: letter :: letters => reader.takeLetters spec (letter :: letters)
    | _ =>
      match reader.awaitsValue, reader.pending? with
      | true, some pending => .ok { reader with pending? := some { pending with value? := some word } }
      | _, _ => reader.takePositional spec word

/-- Whether an argument that has to be given was not. -/
def lacks (given : Given) (positional : PositionalSpec) : Bool :=
  match positional.need with
  | .optional => false
  | .required => !given.has positional.name
  | .unless option => !given.has positional.name && !given.has option

/-- What is wrong with the value that an option has because it was not given. -/
def fallbackFault? (given : Given) (option : OptionSpec) : Option UsageFault :=
  match option.effect, option.fallback? with
  | .value kind, some value => if given.has option.name then none else kind.fault? value
  | _, _ => none

/-- Checks what a command was given. -/
def finish (spec : CommandSpec) (reader : ArgumentReader) : Except UsageFault Given :=
  match reader.settle with
  | .error fault => .error fault
  | .ok reader =>
    match spec.options.findSome? (fallbackFault? reader.given) with
    | some fault => .error fault
    | none =>
      if spec.exclusive.any fun (a, b) => reader.given.has a && reader.given.has b then .error .conflict
      else if spec.positionals.any (lacks reader.given) then .error .missingArgument
      else .ok reader.given

/-- Why there is no command: help on it is asked for, or there is no such command. -/
def helpFault (spec : CommandSpec) : List String → UsageFault
  | [] => .help
  | word :: words =>
    match spec.subcommand? word with
    | some sub => helpFault sub words
    | none => if spec.isHelp word && words.isEmpty then .help else .invalidSubcommand

/-- Reads the arguments of a command; gives the command and its subcommands with what each was given. -/
def read (spec : CommandSpec) (reader : ArgumentReader) : List String → Except UsageFault (List Level)
  | [] =>
    match reader.finish spec with
    | .error fault => .error fault
    | .ok given => .ok [⟨spec.name, given⟩]
  | word :: words =>
    let mayName := !reader.afterDashes && !reader.awaitsValue
    match if mayName then spec.subcommand? word else none with
    | some sub =>
      match read sub start words with
      | .error fault => .error fault
      | .ok levels =>
        match reader.finish spec with
        | .error fault => .error fault
        | .ok given => .ok (⟨spec.name, given⟩ :: levels)
    | none =>
      if mayName && spec.isHelp word then .error (helpFault spec words)
      else
        match reader.take spec word with
        | .error fault => .error fault
        | .ok reader => read spec reader words

end ArgumentReader

end RollCall
