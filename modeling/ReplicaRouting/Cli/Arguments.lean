import ReplicaRouting.Text.Quoted
/-!
The command line: a command with its options. An option takes the argument behind it, or what follows an
equals sign; it takes effect when the next argument is recognised or the line ends, and the first fault
that comes to light decides.
-/

namespace ReplicaRouting.Cli

inductive Command
  | checkConfig (path : String)
  | explain (path : String) (primary : Option String) (attached : Bool)
deriving Repr, DecidableEq

def Command.path : Command → String
  | .checkConfig path => path
  | .explain path .. => path

/-- Why no command is run. -/
inductive Usage
  | help
  | version
  | missingCommand
  | unknownCommand
  | unknownArgument
  | badValue
  | repeated
  | unwantedValue
deriving Repr, DecidableEq

def Usage.name : Usage → String
  | .help => "DisplayHelp"
  | .version => "DisplayVersion"
  | .missingCommand => "DisplayHelpOnMissingArgumentOrSubcommand"
  | .unknownCommand => "InvalidSubcommand"
  | .unknownArgument => "UnknownArgument"
  | .badValue => "InvalidValue"
  | .repeated => "ArgumentConflict"
  | .unwantedValue => "TooManyValues"

/-- An argument by its form. -/
inductive Argument
  | word (s : String)
  /-- Two dashes alone: no options follow. -/
  | terminator
  | long (name : String) (value : Option String)
  | short (flag : Char)
deriving Repr, DecidableEq

def Argument.ofString (s : String) : Argument :=
  match s.toList with
  | ['-', '-'] => .terminator
  | '-' :: '-' :: rest =>
    match rest.span (· != '=') with
    | (name, '=' :: value) => .long (String.ofList name) (some (String.ofList value))
    | (name, _) => .long (String.ofList name) none
  | '-' :: c :: _ => .short c
  | _ => .word s

inductive Slot
  | config
  | primary
deriving Repr, DecidableEq

structure Options where
  config : Option String := none
  primary : Option String := none
  attached : Bool := false
  /-- An option with the argument behind it, if that has come. -/
  waiting : Option (Slot × Option String) := none

namespace Options

def give (o : Options) (slot : Slot) (value : String) : Except Usage Options :=
  match slot with
  | .config =>
    if o.config.isSome then .error .repeated
    else if value = "" then .error .badValue
    else .ok { o with config := some value }
  | .primary => if o.primary.isSome then .error .repeated else .ok { o with primary := some value }

/-- The waiting option takes effect. -/
def settle (o : Options) : Except Usage Options :=
  match o.waiting with
  | none => .ok o
  | some (_, none) => .error .badValue
  | some (slot, some value) => { o with waiting := none }.give slot value

/-- The options of a command; `explains` tells which of the two. -/
def read (explains : Bool) : List String → Options → Except Usage Options
  | [], o => o.settle
  | arg :: args, o =>
    let option (slot : Slot) (value : Option String) : Except Usage Options := do
      let o ← o.settle
      match value with
      | some v => o.give slot v
      | none => return { o with waiting := some (slot, none) }
    match Argument.ofString arg with
    | .terminator => if args.isEmpty then o.settle else .error .unknownArgument
    | .long "config" value => do read explains args (← option .config value)
    | .long "primary" value =>
      if explains then do read explains args (← option .primary value) else .error .unknownArgument
    | .long "attached" value =>
      if !explains then .error .unknownArgument
      else if value.isSome then .error .unwantedValue
      else do
        let o ← o.settle
        if o.attached then throw .repeated
        read explains args { o with attached := true }
    | .long "help" none | .short 'h' => do
      let _ ← o.settle
      throw .help
    | .long "help" (some _) => .error .unwantedValue
    | .long .. | .short _ => .error .unknownArgument
    | .word s =>
      match o.waiting with
      | some (slot, none) => read explains args { o with waiting := some (slot, some s) }
      | _ => .error .unknownArgument

end Options

def defaultPath : String := "./replica-router.json"

def isCommand (name : String) : Bool := name = "check-config" || name = "explain" || name = "help"

/-- The command that the arguments ask for. -/
def Command.ofArguments : List String → Except Usage Command
  | [] => .error .missingCommand
  | "check-config" :: args => do
    let o ← Options.read false args {}
    return .checkConfig (o.config.getD defaultPath)
  | "explain" :: args => do
    let o ← Options.read true args {}
    return .explain (o.config.getD defaultPath) o.primary o.attached
  | ["help"] => .error .help
  | ["help", name] => .error (if isCommand name then .help else .unknownCommand)
  | "help" :: _ => .error .unknownCommand
  | arg :: args =>
    match Argument.ofString arg with
    | .terminator =>
      match args with
      | [] => .error .missingCommand
      | name :: _ => .error (if isCommand name then .unknownArgument else .unknownCommand)
    | .long "help" value => .error (if value.isSome then .unwantedValue else .help)
    | .long "version" value => .error (if value.isSome then .unwantedValue else .version)
    | .short 'h' => .error .help
    | .short 'V' => .error .version
    | .long .. | .short _ => .error .unknownArgument
    | .word _ => .error .unknownCommand

/-- The command with its values, texts quoted. -/
def Command.inspect : Command → String
  | .checkConfig path => "CheckConfig \x7b config: " ++ Text.quote path ++ " \x7d"
  | .explain path primary attached =>
    let primary :=
      match primary with
      | some p => "Some(" ++ Text.quote p ++ ")"
      | none => "None"
    "Explain \x7b config: " ++ Text.quote path ++ ", primary: " ++ primary ++ ", attached: " ++
      (if attached then "true" else "false") ++ " \x7d"

end ReplicaRouting.Cli
