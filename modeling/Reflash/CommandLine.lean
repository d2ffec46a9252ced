import Reflash.Command

/-!
# Reflash.CommandLine — the arguments of the program

A command line is a flag `-v`, the name of a command and the options of that command.  Options are written
`--name value`, `--name=value`, `-n value`, `-nvalue` or `-n=value`, flags may be written together.  An argument
that begins with `-` is never taken for a value; a value is read when the next option begins or the line ends,
so an unknown option is reported before a bad value in front of it.
-/

namespace Reflash

/-- Why a command line is refused.  `help` and `helpOnMissing` are answered by a help text. -/
inductive ArgumentError where
  | help
  | helpOnMissing
  | missingCommand
  | invalidCommand
  | unknownArgument
  /-- An option that may stand once is given twice. -/
  | conflict
  /-- A value is missing, or empty where it must not be. -/
  | invalidValue
  /-- A flag is given a value. -/
  | tooManyValues
  | badValue (message : String)
  | missingRequired
  deriving DecidableEq

/-- Whether the refusal is only a request for help. -/
def ArgumentError.isHelp (e : ArgumentError) : Bool := e = .help

def ArgumentError.message : ArgumentError → String
  | .help | .helpOnMissing => "see the commands below"
  | .missingCommand => "a command is required"
  | .invalidCommand => "there is no such command"
  | .unknownArgument => "there is no such option"
  | .conflict => "an option is given twice"
  | .invalidValue => "an option lacks its value"
  | .tooManyValues => "a flag takes no value"
  | .badValue message => message
  | .missingRequired => "an option that is required is missing"

/-- A command with its options. -/
inductive Invocation where
  | list (firmware : List (ProductLine × String))
  | update (serial : String) (file? : Option String) (firmware : List (ProductLine × String)) (backupDir : String)
      (noBackup : Bool) (recoverySeconds reconnectSeconds : Nat)
  | recover (file : String) (serial? : Option String)
  | backup (serial out : String)
  deriving DecidableEq

/-- A whole command line. -/
structure CommandLine where
  verbose : Bool
  invocation : Invocation
  deriving DecidableEq

namespace CommandLine

/-! ### Options -/

/-- The options and flags of all commands. -/
inductive Switch where
  | verbose
  | help
  | serial
  | file
  | firmware
  | backupDir
  | noBackup
  | recoveryTimeout
  | reconnectTimeout
  | out
  deriving DecidableEq

namespace Switch

/-- Whether the switch stands alone. -/
def isFlag : Switch → Bool
  | .verbose | .help | .noBackup => true
  | _ => false

def long : Switch → String
  | .verbose => "verbose"
  | .help => "help"
  | .serial => "serial"
  | .file => "file"
  | .firmware => "firmware"
  | .backupDir => "backup-dir"
  | .noBackup => "no-backup"
  | .recoveryTimeout => "recovery-timeout"
  | .reconnectTimeout => "reconnect-timeout"
  | .out => "out"

def short? : Switch → Option Char
  | .verbose => some 'v'
  | .help => some 'h'
  | .serial => some 's'
  | .file => some 'f'
  | .out => some 'o'
  | _ => none

end Switch

inductive CommandName where
  | list
  | update
  | recover
  | backup
  deriving DecidableEq

namespace CommandName

def all : List CommandName := [.list, .update, .recover, .backup]

def text : CommandName → String
  | .list => "list"
  | .update => "update"
  | .recover => "recover"
  | .backup => "backup"

/-- What may stand behind a command. -/
def switches : CommandName → List Switch
  | .list => [.firmware, .help]
  | .update =>
    [.serial, .file, .firmware, .backupDir, .noBackup, .recoveryTimeout, .reconnectTimeout, .help]
  | .recover => [.file, .serial, .help]
  | .backup => [.serial, .out, .help]

def parse? (text : String) : Option CommandName := all.find? fun c => c.text = text

end CommandName

/-! ### Values -/

/-- Reads `LINE=FILE`, cut at the first `=`. -/
def firmwareArgument (arg : String) : Except String (ProductLine × String) :=
  match Text.splitOnce '=' arg.toList with
  | none => .error ("expected LINE=FILE, got " ++ Text.quote arg)
  | some (name, file) =>
    match ProductLine.parse? (String.ofList name) with
    | none => .error ("unknown product line " ++ Text.quote (String.ofList name))
    | some line => if file.isEmpty then .error "missing firmware file" else .ok (line, String.ofList file)

/-- What was given so far. -/
structure Given where
  verbose : Bool := false
  serial : Option String := none
  file : Option String := none
  firmware : List (ProductLine × String) := []
  backupDir : Option String := none
  noBackup : Bool := false
  recoverySeconds : Option Nat := none
  reconnectSeconds : Option Nat := none
  out : Option String := none

namespace Given

/-- Takes a value that may be given once. -/
def once {α : Type} (old : Option α) (new : Except ArgumentError α) : Except ArgumentError (Option α) :=
  match old with
  | some _ => .error .conflict
  | none => new.map some

/-- A path must not be empty. -/
def path (text : String) : Except ArgumentError String := if text = "" then .error .invalidValue else .ok text

/-- A number of seconds in 64 bits. -/
def seconds (text : String) : Except ArgumentError Nat :=
  (Text.readUnsigned UInt64.size text.toList).mapError fun e => .badValue e.message

/-- Takes the value of an option. -/
def store (g : Given) (switch : Switch) (value : String) : Except ArgumentError Given :=
  match switch with
  | .serial => (once g.serial (.ok value)).map fun x => { g with serial := x }
  | .file => (once g.file (path value)).map fun x => { g with file := x }
  | .firmware =>
    match firmwareArgument value with
    | .ok entry => .ok { g with firmware := g.firmware ++ [entry] }
    | .error message => .error (.badValue message)
  | .backupDir => (once g.backupDir (path value)).map fun x => { g with backupDir := x }
  | .recoveryTimeout => (once g.recoverySeconds (seconds value)).map fun x => { g with recoverySeconds := x }
  | .reconnectTimeout => (once g.reconnectSeconds (seconds value)).map fun x => { g with reconnectSeconds := x }
  | .out => (once g.out (path value)).map fun x => { g with out := x }
  | .verbose | .help | .noBackup => .ok g

def raise (g : Given) (switch : Switch) : Except ArgumentError Given :=
  match switch with
  | .help => .error .help
  | .verbose => if g.verbose then .error .conflict else .ok { g with verbose := true }
  | .noBackup => if g.noBackup then .error .conflict else .ok { g with noBackup := true }
  | _ => .ok g

end Given

/-! ### Reading -/

/-- The reader between two arguments: what was given, and an option whose value is still to be read. -/
structure Reader where
  given : Given := {}
  /-- An option, and its value if that has come. -/
  pending : Option (Switch × Option String) := none

namespace Reader

/-- Reads the value of the pending option. -/
def settle (r : Reader) : Except ArgumentError Given :=
  match r.pending with
  | none => .ok r.given
  | some (_, none) => .error .invalidValue
  | some (switch, some value) => r.given.store switch value

def flag (r : Reader) (switch : Switch) : Except ArgumentError Reader :=
  match r.settle with
  | .error e => .error e
  | .ok given => (given.raise switch).map fun g => { given := g }

/-- Meets an option, with its value if that is attached. -/
def option (r : Reader) (switch : Switch) (attached : Option String) : Except ArgumentError Reader :=
  match r.settle with
  | .error e => .error e
  | .ok given =>
    match attached with
    | some value => (given.store switch value).map fun g => { given := g }
    | none => .ok { given, pending := some (switch, none) }

/-- Meets `--name` or `--name=value`, without the dashes. -/
def long (switches : List Switch) (r : Reader) (text : List Char) : Except ArgumentError Reader :=
  let (name, attached) := match Text.splitOnce '=' text with
    | some (name, value) => (String.ofList name, some (String.ofList value))
    | none => (String.ofList text, none)
  match switches.find? fun s => s.long = name with
  | none => .error .unknownArgument
  | some switch =>
    if switch.isFlag then
      if attached.isSome then .error .tooManyValues else r.flag switch
    else r.option switch attached

/-- Meets short switches, without the dash: flags, and at the end perhaps an option with what
is left as its value. -/
def short (switches : List Switch) : Reader → List Char → Except ArgumentError Reader
  | r, [] => .ok r
  | r, c :: rest =>
    match switches.find? fun s => s.short? = some c with
    | none => .error .unknownArgument
    | some switch =>
      if switch.isFlag then
        match r.flag switch with
        | .ok next => short switches next rest
        | .error e => .error e
      else
        r.option switch <| match rest with
          | [] => none
          | '=' :: value => some (String.ofList value)
          | value => some (String.ofList value)

/-- Meets an argument that is no switch. -/
def plain (r : Reader) (value : String) : Except ArgumentError Reader :=
  match r.pending with
  | some (switch, none) => .ok { r with pending := some (switch, some value) }
  | _ => .error .unknownArgument

/-- Meets one argument other than `--`. -/
def argument (switches : List Switch) (r : Reader) (arg : String) : Except ArgumentError Reader :=
  match arg.toList with
  | '-' :: '-' :: text => long switches r text
  | ['-'] => r.plain arg
  | '-' :: text => short switches r text
  | _ => r.plain arg

/-- Reads the options of a command.  After `--` nothing may follow, since there are no arguments but options. -/
def options (switches : List Switch) : Reader → List String → Except ArgumentError Given
  | r, [] => r.settle
  | r, arg :: rest =>
    if arg = "--" then
      if rest.isEmpty then r.settle else .error .unknownArgument
    else
      match r.argument switches arg with
      | .ok next => options switches next rest
      | .error e => .error e

end Reader

/-- An option that must be given. -/
def required {α : Type} (x : Option α) : Except ArgumentError α :=
  match x with
  | some a => .ok a
  | none => .error .missingRequired

/-- Where backups go unless said otherwise. -/
def defaultDir : String := "backups"

/-- How many seconds a camera may take to come back unless said otherwise. -/
def defaultSeconds : Nat := 60

/-- The command that the options make. -/
def assemble (name : CommandName) (g : Given) : Except ArgumentError Invocation :=
  match name with
  | .list => .ok (.list g.firmware)
  | .update =>
    (required g.serial).map fun serial =>
      .update serial g.file g.firmware (g.backupDir.getD defaultDir) g.noBackup
        (g.recoverySeconds.getD defaultSeconds) (g.reconnectSeconds.getD defaultSeconds)
  | .recover => (required g.file).map fun file => .recover file g.serial
  | .backup => (required g.serial).map fun serial => .backup serial (g.out.getD defaultDir)

/-- Reads what follows the name of a command. -/
def command (name : CommandName) (args : List String) : Except ArgumentError Invocation :=
  match Reader.options name.switches {} args with
  | .ok given => assemble name given
  | .error e => .error e

/-- The help on a command: `help`, `help update`, `help help`. -/
def helpOn : List String → ArgumentError
  | [] => .help
  | [name] => if name = "help" || (CommandName.parse? name).isSome then .help else .invalidCommand
  | _ => .invalidCommand

/-- Reads the arguments after `--`, where no command may stand. -/
def afterDashes (verbose : Bool) : List String → ArgumentError
  | [] => if verbose then .missingCommand else .helpOnMissing
  | arg :: _ => if arg = "help" || (CommandName.parse? arg).isSome then .unknownArgument else .invalidCommand

/-- Reads the arguments up to the name of the command, and the command. -/
def read : Reader → List String → Except ArgumentError CommandLine
  | r, [] => .error (if r.given.verbose then .missingCommand else .helpOnMissing)
  | r, arg :: rest =>
    match CommandName.parse? arg with
    | some name => (command name rest).map fun i => ⟨r.given.verbose, i⟩
    | none =>
      if arg = "help" then .error (helpOn rest)
      else if arg = "--" then .error (afterDashes r.given.verbose rest)
      else if arg.toList.head? = some '-' && arg ≠ "-" then
        match r.argument [.verbose, .help] arg with
        | .ok next => read next rest
        | .error e => .error e
      else .error .invalidCommand

/-- Reads the arguments of the program. -/
def parse (args : List String) : Except ArgumentError CommandLine := read {} args

def usage : List String :=
  [ "usage: reflash [-v] COMMAND",
    "  list [--firmware LINE=FILE]...",
    "  update -s SERIAL (-f FILE | --firmware LINE=FILE...) [--backup-dir DIR] [--no-backup]",
    "         [--recovery-timeout SECONDS] [--reconnect-timeout SECONDS]",
    "  recover -f FILE [-s SERIAL]",
    "  backup -s SERIAL [-o DIR]" ]

end CommandLine

namespace Invocation

/-- Where an update takes its image from: one source must be given, and not both. -/
def imageSource (file? : Option String) (firmware : List (ProductLine × String)) :
    Except CommandError ImageSource :=
  match file?, firmware with
  | some file, [] => .ok (.file file)
  | none, _ :: _ => .ok (.catalog firmware)
  | some _, _ :: _ => .error ⟨"Choose either --file or --firmware, not both", []⟩
  | none, [] => .error ⟨"No firmware given: use --file or --firmware", []⟩

def run : Invocation → Attempt CommandError Unit
  | .list firmware => Command.list firmware
  | .update serial file? firmware backupDir noBackup recoverySeconds reconnectSeconds => do
    let source ← Attempt.decided (imageSource file? firmware)
    let config : UpdateConfig :=
      { backup := if noBackup then none else some { dir := backupDir }
        recoveryTimeout := Nanos.ofSeconds recoverySeconds
        reconnectTimeout := Nanos.ofSeconds reconnectSeconds }
    Command.update serial source config
  | .recover file serial? => Command.recover file serial?
  | .backup serial out => Command.backup serial out

end Invocation

end Reflash
