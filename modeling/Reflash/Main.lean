import Reflash.CommandLine
import Reflash.Usb.Hub

/-!
# Reflash.Main — the program

Reads the arguments, runs the command and reports how it ended.  Every call of the command is carried out on the
machine: the clock, the files and the terminal are real.  There is no driver for a USB host, so every call on
the bus is answered by `UsbError.notSupported`.
-/

namespace Reflash

/-- What the program knows of its terminal. -/
structure Terminal where
  /-- The threshold of the diagnostic log. -/
  threshold : LogLevel
  /-- Whether there is someone to see a progress bar. -/
  interactive : Bool
  /-- Whether a progress bar takes the diagnostic records. -/
  bar : Bool := false

namespace Terminal

/-- Prints a line above the progress bar, where it shows. -/
def above (t : Terminal) (line : String) : IO Unit := do
  if t.interactive then IO.eprintln line

/-- Prints a diagnostic record. -/
def log (t : Terminal) (r : LogRecord) : IO Unit := do
  if r.isShown t.threshold then
    if t.bar then t.above r.line else IO.eprintln r.line

end Terminal

/-- Carries out an operation on files. -/
def onFiles {α : Type} (x : IO α) : IO (Except FileError α) := do
  try
    return .ok (← x)
  catch
    | .noFileOrDirectory .. => return .error .notFound
    | .alreadyExists .. => return .error .alreadyExists
    | e => return .error (.other e.toString)

/-- The number behind a label at the start of a line. -/
def labelled (label text : String) : Nat :=
  let lines := (Text.fields '\n' text.toList).map (Text.splitOnce ' ')
  let found := lines.findSome? fun line => line.bind fun (name, value) =>
    if String.ofList name = label then (Text.readUnsigned UInt64.size value).toOption else none
  found.getD 0

/-- Seconds since the start of 1970: when the machine started, and how long it has been up. -/
def wallClock : IO Nat := do
  let started := labelled "btime" (← IO.FS.readFile "/proc/stat")
  let up ← IO.FS.readFile "/proc/uptime"
  return started + (Text.readUnsigned UInt64.size (up.toList.takeWhile Char.isDigit)).toOption.getD 0

/-- Carries out a call on the host. -/
def onMachine (t : Terminal) : (c : HostCall) → IO (c.Answer × Terminal)
  | .now => return (← IO.monoNanosNow, t)
  | .sleep d => return (← IO.sleep (UInt32.ofNat (Nanos.toMillis d)), t)
  | .stopRequested => return (false, t)
  | .log r => return (← t.log r, t)
  | .write _ => return ((), t)
  | .progress _ => return ((), t)
  | .localTime => return (← wallClock, t)
  | .createDirs path => return (← onFiles (IO.FS.createDirAll path), t)
  | .writeFile path data => return (← onFiles (IO.FS.writeBinFile path ⟨data.toArray⟩), t)
  | .rename source target => return (← onFiles (IO.FS.rename source target), t)
  | .readFile path => return ((← onFiles (IO.FS.readBinFile path)).map ByteArray.toList, t)
  | .print line => return (← IO.println line, t)
  | .bar shown => return ((), { t with bar := shown })
  | .aboveBar line => return (← t.above line, t)

/-- The answer to a call on the bus, where there is none. -/
def withoutBus : (c : Usb.BusCall) → c.Answer
  | .list => .error .notSupported
  | .open _ => .error .notSupported
  | .string _ _ => .error .notSupported
  | .configuration _ => .error .notSupported
  | .autoDetach _ _ => .error .notSupported
  | .claim _ _ => .error .notSupported
  | .control _ _ _ => .error .notSupported
  | .bulkOut _ _ _ _ => .error .notSupported
  | .bulkIn _ _ _ _ => .error .notSupported
  | .close _ => ()

/-- Carries out a program; `none` if it waits for ever. -/
def carryOut {α : Type} : Usb.BusAction α → Terminal → IO (Option α)
  | .done a, _ => return some a
  | .stalled, _ => return none
  | .call (.inl c) next, t => carryOut (next (withoutBus c)) t
  | .call (.inr c) next, t => do
    let (answer, t) ← onMachine t c
    carryOut (next answer) t

/-- Runs the program on its arguments: 0 if all went well, 1 if the command failed, 2 if the
arguments are refused. -/
def runProgram (args : List String) : IO UInt32 := do
  match CommandLine.parse args with
  | .error e =>
    if e.isHelp then
      CommandLine.usage.forM IO.println
      return 0
    (("error: " ++ e.message) :: CommandLine.usage).forM IO.eprintln
    return 2
  | .ok line =>
    let threshold := if line.verbose then LogLevel.debug else .warn
    let terminal : Terminal := { threshold, interactive := ← (← IO.getStderr).isTty }
    match ← carryOut (Usb.Hub.onBus line.invocation.run.run {}) terminal with
    | some (.ok (), _) => return 0
    | some (.error e, _) =>
      e.report.forM IO.eprintln
      return 1
    | none => return 1

end Reflash

def main (args : List String) : IO UInt32 := Reflash.runProgram args
