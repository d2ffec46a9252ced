import Reflash.Bench.Digest
import Reflash.Disk
import Reflash.Flash.Dump

/-!
# Reflash.Bench.Host — rehearsing a program

A bench stands in for the world of a program.  It answers every call from its own state, keeps a transcript of
the calls, and can ask the program to stop at any of them.  Its clock is virtual and moves only in `sleep` and
by the cost of a call; its files are a `Disk`.
-/

namespace Reflash

/-- How progress shows in the transcript. -/
inductive Bench.ProgressLines where
  | none
  | fraction
  /-- With the progress of the session that it stands for. -/
  | scaled (config : BackupConfig)

/-- The state of a bench whose devices are in `δ`. -/
structure Bench (δ : Type) where
  devices : δ
  now : Nanos := 0
  transcript : Array String := #[]
  /-- How many calls the transcript holds. -/
  calls : Nat := 0
  /-- The call in which someone asks the program to stop. -/
  stopAt : Option Nat := none
  stopped : Bool := false
  /-- The call in which the observer of the session leaves; that stops the program too. -/
  leaveAt : Option Nat := none
  left : Bool := false
  record : Session.Record := {}
  /-- Whether changes of the record show in the transcript. -/
  watched : Bool := false
  /-- The phase, progress and number of log lines that were shown last. -/
  shown : Option (String × Nat × Nat) := none
  showsSleep : Bool := true
  progressLines : Bench.ProgressLines := .none
  disk : Disk := {}
  /-- Seconds of local time since the start of 1970. -/
  localTime : Nat := 0
  printed : Array String := #[]
  /-- The threshold of the diagnostic log; `none` keeps no record of it. -/
  threshold : Option LogLevel := none
  diagnostics : Array String := #[]
  /-- Whether a progress bar takes the diagnostic records. -/
  bar : Bool := false

namespace Bench

variable {δ : Type}

/-- Shows the record if it is watched and has changed. -/
def showRecord (b : Bench δ) : Bench δ :=
  let now := (b.record.phase.text, b.record.progress, b.record.log.length)
  if b.watched && b.shown ≠ some now then
    { b with
      shown := some now
      transcript := b.transcript.push ("session progress=" ++ Text.decimal b.record.progress ++ " log="
        ++ Text.decimal b.record.log.length ++ " phase=" ++ b.record.phase.text) }
  else b

/-- Notes a call, and does what is planned for it. -/
def note (b : Bench δ) (line : String) : Bench δ :=
  let b := b.showRecord
  let n := b.calls + 1
  let leaves := b.leaveAt = some n
  { b with
    transcript := b.transcript.push line
    calls := n
    stopped := b.stopped || b.stopAt = some n || leaves
    left := b.left || leaves
    watched := b.watched && !leaves }

def pass (b : Bench δ) (cost : Nanos) : Bench δ := { b with now := b.now + cost }

def noteProgress (b : Bench δ) (x : Single) : Bench δ :=
  match b.progressLines with
  | .none => b
  | .fraction => b.note ("progress " ++ Text.hex 8 x.bits.toNat)
  | .scaled config => b.note ("progress " ++ Text.hex 8 x.bits.toNat ++ " " ++
      Text.decimal (config.scaleProgress x))

/-- Keeps a diagnostic record if it is to be shown. -/
def keep (b : Bench δ) (r : LogRecord) : Bench δ :=
  match b.threshold with
  | some threshold =>
    if r.isShown threshold && !b.bar then { b with diagnostics := b.diagnostics.push r.line } else b
  | none => b

/-- The disk after an operation, with its result. -/
def onDisk {α : Type} (b : Bench δ) (x : Disk × α) : Option α × Bench δ := (some x.2, { b with disk := x.1 })

def answerHost : (c : HostCall) → Bench δ → Option c.Answer × Bench δ
  | .now, b => (some b.now, b)
  | .sleep d, b => (some (), (if b.showsSleep then b.note ("sleep " ++ Text.decimal d) else b).pass d)
  | .stopRequested, b => (some b.stopped, b)
  | .log r, b => (some (), b.keep r)
  | .write w, b => (some (), { b with record := b.record.apply w })
  | .progress x, b => (some (), b.noteProgress x)
  | .localTime, b => (some b.localTime, b)
  | .createDirs path, b => b.onDisk (b.disk.createDirs path)
  | .writeFile path data, b => b.onDisk (b.disk.write path data)
  | .rename source target, b => b.onDisk (b.disk.rename source target)
  | .readFile path, b => (some (b.disk.read path), b)
  | .print line, b => (some (), { b with printed := b.printed.push line })
  | .bar shown, b => (some (), { b with bar := shown })
  | .aboveBar _, b => (some (), b)

/-! ### Files before and after -/

/-- A disk with the given files and the directories above them. -/
def diskWith (files : List (String × Bytes)) : Disk :=
  files.foldl (fun disk (path, data) => ((disk.createDirs ((Disk.parents path).headD "")).1.write path data).1) {}

/-- The files that were not given, by path, with the digest of what they hold; times in names are masked. -/
def newFiles (b : Bench δ) (given : List String) : List (String × String) :=
  let places := given.map fun path => (Disk.names path).filter fun name => name ≠ "" ∧ name ≠ "."
  let made := b.disk.files.filter fun (place, _) => place ∉ places
  (made.map fun (place, data) => (maskStamps (String.intercalate "/" place), digest data)).mergeSort
    fun a b => decide (a.1 ≤ b.1)

end Bench

end Reflash
