import Reflash.Camera
import Reflash.Monitor

/-!
# Reflash.Flash.Dump — reading the whole flash of a camera

The flash is read over the hardware monitor in chunks, in order of offset.  A chunk is asked for again after
a failure or a reply of the wrong length, up to a number of attempts; when they are used up the dump fails,
and nothing of it is kept.
-/

namespace Reflash

/-- How the flash is read and where a backup of it goes. -/
structure BackupConfig where
  flashSize : UInt32 := Monitor.flashSize
  /-- Bytes to a chunk; zero counts as one. -/
  chunkSize : UInt32 := Monitor.maxFlashRead
  /-- Attempts at a chunk; zero counts as one. -/
  maxAttempts : UInt32 := 3
  requestTimeout : Nanos := Nanos.ofMillis 1000
  /-- The progress of the session when the backup begins. -/
  progressStart : UInt8 := 5
  /-- The progress of the session when the backup is done. -/
  progressEnd : UInt8 := 45
  /-- The directory that receives the backup. -/
  dir : String := "backups"
  deriving DecidableEq

/-- Why there is no backup. -/
inductive BackupError where
  | chunkFailed (offset attempts : UInt32) (cause : LinkError)
  | stopped
  | file (path : String) (cause : FileError)
  deriving DecidableEq

def BackupError.message : BackupError → String
  | .chunkFailed offset attempts cause =>
    "flash read at offset 0x" ++ Text.hex 1 offset.toNat ++ " failed after " ++ Text.decimal attempts.toNat
      ++ " attempts: " ++ cause.message
  | .stopped => "backup cancelled"
  | .file path cause => "failed to write backup " ++ path ++ ": " ++ cause.message

namespace BackupConfig

/-- The length of every chunk but the last. -/
def stride (config : BackupConfig) : Nat := max config.chunkSize.toNat 1

def count (config : BackupConfig) : Nat := (config.flashSize.toNat + config.stride - 1) / config.stride

/-- How often a chunk is asked for. -/
def attempts (config : BackupConfig) : UInt32 := max config.maxAttempts 1

/-- The progress of the session when the fraction `x` of the backup is done. -/
def scaleProgress (config : BackupConfig) (x : Single) : Nat :=
  config.progressStart.toNat + Single.portion (config.progressEnd.toNat - config.progressStart.toNat) x

end BackupConfig

namespace Flash

/-- Accepts a reply of `size` bytes. -/
def checkLength (size : UInt32) : Except LinkError Bytes → Except LinkError Bytes
  | .ok data =>
    if data.length = size.toNat then .ok data
    else .error (.failed ("short flash read: " ++ Text.decimal data.length ++ " of " ++ Text.decimal size.toNat
      ++ " bytes"))
  | .error e => .error e

/-- Asks for one chunk until a reply is accepted; `left` attempts remain and `last` is the failure before. -/
def readChunk (camera : Camera) (config : BackupConfig) (offset size : UInt32) :
    (left : Nat) → (last : LinkError) → Action (Except LinkError Bytes)
  | 0, last => return .error last
  | left + 1, _ => do
    let reply ← ask (.exchange camera (Monitor.flashRead offset size) config.requestTimeout)
    match checkLength size reply with
    | .ok data => return .ok data
    | .error e =>
      report .warn ("flash read at 0x" ++ Text.hex 1 offset.toNat ++ " failed (attempt "
        ++ Text.decimal (config.attempts.toNat - left) ++ "/" ++ Text.decimal config.attempts.toNat ++
          "): " ++ e.message)
      readChunk camera config offset size left e

/-- Reads the last `left` chunks; `done` holds the chunks before them, latest first. -/
def readChunks (camera : Camera) (config : BackupConfig) (progress : Single → Action Unit) (heedsStop : Bool) :
    (left : Nat) → (done : List Bytes) → Action (Except BackupError Bytes)
  | 0, done => return .ok done.reverse.flatten
  | left + 1, done => do
    if ← shouldStop heedsStop then
      return .error .stopped
    let i := config.count - (left + 1)
    progress (Single.quotient i config.count)
    let offset := i * config.stride
    let size := min config.stride (config.flashSize.toNat - offset)
    match ← readChunk camera config (UInt32.ofNat offset) (UInt32.ofNat size) config.attempts.toNat
        (.failed "no attempt made") with
    | .ok data => readChunks camera config progress heedsStop left (data :: done)
    | .error e => return .error (.chunkFailed (UInt32.ofNat offset) config.attempts e)

/-- Reads the whole flash.  `progress` hears the fraction that is done before each chunk, and one at the end. -/
def read (camera : Camera) (config : BackupConfig) (progress : Single → Action Unit) (heedsStop : Bool) :
    Action (Except BackupError Bytes) := do
  match ← readChunks camera config progress heedsStop config.count [] with
  | .ok flash =>
    progress .one
    report .debug ("read " ++ Text.decimal flash.length ++ " bytes of flash in " ++
      Text.decimal config.count ++ " chunks")
    return .ok flash
  | .error e => return .error e

end Flash

end Reflash
