import Reflash.Dfu.Download
import Reflash.Firmware.Catalog
import Reflash.Flash.Backup
import Reflash.Reacquire

/-!
# Reflash.Session.Update — one update attempt from start to end

`start` checks the image against the camera and gives the session to run.  A camera in normal mode is backed up,
restarted in recovery mode, found again, flashed, and found once more in normal mode; a camera that is already in
recovery mode is flashed at once.  Every step writes the record of the session.  A request to stop is heeded before
each step that changes anything.  Whatever fails ends the session in `Phase.failed` with its reason.
-/

namespace Reflash

/-- How an update runs. -/
structure UpdateConfig where
  transfer : TransferConfig := {}
  /-- `none` leaves the backup out. -/
  backup : Option BackupConfig := some {}
  recoveryTimeout : Nanos := Nanos.ofSeconds 60
  reconnectTimeout : Nanos := Nanos.ofSeconds 60
  scanInterval : Nanos := defaultScanInterval
  deriving DecidableEq

/-- Why an update failed. -/
inductive UpdateError where
  | image (e : ImageError)
  | backup (e : BackupError)
  | transfer (e : TransferError)
  | link (e : LinkError)
  | spawn (text : String)
  | noIdentity
  | recoveryIdentityUnsupported (line : ProductLine)
  | recoveryTimeout
  | reconnectTimeout
  | stopped
  deriving DecidableEq

namespace UpdateError

def message : UpdateError → String
  | .image e => "invalid firmware image: " ++ e.message
  | .backup e => "flash backup failed: " ++ e.message
  | .transfer e => "firmware transfer failed: " ++ e.message
  | .link e => "device communication failed: " ++ e.message
  | .spawn text => "failed to start update task: " ++ text
  | .noIdentity => "device has no serial number; cannot follow it through recovery"
  | .recoveryIdentityUnsupported line =>
    line.name ++ " devices do not report a serial number in recovery mode; switch the device to recovery mode and "
      ++ "flash it directly"
  | .recoveryTimeout => "recovery device did not connect in time; reconnect the device and retry"
  | .reconnectTimeout => "original device did not reconnect in time; unplug and reconnect the device"
  | .stopped => "cancelled"

/-- Whether the update failed because someone asked it to stop. -/
def isStopped : UpdateError → Bool
  | .stopped | .backup .stopped | .transfer .stopped => true
  | _ => false

/-- A search that was stopped stops the session; one that ran out of time fails it with `late`. -/
def ofSearch (late : UpdateError) : SearchError → UpdateError
  | .timedOut _ _ => late
  | .stopped => .stopped

/-- The reason that goes into the record. -/
def reason (e : UpdateError) : String := if e.isStopped then "cancelled" else e.message

end UpdateError

namespace Session

/-- The last line in the log of every session that failed. -/
def reassurance : String := "device update process is safe; reconnect the device to retry"

/-- The progress once the camera is there in recovery mode. -/
def progressRecoveryFound : Nat := 50

/-- The progress once the image is programmed. -/
def progressTransferred : Nat := 90

def note (line : String) : Action Unit := do
  tell (.log { level := .info, text := line, echo := true })
  tell (.write (.log line))

def enterPhase (phase : Phase) : Action Unit := do
  tell (.log { level := .info, text := "phase: " ++ phase.text, echo := true })
  tell (.write (.phase phase))

def setProgress (n : Nat) : Action Unit := tell (.write (.progress n))

def ensureLive : Attempt UpdateError Unit := do
  if ← (tell .stopRequested : Action Bool) then
    throw .stopped

/-- The progress while the fraction `x` of the image is sent. -/
def transferProgress (x : Single) : Nat :=
  progressRecoveryFound + Single.portion (progressTransferred - progressRecoveryFound) x

/-- Reads the flash and keeps it in a file. -/
def backUp (camera : Camera) (config : BackupConfig) (identity : String) : Attempt UpdateError Unit := do
  enterPhase .backingUp
  setProgress config.progressStart.toNat
  note "backing up camera flash memory"
  let flash ← Attempt.of .backup
    (Flash.read camera config (fun x => setProgress (config.scaleProgress x)) true)
  let path ← Attempt.of .backup (Flash.persist config.dir identity flash).run
  note ("backup completed and saved as " ++ path ++ " (CRC32 0x" ++ Text.hex 8 (crc32 flash).toNat ++ ")")
  setProgress config.progressEnd.toNat

/-- Backs the camera up if it can be; one without a hardware monitor is not. -/
def secure (config : UpdateConfig) (camera : Camera) (identity : String) : Attempt UpdateError Unit := do
  match config.backup with
  | none => return ()
  | some backup =>
    if ← (ask (.openMonitor camera) : Action Bool) then
      backUp camera backup identity
    else
      note "device does not support flash backup, skipping"

/-- Learns the identity of a camera in normal mode. -/
def identify (camera : Camera) : Attempt UpdateError String := do
  ensureLive
  match ← Attempt.of .link (identityOf camera) with
  | none => throw .noIdentity
  | some identity =>
    note ("updating " ++ camera.name ++ " (" ++ identity ++ ")")
    return identity

def switchMode (camera : Camera) : Attempt UpdateError Unit := do
  ensureLive
  enterPhase .enteringRecovery
  Attempt.of .link (ask (.enterRecovery camera))
  note "device switching to recovery mode"

/-- The search for the unit in a mode. -/
def searchFor (config : UpdateConfig) (identity : String) (wanted : Wanted) : Search where
  identity := identity
  wanted := wanted
  timeout := match wanted with
    | .recovery => config.recoveryTimeout
    | .normal => config.reconnectTimeout
  interval := config.scanInterval
  heedsStop := true

/-- Finds the unit again in recovery mode. -/
def findRecovery (config : UpdateConfig) (identity : String) : Attempt UpdateError Camera := do
  ensureLive
  enterPhase .waitingForRecovery
  let recovery ← Attempt.of (.ofSearch .recoveryTimeout) (searchFor config identity .recovery).run
  note ("recovery device connected: " ++ recovery.name)
  setProgress progressRecoveryFound
  return recovery

/-- Opens the channel over which a camera in recovery mode is flashed. -/
def openChannel (camera : Camera) : Attempt UpdateError ControlChannel := do
  ensureLive
  enterPhase .transferring
  note "sending firmware image"
  Attempt.of .link (ask (.openControl camera))

/-- How the session hears of the progress of a download. -/
def heedTransfer (x : Single) : Action Unit := setProgress (transferProgress x)

/-- Flashes a camera in recovery mode. -/
def flash (config : UpdateConfig) (image : FirmwareImage) (camera : Camera) : Attempt UpdateError Unit := do
  let channel ← openChannel camera
  discard <| Attempt.of .transfer (Dfu.prepare channel config.transfer).run
  Attempt.of .transfer (Dfu.transfer channel config.transfer true image.data heedTransfer).run
  note "firmware download completed successfully"
  setProgress progressTransferred

/-- Waits until the unit is back in normal mode. -/
def awaitReconnect (config : UpdateConfig) (identity : String) : Attempt UpdateError Unit := do
  ensureLive
  enterPhase .waitingForReconnect
  note "waiting for the device to reconnect"
  let camera ← Attempt.of (.ofSearch .reconnectTimeout) (searchFor config identity .normal).run
  match ← (ask (.firmware camera) : Action (Except LinkError (Option String))) with
  | .ok (some version) => note (camera.name ++ " reconnected with firmware " ++ version)
  | _ => note (camera.name ++ " reconnected")
  setProgress 100

/-- Waits until a unit is back in normal mode, if there is an identity by which to know it. -/
def awaitReturn (config : UpdateConfig) : (identity? : Option String) → Attempt UpdateError Unit
  | some identity => awaitReconnect config identity
  | none => note "device serial unavailable in recovery mode, skipping reconnect check"

/-- The whole way of a camera in normal mode. -/
def runFull (config : UpdateConfig) (image : FirmwareImage) (camera : Camera) : Attempt UpdateError Unit := do
  let identity ← identify camera
  secure config camera identity
  switchMode camera
  let recovery ← findRecovery config identity
  flash config image recovery
  awaitReconnect config identity

/-- The identity of a camera in recovery mode, as far as it can be read. -/
def recoveryIdentity (camera : Camera) : Action (Option String) := do
  match ← identityOf camera with
  | .ok identity => return identity
  | .error e =>
    report .warn ("failed to read recovery device serial: " ++ e.message)
    return none

/-- Takes up a camera that is already in recovery mode. -/
def recognise (camera : Camera) : Action (Option String) := do
  note (camera.name ++ " is already in recovery mode")
  let identity? ← recoveryIdentity camera
  setProgress progressRecoveryFound
  return identity?

/-- The short way of a camera that is already in recovery mode. -/
def runFromRecovery (config : UpdateConfig) (image : FirmwareImage) (camera : Camera) :
    Attempt UpdateError Unit := do
  let identity? ← (recognise camera : Action (Option String))
  flash config image camera
  awaitReturn config identity?

/-- The update itself, on the way that the mode of the camera asks for. -/
def attempt (config : UpdateConfig) (image : FirmwareImage) (camera : Camera) : Attempt UpdateError Unit :=
  if camera.kind.isRecovery then runFromRecovery config image camera else runFull config image camera

/-- Writes the end of the session into its record. -/
def conclude : Except UpdateError Unit → Action Unit
  | .ok () => do
    note "firmware update done"
    tell (.write .finishDone)
  | .error e => do
    report .error ("firmware update failed: " ++ e.reason)
    tell (.write (.log ("firmware update failed: " ++ e.reason)))
    tell (.write (.log reassurance))
    tell (.write (.finishFailed e.reason))

def noteImage (image : FirmwareImage) : Action Unit := do
  note ("firmware image: " ++ Text.decimal image.size ++ " bytes for " ++ image.line.name ++ ", CRC32 0x"
    ++ Text.hex 8 image.checksum.toNat)
  match image.version? with
  | some version => note ("image firmware version " ++ version.text)
  | none => return ()

def run (config : UpdateConfig) (image : FirmwareImage) (camera : Camera) : Action Unit := do
  noteImage image
  conclude (← (attempt config image camera).run)

/-- The session that flashes `image` to `camera`, unless the image is refused or the camera could not be followed
through the change of mode. -/
def start (config : UpdateConfig) (camera : Camera) (image : FirmwareImage) : Except UpdateError (Action Unit) :=
  match image.validate camera.kind with
  | .error e => .error (.image e)
  | .ok () =>
    if !camera.kind.isRecovery && !camera.kind.line.reportsIdentityInRecovery then
      .error (.recoveryIdentityUnsupported camera.kind.line)
    else .ok (run config image camera)

/-- The session that flashes the catalog's image for the camera's line. -/
def startDefault (config : UpdateConfig) (catalog : Catalog) (camera : Camera) :
    Except UpdateError (Action Unit) :=
  match catalog.image camera.kind.line with
  | .error e => .error (.image e)
  | .ok image => start config camera image

/-! ### The record of a session -/

/-- Runs a program and gives, besides its result, the record after its writes. -/
def recorded {α : Type} : Action α → Record → Action (α × Record)
  | .done a, r => .done (a, r)
  | .stalled, _ => .stalled
  | .call (.inr (.write w)) next, r => .call (.inr (.write w)) fun u => recorded (next u) (r.apply w)
  | .call c next, r => .call c fun answer => recorded (next answer) r

/-- What one who waits for the session is told, when the session ended so with this record. -/
def outcome (ending : Ending Unit) (r : Record) : Outcome :=
  let r := match ending with
    | .panicked => r.apply (.finishFailed "update task panicked")
    | _ => r
  r.outcome?.getD (.failed "update task ended without a result")

end Session

end Reflash
