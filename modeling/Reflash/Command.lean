import Reflash.Session.Follower
import Reflash.Session.Update

/-!
# Reflash.Command — what the commands do

`list` shows the connected cameras, `update` runs a whole session, `recover` flashes a camera that is already in
recovery mode, and `backup` only reads the flash.
-/

namespace Reflash

/-- Why a command failed, and the causes below that. -/
structure CommandError where
  message : String
  causes : List String := []
  deriving DecidableEq

namespace CommandError

/-- A failed session start; the failure it wraps is the cause. -/
def ofUpdate (e : UpdateError) : CommandError :=
  match e with
  | .image cause => ⟨e.message, [cause.message]⟩
  | e => ⟨e.message, []⟩

/-- A failed backup; the failure it wraps is the cause. -/
def ofBackup (e : BackupError) : CommandError :=
  match e with
  | .chunkFailed _ _ cause => ⟨e.message, [cause.message]⟩
  | .file _ cause => ⟨e.message, [cause.message]⟩
  | .stopped => ⟨e.message, []⟩

/-- What the program reports of a failure: the message, and the causes under it. -/
def report (e : CommandError) : List String :=
  ("Error: " ++ e.message) :: match e.causes with
    | [] => []
    | causes => "" :: "Caused by:" :: causes.map ("    " ++ ·)

end CommandError

/-- Where the image of an update comes from. -/
inductive ImageSource where
  | file (path : String)
  | catalog (entries : List (ProductLine × String))
  deriving DecidableEq

namespace Command

def print (line : String) : Action Unit := tell (.print line)

/-! ### Images -/

def loadImage (path : String) (line : ProductLine) : Attempt CommandError FirmwareImage := do
  let data ← Attempt.of (fun e : FileError => ⟨"Failed to read " ++ path, [e.message]⟩) (tell (.readFile path))
  return ⟨data, line⟩

/-- Reads the images one after another into a catalog; one without a version is put in as `0.0.0.0`. -/
def loadCatalog : List (ProductLine × String) → Catalog → Attempt CommandError Catalog
  | [], catalog => return catalog
  | (line, path) :: rest, catalog => do
    let image ← loadImage path line
    loadCatalog rest (catalog.insert (image.version?.getD .zero) image)

/-! ### Choosing a camera -/

def enumerate : Attempt CommandError (List Camera) :=
  Attempt.of (fun e : LinkError => ⟨"Failed to enumerate USB devices", [e.message]⟩) (ask .list)

/-- The first camera of a listing in the mode that is asked for, and with the serial number if one is given. -/
def choose (serial? : Option String) (mode : Mode) : List Camera → Action (Option Camera)
  | [] => return none
  | camera :: rest => do
    if camera.kind.mode ≠ mode then
      choose serial? mode rest
    else
      match serial? with
      | none => return some camera
      | some serial =>
        match ← identityOf camera with
        | .ok (some identity) => if identity = serial then return some camera else choose serial? mode rest
        | .ok none => choose serial? mode rest
        | .error e =>
          report .warn (camera.name ++ ": cannot read serial number: " ++ e.message)
          choose serial? mode rest

def notFound (serial? : Option String) (mode : Mode) : CommandError :=
  match serial? with
  | some serial => ⟨"No " ++ mode.name ++ " mode device with serial " ++ serial ++ " found", []⟩
  | none => ⟨"No " ++ mode.name ++ " mode device found", []⟩

def findCamera (serial? : Option String) (mode : Mode) : Attempt CommandError Camera := do
  let found ← enumerate
  match ← (choose serial? mode found : Action (Option Camera)) with
  | some camera => return camera
  | none => throw (notFound serial? mode)

/-! ### Listing -/

/-- The serial number as the listing shows it. -/
def shownSerial (camera : Camera) : Action String := do
  match ← identityOf camera with
  | .ok (some serial) => return serial
  | .ok none => return "unknown"
  | .error e =>
    report .warn (camera.name ++ ": cannot read serial number: " ++ e.message)
    return "unknown"

/-- The firmware version, as far as it can be read. -/
def readVersion (camera : Camera) : Action (Option String) := do
  match ← ask (.firmware camera) with
  | .ok version => return version
  | .error e =>
    report .warn (camera.name ++ ": cannot read firmware version: " ++ e.message)
    return none

/-- What the listing says about a camera for whose line the catalog has an entry. -/
def advice (catalog : Catalog) (line : ProductLine) : Option String → String
  | some current => if catalog.recommends line current then "upgrade recommended" else "up to date"
  | none => "current version unknown"

/-- The lines for one camera. -/
def block (catalog : Catalog) (camera : Camera) (serial : String) (version : Option String) : List String :=
  [ camera.name,
    "  Mode:     " ++ camera.kind.mode.name,
    "  Line:     " ++ camera.kind.line.name,
    "  Serial:   " ++ serial,
    "  Firmware: " ++ version.getD "unknown" ]
  ++ (match catalog.version? camera.kind.line with
      | some available =>
        ["  Catalog:  " ++ available.text ++ " (" ++ advice catalog camera.kind.line version ++ ")"]
      | none => [])
  ++ [""]

def printAll : List String → Action Unit
  | [] => return ()
  | line :: rest => do
    print line
    printAll rest

/-- Shows one camera after another. -/
def describe (catalog : Catalog) : List Camera → Action Unit
  | [] => return ()
  | camera :: rest => do
    let serial ← shownSerial camera
    let version ← readVersion camera
    printAll (block catalog camera serial version)
    describe catalog rest

def list (firmware : List (ProductLine × String)) : Attempt CommandError Unit := do
  let catalog ← loadCatalog firmware .empty
  let found ← enumerate
  if found.isEmpty then
    print "No devices found"
  else
    describe catalog found

/-! ### Updating -/

/-- Runs a session while a progress bar is shown, and fails as the session does. -/
def follow (session : Action Unit) : Attempt CommandError Unit := do
  (tell (.bar true) : Action Unit)
  let ((), record) ← (Session.recorded session .initial : Action (Unit × Session.Record))
  showLines (Session.Follower.look {} record).lines
  (tell (.bar false) : Action Unit)
  match Session.outcome (.finished ()) record with
  | .done => print "Firmware update complete!"
  | .failed reason => throw ⟨"Firmware update failed: " ++ reason, []⟩
where
  /-- Shows the lines above the progress bar. -/
  showLines : List String → Action Unit
    | [] => return ()
    | line :: rest => do
      tell (.aboveBar line)
      showLines rest

/-- The line that describes an image from a file. -/
def imageLine (path : String) (image : FirmwareImage) : String :=
  "Firmware: " ++ path ++ " (" ++ Text.decimal image.size ++ " bytes, CRC32: 0x" ++
    Text.hex 8 image.checksum.toNat ++ ")"

/-- The session of an update, with what is printed about its image. -/
def prepareUpdate (camera : Camera) (source : ImageSource) (config : UpdateConfig) :
    Attempt CommandError (Action Unit) := do
  match source with
  | .file path =>
    let image ← loadImage path camera.kind.line
    print (imageLine path image)
    Attempt.decided ((Session.start config camera image).mapError .ofUpdate)
  | .catalog entries =>
    let catalog ← loadCatalog entries .empty
    match catalog.version? camera.kind.line with
    | some version => print ("Firmware: catalog image " ++ version.text)
    | none => pure ()
    Attempt.decided ((Session.startDefault config catalog camera).mapError .ofUpdate)

def update (serial : String) (source : ImageSource) (config : UpdateConfig) : Attempt CommandError Unit := do
  let camera ← findCamera (some serial) .normal
  print ("Device:   " ++ camera.name ++ " (" ++ serial ++ ")")
  match config.backup with
  | some backup => print ("Backup:   " ++ backup.dir)
  | none => print "Backup:   disabled"
  let session ← prepareUpdate camera source config
  print ""
  follow session

def recover (path : String) (serial? : Option String) : Attempt CommandError Unit := do
  let camera ← findCamera serial? .recovery
  let image ← loadImage path camera.kind.line
  print ("Device:   " ++ camera.name)
  print (imageLine path image)
  print ""
  let session ← Attempt.decided ((Session.start {} camera image).mapError .ofUpdate)
  follow session

/-! ### Backing up -/

def backup (serial out : String) : Attempt CommandError Unit := do
  let camera ← findCamera (some serial) .normal
  unless ← (ask (.openMonitor camera) : Action Bool) do
    throw ⟨camera.name ++ " does not support flash backup", []⟩
  let config : BackupConfig := { dir := out }
  (tell (.bar true) : Action Unit)
  let result ← (Flash.read camera config (fun _ => return ()) false : Action (Except BackupError Bytes))
  (tell (.bar false) : Action Unit)
  match result with
  | .error e => throw ⟨"Backup failed: " ++ e.message, []⟩
  | .ok flash =>
    let path ← Attempt.of .ofBackup (Flash.persist out serial flash).run
    print ("Saved " ++ path ++ " (" ++ Text.decimal flash.length ++ " bytes, CRC32: 0x"
      ++ Text.hex 8 (crc32 flash).toNat ++ ")")

end Command

end Reflash
