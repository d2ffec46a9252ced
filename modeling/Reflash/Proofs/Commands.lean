import Reflash.CommandLine
import Reflash.Proofs.Flash.Backup
import Reflash.Proofs.Flash.Dump
import Reflash.Proofs.Reacquire
import Reflash.Proofs.Rules

/-!
# Reflash.Proofs.Commands — what the commands ask of cameras and host

A listing reads identities and versions (`only_list`), a backup reads the flash of the camera that it found
(`obeys_backup`), and what comes before a session finds a camera and reads files (`Invocation.only_prepare`).  A
command is its preparation, and then its session if it comes to one (`Invocation.run_eq`).
-/

namespace Reflash

open Program

namespace Command

variable {kinds : List CallKind} {serial? : Option String} {mode : Mode}

theorem only_loadImage (hfiles : .files ∈ kinds) (path : String) (line : ProductLine) :
    (loadImage path line).Only (ofKinds kinds) :=
  Attempt.only_bind (Attempt.only_of (only_tell.mpr hfiles)) fun _ => trivial

theorem only_loadCatalog (hfiles : .files ∈ kinds) (entries : List (ProductLine × String)) (catalog : Catalog) :
    (loadCatalog entries catalog).Only (ofKinds kinds) := by
  induction entries generalizing catalog with
  | nil => trivial
  | cons entry rest ih => exact Attempt.only_bind (only_loadImage hfiles _ _) fun _ => ih _

theorem only_enumerate (hlist : .list ∈ kinds) : enumerate.Only (ofKinds kinds) :=
  Attempt.only_of (only_ask.mpr hlist)

theorem only_choose (hidentity : .identity ∈ kinds) (hlog : .log ∈ kinds) (listing : List Camera) :
    (choose serial? mode listing).Only (ofKinds kinds) := by
  induction listing with
  | nil => trivial
  | cons camera rest ih =>
    unfold choose
    split
    · exact ih
    split
    · trivial
    refine only_bind (only_identityOf hidentity hidentity) fun identity => ?_
    split
    · split
      · trivial
      · exact ih
    · exact ih
    · exact only_bind (only_report.mpr hlog) fun _ => ih

theorem only_findCamera : (findCamera serial? mode).Only (ofKinds [.list, .identity, .log]) := by
  refine Attempt.only_bind (only_enumerate (by simp)) fun found => ?_
  refine Attempt.only_bind (Attempt.only_lift (only_choose (by simp) (by simp) _)) fun camera? => ?_
  split <;> trivial

theorem only_printAll (hterminal : .terminal ∈ kinds) (lines : List String) :
    (printAll lines).Only (ofKinds kinds) := by
  induction lines with
  | nil => trivial
  | cons line rest ih => exact only_bind (only_tell.mpr hterminal) fun _ => ih

/-- What the listing of cameras calls. -/
@[simp] def listKinds : List CallKind := [.files, .list, .identity, .firmware, .log, .terminal]

theorem only_describe (catalog : Catalog) (listing : List Camera) :
    (describe catalog listing).Only (ofKinds listKinds) := by
  induction listing with
  | nil => trivial
  | cons camera rest ih =>
    refine only_bind (only_bind (only_identityOf (by simp) (by simp)) fun identity => ?_) fun _ => ?_
    · split
      · trivial
      · trivial
      · exact only_bind (only_report.mpr (by simp)) fun _ => trivial
    refine only_bind (only_bind (only_ask.mpr (by simp)) fun version => ?_) fun _ => ?_
    · split
      · trivial
      · exact only_bind (only_report.mpr (by simp)) fun _ => trivial
    exact only_bind (only_printAll (by simp) _) fun _ => ih

theorem only_list (firmware : List (ProductLine × String)) : (list firmware).Only (ofKinds listKinds) := by
  refine Attempt.only_bind (only_loadCatalog (by simp) _ _) fun catalog => ?_
  refine Attempt.only_bind (only_enumerate (by simp)) fun found => ?_
  split
  · exact Attempt.only_lift (only_tell.mpr (by simp))
  · exact Attempt.only_lift (only_describe _ _)

/-- What comes before a session. -/
@[simp] def prepareKinds : List CallKind := [.files, .list, .identity, .log, .terminal]

theorem only_prepareUpdate (camera : Camera) (source : ImageSource) (config : UpdateConfig) :
    (prepareUpdate camera source config).Only (ofKinds [.files, .terminal]) := by
  cases source with
  | file path =>
    refine Attempt.only_bind (only_loadImage (by simp) _ _) fun image => ?_
    exact Attempt.only_bind (Attempt.only_lift (only_tell.mpr (by simp))) fun _ => trivial
  | catalog entries =>
    refine Attempt.only_bind (only_loadCatalog (by simp) _ _) fun catalog => ?_
    split
    · exact Attempt.only_bind (Attempt.only_lift (only_tell.mpr (by simp))) fun _ => trivial
    · exact Attempt.only_decided _

/-- All of an update before its session. -/
def readyUpdate (serial : String) (source : ImageSource) (config : UpdateConfig) :
    Attempt CommandError (Action Unit) := do
  let camera ← findCamera (some serial) .normal
  print ("Device:   " ++ camera.name ++ " (" ++ serial ++ ")")
  match config.backup with
  | some backup => print ("Backup:   " ++ backup.dir)
  | none => print "Backup:   disabled"
  let session ← prepareUpdate camera source config
  print ""
  return session

theorem update_eq (serial : String) (source : ImageSource) (config : UpdateConfig) :
    update serial source config = readyUpdate serial source config >>= follow := by
  cases hbackup : config.backup <;> simp [update, readyUpdate, hbackup]

/-- All of the flashing of a camera in recovery mode before its session. -/
def readyRecover (path : String) (serial? : Option String) : Attempt CommandError (Action Unit) := do
  let camera ← findCamera serial? .recovery
  let image ← loadImage path camera.kind.line
  print ("Device:   " ++ camera.name)
  print (imageLine path image)
  print ""
  Attempt.decided ((Session.start {} camera image).mapError .ofUpdate)

theorem recover_eq (path : String) (serial? : Option String) :
    recover path serial? = readyRecover path serial? >>= follow := by
  simp [recover, readyRecover]

theorem only_readyUpdate (serial : String) (source : ImageSource) (config : UpdateConfig) :
    (readyUpdate serial source config).Only (ofKinds prepareKinds) := by
  have hprint : ∀ line, (liftM (print line) : Attempt CommandError Unit).Only (ofKinds prepareKinds) :=
    fun line => Attempt.only_lift (only_tell.mpr (by simp))
  have hsession : ∀ camera, (do let session ← prepareUpdate camera source config; print ""; return session :
      Attempt CommandError (Action Unit)).Only (ofKinds prepareKinds) := fun camera =>
    Attempt.only_bind ((only_prepareUpdate camera source config).mono (ofKinds.mono (by simp))) fun session =>
      Attempt.only_bind (hprint _) fun _ => trivial
  refine Attempt.only_bind (only_findCamera.mono (ofKinds.mono (by simp))) fun camera => ?_
  refine Attempt.only_bind (hprint _) fun _ => ?_
  split
  · exact Attempt.only_bind (hprint _) fun _ => hsession camera
  · exact Attempt.only_bind (hprint _) fun _ => hsession camera

theorem only_readyRecover (path : String) (serial? : Option String) :
    (readyRecover path serial?).Only (ofKinds prepareKinds) := by
  have hprint : ∀ line, (liftM (print line) : Attempt CommandError Unit).Only (ofKinds prepareKinds) :=
    fun line => Attempt.only_lift (only_tell.mpr (by simp))
  refine Attempt.only_bind (only_findCamera.mono (ofKinds.mono (by simp))) fun camera => ?_
  refine Attempt.only_bind (only_loadImage (by simp) _ _) fun image => ?_
  exact Attempt.only_bind (hprint _) fun _ => Attempt.only_bind (hprint _) fun _ =>
    Attempt.only_bind (hprint _) fun _ => trivial

/-! ### Backups -/

/-- How far a backup is. -/
inductive Backing where
  /-- It looks for a camera among those that were listed; some are known to have the serial number. -/
  | choosing (listed named : List Camera)
  /-- It reads the flash of the one it found. -/
  | reading (camera : Camera)

/-- How far a backup of the camera with a serial number is after one more call. -/
def Backing.step (serial : String) : Backing → Event (cameras.sum host) → Backing
  | .choosing listed named, ⟨.inl .list, some (.ok found)⟩ => .choosing (listed ++ found) named
  | .choosing listed named, ⟨.inl (.serial c), some (.ok (some text))⟩ =>
    .choosing listed (if text = serial then c :: named else named)
  | .choosing listed named, ⟨.inl (.sensors c), some (.ok serials)⟩ =>
    .choosing listed (if serials.head? = some serial then c :: named else named)
  | .choosing _ _, ⟨.inl (.openMonitor c), some true⟩ => .reading c
  | b, _ => b

/-- What a backup may ask of cameras: the listing, the identities of the cameras in normal mode, and then the
flash of one that has the serial number. -/
def Backing.allows : Backing → (cameras.sum host).Call → Prop
  | .choosing _ _, .inl .list => True
  | .choosing listed _, .inl (.serial c) => c ∈ listed ∧ c.kind.mode = .normal
  | .choosing _ _, .inl (.sensors _) => True
  | .choosing _ named, .inl (.openMonitor c) => c ∈ named
  | .reading camera, .inl (.exchange c request _) =>
    c = camera ∧ ∃ offset size, request = Monitor.flashRead offset size
  | _, .inl _ => False
  | _, .inr _ => True

def backupRule (serial : String) : Rule (cameras.sum host) Backing := ⟨Backing.step serial, Backing.allows⟩

section Backup

variable {serial : String} {listed named : List Camera} {camera : Camera}

theorem obeys_sensorIdentity : (sensorIdentity camera).Obeys (backupRule serial)
    (fun r b => ∃ named', b = .choosing listed named' ∧ (r = .ok (some serial) → camera ∈ named'))
    (.choosing listed named) := by
  refine ⟨trivial, fun answer => ?_⟩
  rcases answer with e | serials
  · exact ⟨named, rfl, nofun⟩
  · refine ⟨_, rfl, fun hr => ?_⟩
    have hhead : serials.head? = some serial := (Option.filter_eq_some_iff.mp (Except.ok.inj hr)).1
    simp [hhead]

/-- A camera whose identity is the serial number has said so. -/
theorem obeys_identityOf (hlisted : camera ∈ listed) (hnormal : camera.kind.mode = .normal) :
    (identityOf camera).Obeys (backupRule serial)
      (fun r b => ∃ named', b = .choosing listed named' ∧ (r = .ok (some serial) → camera ∈ named'))
      (.choosing listed named) := by
  refine ⟨⟨hlisted, hnormal⟩, fun answer => ?_⟩
  rcases answer with e | _ | text
  · cases e with
    | unsupported what => exact obeys_sensorIdentity
    | _ => exact ⟨named, rfl, nofun⟩
  · exact obeys_sensorIdentity
  · show (if text ≠ "" then pure (.ok (some text)) else sensorIdentity camera : Action _).Obeys
        (backupRule serial) _ (.choosing listed (if text = serial then camera :: named else named))
    split
    · refine ⟨_, rfl, fun hr => ?_⟩
      obtain rfl : text = serial := by simpa using hr
      simp
    · exact obeys_sensorIdentity

theorem obeys_choose {listing : List Camera} (hlisting : listing ⊆ listed) :
    (choose (some serial) .normal listing).Obeys (backupRule serial)
      (fun r b => ∃ named', b = .choosing listed named' ∧ ∀ camera, r = some camera → camera ∈ named')
      (.choosing listed named) := by
  induction listing generalizing named with
  | nil => exact ⟨named, rfl, nofun⟩
  | cons camera rest ih =>
    have ih : ∀ named', (choose (some serial) .normal rest).Obeys (backupRule serial)
        _ (.choosing listed named') :=
      fun named' => ih (List.subset_of_cons_subset hlisting)
    unfold choose
    split
    · exact ih named
    rename_i hmode
    refine obeys_bind (obeys_identityOf (hlisting List.mem_cons_self) (Decidable.not_not.mp hmode))
      fun identity b hnamed => ?_
    obtain ⟨named', rfl, hnamed⟩ := hnamed
    split
    · split
      · rename_i heq
        subst heq
        exact ⟨named', rfl, fun c hc => Option.some.inj hc ▸ hnamed rfl⟩
      · exact ih named'
    · exact ih named'
    · have hreport : ∀ text, (report .warn text).Obeys (backupRule serial) (fun _ b => b = .choosing listed named')
          (.choosing listed named') := fun text => obeys_tell.mpr ⟨trivial, fun _ => rfl⟩
      exact obeys_bind (hreport _) fun _ b hb => hb ▸ ih named'

theorem obeys_findCamera : (findCamera (some serial) .normal).Obeys (backupRule serial) (fun _ => True)
    (fun camera b => ∃ listed named, b = .choosing listed named ∧ camera ∈ named) (.choosing [] []) := by
  have henumerate : enumerate.Obeys (backupRule serial) (fun _ => True) (fun found b => b = .choosing found [])
      (.choosing [] []) := by
    refine Attempt.obeys_of ⟨trivial, fun answer => ?_⟩
    cases answer with
    | error e => trivial
    | ok found => rfl
  refine Attempt.obeys_bind henumerate fun found b hb => ?_
  subst hb
  refine Attempt.obeys_bind (Attempt.obeys_lift (obeys_choose (List.Subset.refl found))) fun camera? b hb => ?_
  obtain ⟨named, rfl, hnamed⟩ := hb
  cases camera? with
  | none => exact Attempt.obeys_throw trivial
  | some camera => exact Attempt.obeys_pure ⟨found, named, rfl, hnamed camera rfl⟩

theorem keeps_reading_tell (c : HostCall) : (backupRule serial).Keeps (· = .reading camera) (.inr c) := by
  rintro _ rfl
  exact ⟨trivial, fun _ => rfl⟩

theorem keeps_reading_flashRead (offset size : UInt32) (timeout : Nanos) :
    (backupRule serial).Keeps (· = .reading camera)
      (.inl (.exchange camera (Monitor.flashRead offset size) timeout)) := by
  rintro _ rfl
  exact ⟨⟨rfl, offset, size, rfl⟩, fun _ => rfl⟩

/-- A backup reads the flash of the camera that it found, and asks nothing else of cameras. -/
theorem obeys_backup (out : String) :
    (backup serial out).Obeys (backupRule serial) (fun _ => True) (fun _ _ => True) (.choosing [] []) := by
  refine Attempt.obeys_bind obeys_findCamera fun camera b hb => ?_
  obtain ⟨listed, named, rfl, hnamed⟩ := hb
  have hopen : (liftM (ask (.openMonitor camera)) : Attempt CommandError Bool).Obeys
      (backupRule serial) (fun _ => True)
      (fun offered b => offered = true → b = .reading camera) (.choosing listed named) := by
    refine Attempt.obeys_lift (obeys_ask.mpr ⟨hnamed, fun offered => ?_⟩)
    rintro rfl
    rfl
  refine Attempt.obeys_bind hopen fun offered b hb => ?_
  split
  rotate_left
  · exact Attempt.obeys_throw trivial
  obtain rfl := hb ‹_›
  -- From here on all calls keep the state.
  have htell : ∀ c : HostCall, (liftM (tell c) : Attempt CommandError c.Answer).Only
      ((backupRule serial).Keeps (· = .reading camera)) :=
        fun c => Attempt.only_lift (only_tell.mpr (keeps_reading_tell c))
  have hread : ∀ config : BackupConfig, (Flash.read camera config (fun _ => return ()) false).Only
      ((backupRule serial).Keeps (· = .reading camera)) := by
    refine fun config => Flash.only_read_of (fun _ _ => ?_) (keeps_reading_tell _)
      (fun _ => keeps_reading_tell _) ?_ false
    · exact keeps_reading_flashRead _ _ _
    · exact fun _ => trivial
  have hpersist : ∀ flash,
      (Flash.persist out serial flash).Only ((backupRule serial).Keeps (· = .reading camera)) :=
    fun flash => Flash.only_persist.mono fun c hc => by
      rcases c with c | c
      · cases c <;> simp at hc
      · exact keeps_reading_tell c
  refine Attempt.Obeys.mono (Attempt.obeys_of_only (Q := (· = .reading camera)) ?_ (fun _ _ => trivial) rfl)
    fun _ _ _ => trivial
  refine Attempt.only_bind (htell _) fun _ => Attempt.only_bind (Attempt.only_lift (hread _)) fun result => ?_
  refine Attempt.only_bind (htell _) fun _ => ?_
  split
  · exact Attempt.only_throw _
  · exact Attempt.only_bind (Attempt.only_of (hpersist _)) fun path => htell _

end Backup

end Command

/-! ## Up to the session -/

namespace Invocation

/-- All of a command before its session, if it comes to one. -/
def prepare : Invocation → Attempt CommandError (Option (Action Unit))
  | .list firmware => do
    Command.list firmware
    return none
  | .update serial file? firmware backupDir noBackup recoverySeconds reconnectSeconds => do
    let source ← Attempt.decided (imageSource file? firmware)
    let config : UpdateConfig :=
      { backup := if noBackup then none else some { dir := backupDir }
        recoveryTimeout := Nanos.ofSeconds recoverySeconds
        reconnectTimeout := Nanos.ofSeconds reconnectSeconds }
    return some (← Command.readyUpdate serial source config)
  | .recover file serial? => return some (← Command.readyRecover file serial?)
  | .backup serial out => do
    Command.backup serial out
    return none

/-- The session, where there is one. -/
def proceed : Option (Action Unit) → Attempt CommandError Unit
  | some session => Command.follow session
  | none => return ()

theorem run_eq (i : Invocation) : i.run = i.prepare >>= proceed := by
  cases i with
  | update serial file? firmware backupDir noBackup recoverySeconds reconnectSeconds =>
    simp [run, prepare, Command.update_eq, proceed]
  | recover file serial? => simp [run, prepare, Command.recover_eq, proceed]
  | _ => simp [run, prepare, proceed]

/-- Whether a command is one that may start a session. -/
def updates : Invocation → Bool
  | .update .. | .recover .. => true
  | .list _ | .backup .. => false

theorem only_prepare {i : Invocation} (hi : i.updates = true) : i.prepare.Only (ofKinds Command.prepareKinds) := by
  cases i with
  | update serial file? firmware backupDir noBackup recoverySeconds reconnectSeconds =>
    exact Attempt.only_bind (Attempt.only_decided _) fun source =>
      Attempt.only_bind (Command.only_readyUpdate _ _ _) fun _ => trivial
  | recover file serial? => exact Attempt.only_bind (Command.only_readyRecover _ _) fun _ => trivial
  | list firmware => cases hi
  | backup serial out => cases hi

end Invocation

end Reflash
