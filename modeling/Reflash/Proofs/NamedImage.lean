import Reflash.Proofs.Deadline
import Reflash.Proofs.FirmwareArguments
import Reflash.Proofs.Listing
import Reflash.Proofs.Session.Observers
import Reflash.Proofs.Session.Sent

/-!
# Reflash.Proofs.NamedImage — an update flashes the image that its arguments name

An update reads its files one after the other into a catalog.  Of the files for one line the last one stays
there (`entry?_of_last`), and the catalog has one entry for the version that is printed and for the image that
is flashed.  So what an update sends is the file that was named last for the line of its camera; if there is
none, it ends before any session.
-/

namespace Reflash

open Program

/-! ## Runs that go on -/

/-- A run of `p` from `s` makes the calls `h`, and then it is a run of `q` from `s'`. -/
def Program.Reaches {I : Interface} {α σ : Type} (env : Environment I σ) (p : Program I α) (s : σ)
    (h : List (Event I)) (q : Program I α) (s' : σ) : Prop :=
  p.run env s = q.run env s' ∧ p.history env s = h ++ q.history env s'

section Reaches

variable {I : Interface} {α β σ : Type} {env : Environment I σ} {p q r : Program I α} {s s' s'' : σ}
  {h h' : List (Event I)}

theorem Program.Reaches.refl (p : Program I α) (s : σ) : p.Reaches env s [] p s := ⟨rfl, rfl⟩

theorem Program.Reaches.trans (hpq : p.Reaches env s h q s') (hqr : q.Reaches env s' h' r s'') :
    p.Reaches env s (h ++ h') r s'' :=
  ⟨hpq.1.trans hqr.1, by rw [hpq.2, hqr.2, List.append_assoc]⟩

/-- What holds of all calls holds of those that are left. -/
theorem Program.Reaches.forall {P : Event I → Prop} (hpq : p.Reaches env s h q s')
    (hp : ∀ e ∈ p.history env s, P e) :
    ∀ e ∈ q.history env s', P e :=
  fun e he => hp e (hpq.2 ▸ List.mem_append_right h he)

end Reaches

namespace Attempt

variable {ε α β σ : Type} {env : Environment (cameras.sum host) σ} {s s' : σ} {x : Attempt ε α}

theorem reaches_of_ok {a : α} (hx : x.run.run env s = (.finished (.ok a), s')) (f : α → Attempt ε β) :
    (x >>= f).run.Reaches env s (x.run.history env s) (f a).run s' := by
  rw [run_bind_eq]
  exact ⟨run_bind_of_finished hx _, history_bind_of_finished hx _⟩

end Attempt

/-! ## Files that are read and lines that are printed -/

/-- A file that is asked for is read, and a line that is to be printed is printed. -/
def Event.isServed : Event (cameras.sum host) → Bool
  | ⟨.inr (.readFile _), some (.ok _)⟩ => true
  | ⟨.inr (.readFile _), _⟩ => false
  | ⟨.inr (.print _), answer?⟩ => answer?.isSome
  | _ => true

/-- Nothing that is read or printed fails. -/
def Served (h : History) : Prop := ∀ e ∈ h, e.isServed = true

/-- A file that an argument names for a line, and what is read of it. -/
structure NamedFile where
  line : ProductLine
  path : String
  data : Bytes

namespace NamedFile

def entry (f : NamedFile) : ProductLine × String := (f.line, f.path)

def image (f : NamedFile) : FirmwareImage := ⟨f.data, f.line⟩

def reading (f : NamedFile) : Event (cameras.sum host) := .told (.readFile f.path) (some (.ok f.data))

/-- Files are known by what was asked for and what was read. -/
theorem eq_of_readings {files files' : List NamedFile} (hentries : files.map entry = files'.map entry)
    (hreadings : files.map reading = files'.map reading) : files = files' := by
  induction files generalizing files' with
  | nil => exact (List.map_eq_nil_iff.mp hentries.symm).symm
  | cons f files ih =>
    cases files' with
    | nil => cases hentries
    | cons g files' =>
      obtain ⟨hentry, hentries⟩ := List.cons.inj hentries
      obtain ⟨hreading, hreadings⟩ := List.cons.inj hreadings
      have hfile : f = g := by
        cases f
        cases g
        cases hentry
        cases hreading
        rfl
      rw [hfile, ih hentries hreadings]

/-- Of some files, the last one for its line. -/
def IsLastOf (files : List NamedFile) (f : NamedFile) : Prop :=
  ∃ before after, files = before ++ f :: after ∧ ∀ g ∈ after, g.line ≠ f.line

end NamedFile

namespace Catalog

variable {files : List NamedFile} {file : NamedFile} {line : ProductLine}

/-- The catalog of the images in some files. -/
def ofFiles (files : List NamedFile) : Catalog := ofImages (files.map NamedFile.image)

theorem filter_image_eq_nil (hnone : ∀ f ∈ files, f.line ≠ line) :
    ((files.map NamedFile.image).filter fun image => image.line = line) = [] := by
  simpa [NamedFile.image] using hnone

theorem entry?_of_last (hlast : file.IsLastOf files) :
    entry? (ofFiles files) file.line = some ⟨file.image.version?.getD .zero, file.image⟩ := by
  obtain ⟨before, after, rfl, hafter⟩ := hlast
  have hlast? : last? ((before ++ file :: after).map NamedFile.image) file.line = some file.image := by
    have hfile : file.image.line = file.line := rfl
    simp [last?, List.filter_append, hfile, filter_image_eq_nil hafter]
  rw [ofFiles, entry?_ofImages, hlast?]
  rfl

theorem entry?_of_forall_ne (hnone : ∀ f ∈ files, f.line ≠ line) : entry? (ofFiles files) line = none := by
  rw [ofFiles, entry?_ofImages, last?, filter_image_eq_nil hnone]
  rfl

end Catalog

namespace Session

variable {files : List NamedFile} {file : NamedFile} {camera : Camera} (config : UpdateConfig)

theorem startDefault_of_last (hlast : file.IsLastOf files) (hline : file.line = camera.kind.line) :
    startDefault config (.ofFiles files) camera = start config camera file.image := by
  rw [startDefault, Catalog.image, ← hline, Catalog.entry?_of_last hlast]

theorem startDefault_of_forall_ne (hnone : ∀ f ∈ files, f.line ≠ camera.kind.line) :
    startDefault config (.ofFiles files) camera = .error (.image (.notInCatalog camera.kind.line)) := by
  rw [startDefault, Catalog.image, Catalog.entry?_of_forall_ne hnone]

end Session

namespace Command

variable {α σ : Type} {env : Environment (cameras.sum host) σ} {s s' : σ}

/-! ## Reading and printing -/

/-- A call that is answered comes first, and then what is left. -/
theorem reaches_tell {β : Type} {c : HostCall} {a : c.Answer} (ha : (env (.inr c) s).1 = some a)
    (next : c.Answer → Action β) :
    ((tell c).bind next).Reaches env s [.told c (some a)] (next a) (env (.inr c) s).2 :=
  ⟨run_tell_bind ha next, history_tell_bind ha next⟩

theorem told_mem_history {β : Type} (env : Environment (cameras.sum host) σ) (s : σ) (c : HostCall)
    (next : c.Answer → Action β) :
    .told c (env (.inr c) s).1 ∈ ((tell c).bind next).history env s := by
  show _ ∈ Program.history env (call (.inr c) next) s
  rw [history]
  rcases env (.inr c) s with ⟨_ | a, s'⟩ <;> exact List.mem_cons_self

theorem reaches_print {line : String} {f : Unit → Attempt CommandError α}
    (hserved : Served (((liftM (print line) : Attempt CommandError Unit) >>= f).run.history env s)) :
    ∃ s', ((liftM (print line) : Attempt CommandError Unit) >>= f).run.Reaches env s
      [.told (.print line) (some ())] (f ()).run s' := by
  rw [Attempt.run_lift_bind] at hserved ⊢
  have hanswer := hserved _ (told_mem_history env s (.print line) _)
  obtain ⟨u, hu⟩ : ∃ u, (env (.inr (.print line)) s).1 = some u := Option.isSome_iff_exists.mp hanswer
  exact ⟨_, reaches_tell hu _⟩

theorem reaches_loadImage {path : String} {line : ProductLine} {f : FirmwareImage → Attempt CommandError α}
    (hserved : Served ((loadImage path line >>= f).run.history env s)) :
    ∃ data s', (loadImage path line >>= f).run.Reaches env s [.told (.readFile path) (some (.ok data))]
    (f ⟨data, line⟩).run s' := by
  have hread : ∃ next, (loadImage path line >>= f).run = (tell (.readFile path)).bind next ∧
      ∀ data, next (.ok data) = (f ⟨data, line⟩).run := ⟨_, rfl, fun data => rfl⟩
  obtain ⟨next, heq, hnext⟩ := hread
  rw [heq] at hserved ⊢
  have hanswer := hserved _ (told_mem_history env s (.readFile path) _)
  cases ha : (env (.inr (.readFile path)) s).1 with
  | none =>
    rw [ha] at hanswer
    cases hanswer
  | some result =>
    rw [ha] at hanswer
    cases result with
    | error e => cases hanswer
    | ok data => exact ⟨data, _, hnext data ▸ reaches_tell ha next⟩

theorem reaches_loadCatalog {entries : List (ProductLine × String)} {catalog : Catalog}
    {f : Catalog → Attempt CommandError α}
    (hserved : Served ((loadCatalog entries catalog >>= f).run.history env s)) :
    ∃ (files : List NamedFile) (s' : _), files.map NamedFile.entry = entries ∧
      (loadCatalog entries catalog >>= f).run.Reaches env s (files.map NamedFile.reading)
        (f ((files.map NamedFile.image).foldl Catalog.offer catalog)).run s' := by
  induction entries generalizing catalog s with
  | nil => exact ⟨[], s, rfl, .refl _ s⟩
  | cons entry rest ih =>
    have hassoc : loadCatalog (entry :: rest) catalog >>= f =
        loadImage entry.2 entry.1 >>= fun image => loadCatalog rest (catalog.offer image) >>= f := by
      rw [loadCatalog, LawfulMonad.bind_assoc]
      rfl
    rw [hassoc] at hserved ⊢
    obtain ⟨data, s₁, hread⟩ := reaches_loadImage hserved
    obtain ⟨files, s₂, hfiles, hrest⟩ := ih (hread.forall hserved)
    exact ⟨⟨entry.1, entry.2, data⟩ :: files, s₂, by simp [hfiles, NamedFile.entry], hread.trans hrest⟩

/-! ## What an update sends -/

section Sends

variable {config : UpdateConfig} {camera : Camera} {image : FirmwareImage} {serial : String}
  {entries : List (ProductLine × String)} {files : List NamedFile} {file : NamedFile}

/-- What a command shows once its session is over. -/
def close (record : Session.Record) : Attempt CommandError Unit := do
  follow.showLines (Session.Follower.look {} record).lines
  (tell (.bar false) : Action Unit)
  match Session.outcome (.finished ()) record with
  | .done => print "Firmware update complete!"
  | .failed reason => throw ⟨"Firmware update failed: " ++ reason, []⟩

theorem follow_eq (session : Action Unit) : follow session = liftM (tell (.bar true)) >>= fun _ =>
    liftM (Session.recorded session .initial) >>= fun ended => close ended.2 := rfl

theorem only_showLines (lines : List String) : (follow.showLines lines).Only (ofKinds [.terminal]) := by
  induction lines with
  | nil => trivial
  | cons line lines ih => exact only_bind (only_tell.mpr (by simp)) fun _ => ih

theorem only_close (record : Session.Record) : (close record).Only (ofKinds [.terminal]) := by
  refine Attempt.only_bind (Attempt.only_lift (only_showLines _)) fun _ => ?_
  refine Attempt.only_bind (Attempt.only_lift (only_tell.mpr (by simp))) fun _ => ?_
  split
  · exact Attempt.only_lift (only_tell.mpr (by simp))
  · exact Attempt.only_throw _

theorem outcome?_of_close {record : Session.Record} {h : History} {u : Unit}
    (hf : (close record).Finishes h (.ok u)) :
    record.outcome? = some .done := by
  obtain ⟨_, _, _, -, -, hf⟩ := Attempt.finishes_bind_ok.mp hf
  obtain ⟨_, _, _, -, -, hf⟩ := Attempt.finishes_bind_ok.mp hf
  split at hf
  · rename_i hdone
    cases ho : record.outcome? with
    | none => simp [Session.outcome, ho] at hdone
    | some o => simpa [Session.outcome, ho] using hdone
  · cases (Attempt.finishes_throw.mp hf).2

/-- A command that follows a session sends what the session sends, and ends well only if the session is done. -/
theorem sends_follow (hmax : config.transfer.maxChunk ≤ ControlPacket.maxChunk) :
    (follow (Session.run config image camera)).Sends image.data := by
  have hclose : ∀ record {h : History}, (close record).Begins h → sent h = [] :=
    fun record _ hb => sent_of_within ((only_close record).within hb) (by simp)
  rw [follow_eq]
  refine Attempt.sends_after (Attempt.sends_tell _) fun _ => ⟨fun h hb => ?_, fun h u hf => ?_⟩
  · rcases Attempt.begins_bind.mp hb with hb | ⟨⟨u, record⟩, h₁, h₂, rfl, hsession, hb⟩
    · exact (Session.sent_of_begins hmax (Session.begins_recorded.mp (Attempt.begins_lift.mp hb))).1
    · rw [sent_append, hclose record hb, List.append_nil]
      exact (Session.sent_of_begins hmax (Session.begins_recorded.mp (Attempt.begins_lift.mp hsession.begins))).1
  · obtain ⟨⟨u', record⟩, h₁, h₂, rfl, hsession, hf⟩ := Attempt.finishes_bind_ok.mp hf
    obtain ⟨hrun, rfl⟩ := Session.finishes_recorded.mp (Attempt.finishes_lift_ok.mp hsession)
    rw [sent_append, hclose _ hf.begins, List.append_nil]
    exact (Session.sent_of_begins hmax hrun.begins).2 (outcome?_of_close hf)

/-- What is left of an update that is about to start its session. -/
def flash (config : UpdateConfig) (camera : Camera) (image : FirmwareImage) : Attempt CommandError Unit := do
  let session ← Attempt.decided ((Session.start config camera image).mapError .ofUpdate)
  print ""
  follow session

theorem sends_flash (hmax : config.transfer.maxChunk ≤ ControlPacket.maxChunk) :
    (flash config camera image).Sends image.data := by
  unfold flash
  cases hstart : Session.start config camera image with
  | error e => exact Attempt.sends_throw _
  | ok session =>
    obtain ⟨-, -, rfl⟩ := Session.start_eq_ok.mp hstart
    have hfollow : (liftM (print "") >>= fun _ => follow (Session.run config image camera)).Sends image.data :=
      Attempt.sends_after (Attempt.sends_tell _) fun _ => sends_follow hmax
    exact hfollow

/-- What is left of an update once its catalog is loaded. -/
def flashFrom (config : UpdateConfig) (camera : Camera) (catalog : Catalog) : Attempt CommandError Unit := do
  match catalog.version? camera.kind.line with
  | some version => print ("Firmware: catalog image " ++ version.text)
  | none => pure ()
  let session ← Attempt.decided ((Session.startDefault config catalog camera).mapError .ofUpdate)
  print ""
  follow session

theorem flashFrom_of_forall_ne (hnone : ∀ f ∈ files, f.line ≠ camera.kind.line) :
    flashFrom config camera (.ofFiles files) = throw (.ofUpdate (.image (.notInCatalog camera.kind.line))) := by
  rw [flashFrom, Catalog.version?, Catalog.entry?_of_forall_ne hnone,
    Session.startDefault_of_forall_ne config hnone]
  rfl

theorem flashFrom_of_last (hlast : file.IsLastOf files) (hline : file.line = camera.kind.line) :
    flashFrom config camera (.ofFiles files) =
      liftM (print ("Firmware: catalog image " ++ (file.image.version?.getD .zero).text)) >>= fun _ =>
        flash config camera file.image := by
  rw [flashFrom, Catalog.version?, ← hline, Catalog.entry?_of_last hlast,
    Session.startDefault_of_last config hlast hline]
  rfl

/-- What an update prints before it reads its images. -/
def preface (serial : String) (camera : Camera) (backupDir? : Option String) : List String :=
  ["Device:   " ++ camera.name ++ " (" ++ serial ++ ")", "Backup:   " ++ backupDir?.getD "disabled"]

theorem update_catalog (serial : String) (entries : List (ProductLine × String)) (config : UpdateConfig) :
    update serial (.catalog entries) config = findCamera (some serial) .normal >>= fun camera =>
      liftM (print ("Device:   " ++ camera.name ++ " (" ++ serial ++ ")")) >>= fun _ =>
      liftM (print ("Backup:   " ++ (config.backup.map BackupConfig.dir).getD "disabled")) >>= fun _ =>
      loadCatalog entries .empty >>= flashFrom config camera := by
  have hrest : ∀ camera,
      (do let session ← prepareUpdate camera (.catalog entries) config; print ""; follow session) =
      loadCatalog entries .empty >>= flashFrom config camera := by
    intro camera
    rw [prepareUpdate, LawfulMonad.bind_assoc]
    refine congrArg _ (funext fun catalog => ?_)
    unfold flashFrom
    cases catalog.version? camera.kind.line <;> simp
  cases hbackup : config.backup <;> simp [update, hbackup, hrest]

/-- An update that has found its camera comes to its catalog. -/
theorem reaches_flashFrom
    (hfound : (findCamera (some serial) .normal).run.run env s = (.finished (.ok camera), s'))
    (hserved : Served ((update serial (.catalog entries) config).run.history env s)) :
    ∃ (files : List NamedFile) (s'' : σ), files.map NamedFile.entry = entries ∧
      (update serial (.catalog entries) config).run.Reaches env s
        ((findCamera (some serial) .normal).run.history env s ++
          prints (preface serial camera (config.backup.map BackupConfig.dir)) ++ files.map NamedFile.reading)
        (flashFrom config camera (.ofFiles files)).run s'' := by
  rw [update_catalog] at hserved ⊢
  have hlookup := Attempt.reaches_of_ok hfound fun camera =>
    liftM (print ("Device:   " ++ camera.name ++ " (" ++ serial ++ ")")) >>= fun _ =>
    liftM (print ("Backup:   " ++ (config.backup.map BackupConfig.dir).getD "disabled")) >>= fun _ =>
    loadCatalog entries .empty >>= flashFrom config camera
  obtain ⟨s₁, hdevice⟩ := reaches_print (hlookup.forall hserved)
  obtain ⟨s₂, hbackup⟩ := reaches_print (hdevice.forall (hlookup.forall hserved))
  obtain ⟨files, s₃, hfiles, hload⟩ :=
    reaches_loadCatalog (hbackup.forall (hdevice.forall (hlookup.forall hserved)))
  refine ⟨files, s₃, hfiles, ?_⟩
  simpa [prints, preface, Catalog.ofFiles, Catalog.ofImages] using hlookup.trans
    (hdevice.trans (hbackup.trans hload))

/-- What becomes of an update that has found its camera, with the files that it reads. -/
structure Flashes (camera : Camera) (files : List NamedFile) (rest : History)
    (ending : Ending (Except CommandError Unit)) : Prop where
  /-- Without a file for the line nothing else is called. -/
  missing : (∀ f ∈ files, f.line ≠ camera.kind.line) →
    rest = [] ∧ ending = .finished (.error (.ofUpdate (.image (.notInCatalog camera.kind.line))))
  /-- The last file for the line is announced and sent, all of it if the update ends well. -/
  named : ∀ file : NamedFile, file.IsLastOf files → file.line = camera.kind.line → ∃ session,
    rest = .told (.print ("Firmware: catalog image " ++ (file.image.version?.getD .zero).text)) (some ()) ::
      session ∧
      sent session <+: file.data ∧ (ending = .finished (.ok ()) → sent session = file.data)

theorem flashes_of_served (hmax : config.transfer.maxChunk ≤ ControlPacket.maxChunk)
    (hserved : Served ((flashFrom config camera (.ofFiles files)).run.history env s)) :
    Flashes camera files ((flashFrom config camera (.ofFiles files)).run.history env s)
      ((flashFrom config camera (.ofFiles files)).run.run env s).1 where
  missing hnone := by
    rw [flashFrom_of_forall_ne hnone]
    exact ⟨rfl, rfl⟩
  named file hlast hline := by
    rw [flashFrom_of_last hlast hline] at hserved ⊢
    obtain ⟨s', hrun, hhistory⟩ := reaches_print hserved
    have hsends : (flash config camera file.image).Sends file.image.data := sends_flash hmax
    obtain ⟨hpart, hwhole⟩ := hsends.run env s'
    refine ⟨_, hhistory, hpart, fun hok => hwhole () ?_⟩
    rw [← hrun, hok]

end Sends

/-- What a catalog holds of the files from which it was loaded. -/
structure Holds (catalog : Catalog) (files : List NamedFile) : Prop where
  /-- The entry of a line is the last file for it, under the version inside. -/
  last : ∀ file : NamedFile, file.IsLastOf files →
    catalog.entry? file.line = some ⟨file.image.version?.getD .zero, file.image⟩
  /-- This is the file that a default session flashes. -/
  started : ∀ file : NamedFile, file.IsLastOf files → ∀ config camera, file.line = camera.kind.line →
    Session.startDefault config catalog camera = Session.start config camera file.image
  others : ∀ line, (∀ f ∈ files, f.line ≠ line) → catalog.entry? line = none

theorem holds_ofFiles (files : List NamedFile) : Holds (.ofFiles files) files where
  last _ hlast := Catalog.entry?_of_last hlast
  started _ hlast config _ hline := Session.startDefault_of_last config hlast hline
  others _ hnone := Catalog.entry?_of_forall_ne hnone

/-- What an update does for the images that it is told. -/
structure UpdatesWith (env : Environment (cameras.sum host) σ) (s : σ) (serial : String)
    (backupDir? : Option String) (entries : List (ProductLine × String))
    (program : Action (Except CommandError Unit)) : Prop where
  /-- Without any it fails at once. -/
  untold : entries = [] → program.history env s = [] ∧
    (program.run env s).1 = .finished (.error ⟨"No firmware given: use --file or --firmware", []⟩)
  /-- Once it has found its camera, which is no session yet, it reads their files and flashes from them. -/
  flashes : entries ≠ [] → ∀ camera s',
    (findCamera (some serial) .normal).run.run env s = (.finished (.ok camera), s') →
    Served (program.history env s) →
      Within [.list, .identity, .log] ((findCamera (some serial) .normal).run.history env s) ∧
      ∃ (files : List NamedFile) (rest : History), files.map NamedFile.entry = entries ∧
        program.history env s = (findCamera (some serial) .normal).run.history env s ++
          prints (preface serial camera backupDir?) ++ files.map NamedFile.reading ++ rest ∧
        Flashes camera files rest (program.run env s).1

/-- The update of an invocation. -/
theorem updatesWith_invocation (env : Environment (cameras.sum host) σ) (s : σ) (serial : String)
    (entries : List (ProductLine × String)) (backupDir : String) (noBackup : Bool)
    (recoverySeconds reconnectSeconds : Nat) :
    UpdatesWith env s serial (if noBackup then none else some backupDir) entries
      (Invocation.update serial none entries backupDir noBackup recoverySeconds reconnectSeconds).run.run where
  untold := by
    rintro rfl
    exact ⟨rfl, rfl⟩
  flashes hne camera s' hfound hserved := by
    -- The options of the command make this configuration.
    let config : UpdateConfig :=
      { backup := if noBackup then none else some { dir := backupDir }
        recoveryTimeout := Nanos.ofSeconds recoverySeconds
        reconnectTimeout := Nanos.ofSeconds reconnectSeconds }
    have hprogram :
        (Invocation.update serial none entries backupDir noBackup recoverySeconds reconnectSeconds).run.run =
        (update serial (.catalog entries) config).run := by
      cases entries with
      | nil => exact absurd rfl hne
      | cons entry entries => rfl
    have hdir : config.backup.map BackupConfig.dir = if noBackup then none else some backupDir := by
      cases noBackup <;> rfl
    rw [hprogram] at hserved ⊢
    obtain ⟨files, s'', hfiles, hreaches⟩ := reaches_flashFrom hfound hserved
    have hmax : ({} : TransferConfig).maxChunk ≤ ControlPacket.maxChunk := by decide
    refine ⟨only_findCamera.within (begins_history env _ s), files, _, hfiles, hdir ▸ hreaches.2, ?_⟩
    rw [hreaches.1]
    exact flashes_of_served (show config.transfer.maxChunk ≤ _ from hmax) (hreaches.forall hserved)

/-- An argument names a file exactly if it is accepted.  A catalog that is loaded from such arguments has for
each line the last file of the line, under the version inside it, and nothing for the other lines; a default
session flashes what is there.  So an update that has found its camera prints the version of the last file for
the line of the camera, sends the bytes of this file and no others, and all of them if it ends well; if no file
is for the line, or none is named at all, it ends before any session. -/
theorem named_image_is_flashed :
    (∀ arg entry, CommandLine.firmwareArgument arg = .ok entry ↔ CommandLine.Names arg entry) ∧
    ∀ {σ : Type} (env : Environment (cameras.sum host) σ) (s : σ) (entries : List (ProductLine × String)),
      (Served ((loadCatalog entries .empty).run.history env s) →
        ∃ (files : List NamedFile) (catalog : Catalog), files.map NamedFile.entry = entries ∧
          (loadCatalog entries .empty).run.history env s = files.map NamedFile.reading ∧
          ((loadCatalog entries .empty).run.run env s).1 = .finished (.ok catalog) ∧ Holds catalog files) ∧
      ∀ serial backupDir noBackup recoverySeconds reconnectSeconds,
        UpdatesWith env s serial (if noBackup then none else some backupDir) entries
          (Invocation.update serial none entries backupDir noBackup recoverySeconds reconnectSeconds).run.run := by
  refine ⟨fun _ _ => CommandLine.firmwareArgument_eq_ok_iff, fun env s entries => ⟨fun hserved => ?_, ?_⟩⟩
  · rw [← bind_pure (loadCatalog entries .empty)] at hserved ⊢
    obtain ⟨files, s', hfiles, hrun, hhistory⟩ := reaches_loadCatalog hserved
    refine ⟨files, .ofFiles files, hfiles, ?_, ?_, holds_ofFiles files⟩
    · rw [hhistory]
      exact List.append_nil _
    · rw [hrun]
      rfl
  · exact fun serial => updatesWith_invocation env s serial entries

/-! Three files, two of them for the line of the unit. -/

namespace Drawer

def old : NamedFile := ⟨.d400, "old.bin", revised 0x05080000⟩

def other : NamedFile := ⟨.sr300, "other.bin", [1]⟩

def new : NamedFile := ⟨.d400, "new=1.bin", revised 0x050A0000⟩

def files : List NamedFile := [old, other, new]

def stocked : Obliging :=
  { camera := Obliging.unit, files := fun path => (files.find? fun f => f.path = path).map NamedFile.data }

def arguments : List String := ["D400=old.bin", "sr3xx=other.bin", "d4XX=new=1.bin"]

/-- An update without a backup. -/
def command : Action (Except CommandError Unit) :=
  (Invocation.update "unit" none (files.map NamedFile.entry) "backups" true 60 60).run.run

end Drawer

open Drawer in
/-- The unit gets the last of its two files. -/
theorem named_image_is_flashed_drawer : List.Forall₂ CommandLine.Names arguments (files.map NamedFile.entry) ∧
    (∃ catalog, ((loadCatalog (files.map NamedFile.entry) .empty).run.run Obliging.world stocked).1 =
      .finished (.ok catalog) ∧
      catalog.entry? .d400 = some ⟨⟨5, 10, 0, 0⟩, new.image⟩ ∧ catalog.entry? .sr300 = some ⟨.zero, other.image⟩) ∧
    ∃ before session, command.history Obliging.world stocked =
        before ++ .told (.print "Firmware: catalog image 5.10.0.0") (some ()) :: session ∧
      sent session = new.data := by
  obtain ⟨-, hworld⟩ := named_image_is_flashed
  have hspelled : List.Forall₂ CommandLine.Spelled arguments
      [["--firmware", "D400=old.bin"], ["--firmware=sr3xx=other.bin"], ["--firmware", "d4XX=new=1.bin"]] :=
    .cons .apart (.cons .attached (.cons .apart .nil))
  have hread : CommandLine.parse ["update", "--serial=unit", "--firmware", "D400=old.bin",
      "--firmware=sr3xx=other.bin",
      "--firmware", "d4XX=new=1.bin"] = .ok (CommandLine.updateOf "unit" (files.map NamedFile.entry)) := by
      decide +kernel
  obtain ⟨entries, hnames, hentries⟩ := (CommandLine.parse_update "unit" hspelled).mp hread
  have hok : (command.run Obliging.world stocked).1 = .finished (.ok ()) := by decide +kernel
  have hserved : ∀ e ∈ command.history Obliging.world stocked, e.isServed = true := by decide +kernel
  have hfound : ((findCamera (some "unit") .normal).run.run Obliging.world stocked).1 =
      .finished (.ok Obliging.unit) := by
    decide +kernel
  obtain rfl : files.map NamedFile.entry = entries := by simpa [CommandLine.updateOf] using hentries
  have hlast : new.IsLastOf files := ⟨[old, other], [], rfl, nofun⟩
  refine ⟨hnames, ?_, ?_⟩
  · have hload : ∀ e ∈ (loadCatalog (files.map NamedFile.entry) .empty).run.history Obliging.world stocked,
        e.isServed = true := by decide +kernel
    obtain ⟨files', catalog, hfiles, hhistory, hcatalog, hholds⟩ := (hworld Obliging.world stocked _).1 hload
    have hreadings : files.map NamedFile.reading = files'.map NamedFile.reading := by
      rw [← hhistory]
      decide +kernel
    obtain rfl := NamedFile.eq_of_readings hfiles.symm hreadings
    have hother : other.IsLastOf files := ⟨[old], [new], rfl, by decide⟩
    refine ⟨catalog, hcatalog, (hholds.last new hlast).trans ?_, hholds.last other hother⟩
    decide +kernel
  have hupdate := (hworld Obliging.world stocked (files.map NamedFile.entry)).2 "unit" "backups" true 60 60
  obtain ⟨-, files', rest, hfiles, hhistory, hflashes⟩ :=
    hupdate.flashes nofun Obliging.unit _ (Prod.ext hfound rfl) hserved
  replace hhistory : command.history Obliging.world stocked =
      (findCamera (some "unit") .normal).run.history Obliging.world stocked ++
        prints (preface "unit" Obliging.unit none) ++ files'.map NamedFile.reading ++ rest := hhistory
  -- What was read is what is in the drawer.
  have hreadings : files'.map NamedFile.reading = files.map NamedFile.reading := by
    have hcount : (files'.map NamedFile.reading).length = 3 := by simpa [files] using congrArg List.length hfiles
    have hbefore : ((findCamera (some "unit") .normal).run.history Obliging.world stocked ++
        prints (preface "unit" Obliging.unit none)).length = 4 := by decide +kernel
    calc files'.map NamedFile.reading = ((command.history Obliging.world stocked).drop 4).take 3 := by
          rw [hhistory, List.append_assoc _ _ rest, List.drop_left' hbefore, List.take_left' hcount]
      _ = files.map NamedFile.reading := by decide +kernel
  obtain rfl := NamedFile.eq_of_readings hfiles hreadings
  obtain ⟨session, hrest, -, hwhole⟩ := hflashes.named new hlast rfl
  have hversion : (new.image.version?.getD .zero).text = "5.10.0.0" := by decide +kernel
  rw [hrest, hversion] at hhistory
  exact ⟨_, session, hhistory, hwhole hok⟩

end Command

end Reflash
