import Reflash.Proofs.Drive
import Reflash.Proofs.Flash.Backup
import Reflash.Proofs.Flash.BackupNames

/-!
# Reflash.Proofs.Flash.Persist — a dump is kept whole or not at all

A host may fail at any step of keeping a dump, and leave part of the dump where it wrote it.  The file under the
name of the backup is there only once it is complete: `persist_is_atomic` says what is returned and what is on
the disk for every way in which the steps can go.  No other file is touched (`persist_keeps_other_files`), so
two backups are both there as long as their file names differ; names that differ only in what `fileNameChar`
takes away do not (`persist_not_always_beside`).
-/

namespace Reflash.Flash

open Program Disk

variable {σ : Type} {env : Environment (cameras.sum host) σ} (view : DiskView env) {s : σ}
  {dir identity file path : String} {flash : Bytes} {h : History} {seconds : Nat}

/-! ## Steps at the files -/

/-- The path that a step at the files is about, and how it went. -/
def fileStep? : Event (cameras.sum host) → Option (String × Except FileError Unit)
  | ⟨.inr (.createDirs path), some result⟩ => some (path, result)
  | ⟨.inr (.writeFile path _), some result⟩ => some (path, result)
  | ⟨.inr (.rename _ target), some result⟩ => some (target, result)
  | _ => none

/-- The steps at the files, in order. -/
def fileSteps (h : History) : List (String × Except FileError Unit) := h.filterMap fileStep?

/-- The file name of a backup of `identity` that is taken so many seconds after the start of 1970. -/
def nameAt (identity : String) (seconds : Nat) : String := backupFileName identity (CalendarTime.ofSeconds seconds)

theorem nameAt_eq_iff {identity' : String} {seconds' : Nat} : nameAt identity seconds = nameAt identity' seconds' ↔
    safeName identity = safeName identity' ∧ seconds = seconds' := by
  rw [nameAt, nameAt, backupFileName_eq_iff, CalendarTime.ofSeconds_injective.eq_iff]

theorem isFileName_nameAt : IsFileName (nameAt identity seconds) := isFileName_backupFileName

theorem partPath_joinPath_nameAt :
    partPath (joinPath dir (nameAt identity seconds)) = joinPath dir (partName (nameAt identity seconds)) :=
  partPath_joinPath dir identity _

theorem partPath_nameAt (dir identity : String) (seconds : Nat) :
    partPath (joinPath dir (nameAt identity seconds)) = joinPath dir (nameAt identity seconds) ++ ".part" := by
  rw [partPath_joinPath_nameAt, joinPath_partName]

theorem partName_ne_nameAt (file : String) : partName file ≠ nameAt identity seconds :=
  partName_ne_backupFileName file

/-! ## What the steps do to the disk -/

section Steps

variable {result : Except FileError Unit}

theorem addsDirs_createDirs (hanswer : (env (.inr (.createDirs dir)) s).1 = some result) :
    AddsDirs (view.disk s) (view.disk (env (.inr (.createDirs dir)) s).2) := by
  cases result with
  | error e => exact view.notCreated s dir e hanswer
  | ok u =>
    have hcreated := view.created s dir hanswer
    have hadds := Disk.addsDirs_createDirs (view.disk s) dir
    rwa [hcreated] at hadds

/-- Writing a file in a directory touches that file alone, also where it fails. -/
theorem alters_writeFile (hfile : IsFileName file)
    (hanswer : (env (.inr (.writeFile (joinPath dir file) flash)) s).1 = some result) :
    let after := view.disk (env (.inr (.writeFile (joinPath dir file) flash)) s).2
    Alters (after.IsAt dir file) (view.disk s) after := by
  intro after
  cases result with
  | ok u => exact (write_joinPath_ok hfile (view.written s _ flash hanswer)).2.2
  | error e =>
    rcases view.notWritten s _ flash e hanswer with hsame | ⟨n, hwrite⟩
    · have hafter : after = view.disk s := hsame
      rw [hafter]
      exact .refl _
    · exact (write_joinPath_ok hfile hwrite).2.2

end Steps

/-- The calls up to the file that is written. -/
def untilWritten (dir path : String) (seconds : Nat) (flash : Bytes) (result : Except FileError Unit) : History :=
  [.told (.createDirs dir) (some (.ok ())), .told .localTime (some seconds),
    .told (.writeFile (partPath path) flash) (some result)]

/-- Until then no other file is touched. -/
theorem alters_untilWritten {result : Except FileError Unit}
    (hgives : env.Gives s (untilWritten dir (joinPath dir (nameAt identity seconds)) seconds flash result)) :
    let after := view.disk (env.after s (untilWritten dir (joinPath dir (nameAt identity seconds))
      seconds flash result))
    Alters (after.IsAt dir (partName (nameAt identity seconds))) (view.disk s) after := by
  rw [untilWritten, partPath_joinPath_nameAt] at hgives ⊢
  obtain ⟨hdirs, -, hwrite, -⟩ := hgives
  have htime := view.kept (.inr .localTime) (env (.inr (.createDirs dir)) s).2 (by simp [ChangesFiles])
  have hadds := addsDirs_createDirs view hdirs
  rw [← htime] at hadds
  exact hadds.alters.trans (alters_writeFile view isFileName_nameAt.partName hwrite)

/-! ## What keeping a dump does to the disk -/

/-- Where a dump is not kept, no file is touched but one that is not complete. -/
theorem alters_persist_error {e : BackupError} (hgives : env.Gives s h)
    (hf : (persist dir identity flash).Finishes h (.error e)) :
    let after := view.disk (env.after s h)
    Alters (fun place => ∃ seconds, .told .localTime (some seconds) ∈ h ∧
      after.IsAt dir (partName (nameAt identity seconds)) place) (view.disk s) after := by
  intro after
  rcases finishes_persist_error_at hf with ⟨cause, -, rfl⟩ | ⟨seconds, cause, path, rfl, ⟨-, rfl⟩ | ⟨-, rfl⟩⟩
  · exact (addsDirs_createDirs view hgives.1).alters
  · have halters := alters_untilWritten view hgives
    exact halters.mono fun place hplace => ⟨seconds, by simp, hplace⟩
  · have hsplit := (env.gives_append s (untilWritten dir _ seconds flash (.ok ())) [_]).mp hgives
    have halters := alters_untilWritten view hsplit.1
    have hsame : after = view.disk (env.after s (untilWritten dir _ seconds flash (.ok ()))) :=
      view.notRenamed _ _ _ cause hsplit.2.1
    rw [hsame]
    exact halters.mono fun place hplace => ⟨seconds, by simp, hplace⟩

/-- A dump that is kept is in its file, and the file that it was written to is gone. -/
theorem persist_ok_disk (hgives : env.Gives s h) (hf : (persist dir identity flash).Finishes h (.ok path)) :
    let after := view.disk (env.after s h)
    ∃ seconds, .told .localTime (some seconds) ∈ h ∧ path = joinPath dir (nameAt identity seconds) ∧
      fileSteps h = [(dir, .ok ()), (path ++ ".part", .ok ()), (path, .ok ())] ∧ after.read path = .ok flash ∧
      after.read (path ++ ".part") = .error .notFound ∧
      Alters (fun place => after.IsAt dir (partName (nameAt identity seconds)) place ∨
        after.IsAt dir (nameAt identity seconds) place) (view.disk s) after := by
  intro after
  obtain ⟨seconds, note, hpath, hcalls⟩ := finishes_persist_ok hf
  change path = joinPath dir (nameAt identity seconds) at hpath
  let s₃ := env.after s (untilWritten dir path seconds flash (.ok ()))
  let s₄ := (env (.inr (.rename (partPath path) path)) s₃).2
  have hsplit : h = untilWritten dir path seconds flash (.ok ()) ++
      [.told (.rename (partPath path) path) (some (.ok ())), .told (.log note) (some ())] := hcalls
  rw [hsplit] at hgives
  obtain ⟨hfirst, hrename, -⟩ := (env.gives_append _ _ _).mp hgives
  have hlogged : after = view.disk s₄ := by
    show view.disk (env.after s h) = view.disk s₄
    rw [hsplit, env.after_append]
    exact view.kept (.inr (.log note)) s₄ (by simp [ChangesFiles])
  have hname : IsFileName (nameAt identity seconds) := isFileName_nameAt
  have hwritten : (view.disk (env (.inr .localTime) (env (.inr (.createDirs dir)) s).2).2).write
      (partPath path) flash = (view.disk s₃, .ok ()) := view.written _ _ flash hfirst.2.2.1
  have hrenamed : (view.disk s₃).rename (partPath path) path = (view.disk s₄, .ok ()) :=
    view.renamed s₃ _ _ hrename
  rw [hlogged]
  subst hpath
  have huntil := alters_untilWritten view hfirst
  rw [partPath_joinPath_nameAt] at hwritten hrenamed
  rw [← joinPath_partName]
  obtain ⟨hshort, hread, -⟩ := write_joinPath_ok hname.partName hwritten
  have hshort' : (nameAt identity seconds).utf8ByteSize ≤ maxName := by
    rw [utf8ByteSize_partName] at hshort
    omega
  obtain ⟨⟨data, hsource, htarget⟩, hgone, hmoved⟩ :=
    rename_joinPath_ok hname.partName hshort hname hshort' (partName_ne_nameAt _) hrenamed
  obtain rfl : flash = data := Except.ok.inj (hread.symm.trans hsource)
  have hbefore : ∀ place, (view.disk s₃).IsAt dir (partName (nameAt identity seconds)) place →
      (view.disk s₄).IsAt dir (partName (nameAt identity seconds)) place ∨
        (view.disk s₄).IsAt dir (nameAt identity seconds) place := fun place hplace =>
          .inl (hmoved.dirs.isAt hplace)
  refine ⟨seconds, by simp [hcalls], rfl, ?_, htarget, hgone, (huntil.mono hbefore).trans hmoved⟩
  rw [hcalls, partPath_joinPath_nameAt]
  rfl

/-! ## A dump is kept whole or not at all -/

/-- The error has the path of the step that failed, and all steps before it went well. -/
theorem fileSteps_persist_error {e : BackupError} (hf : (persist dir identity flash).Finishes h (.error e)) :
    ∃ done failed cause seconds, fileSteps h = done ++ [(failed, .error cause)] ∧
      (∀ step ∈ done, step.2 = .ok ()) ∧
      e = .file failed cause ∧
      let path := joinPath dir (nameAt identity seconds)
      (fileSteps h).map Prod.fst <+: [dir, path ++ ".part", path] := by
  rcases finishes_persist_error_at hf with ⟨cause, rfl, rfl⟩ | ⟨seconds, cause, path, hpath, hfailed⟩
  · exact ⟨[], dir, cause, 0, rfl, by simp, rfl, _, rfl⟩
  · have hpart : partPath path = path ++ ".part" := by
      rw [hpath]
      exact partPath_nameAt dir identity seconds
    rw [hpart] at hfailed
    subst hpath
    rcases hfailed with ⟨rfl, rfl⟩ | ⟨rfl, rfl⟩
    · exact ⟨[(dir, .ok ())], _, cause, seconds, rfl, by simp, rfl, _, rfl⟩
    · exact ⟨[(dir, .ok ()), (_, .ok ())], _, cause, seconds, rfl, by simp, rfl, [], rfl⟩

/-- A run that is not cut short finishes, and its history says how. -/
theorem exists_finished_persist (hlives : ((persist dir identity flash).run.run env s).1 ≠ .panicked) :
    ∃ result, ((persist dir identity flash).run.run env s).1 = .finished result ∧
      (persist dir identity flash).Finishes ((persist dir identity flash).run.history env s) result := by
  cases hrun : ((persist dir identity flash).run.run env s).1 with
  | finished result => exact ⟨result, rfl, finishes_history hrun⟩
  | panicked => exact absurd hrun hlives
  | stalled =>
    obtain ⟨e, -, hfalse⟩ := (stallsAfter_persist (P := fun _ => False)).exists_call hrun
    exact hfalse.elim

/-- On every host that keeps its files on a disk, whatever is on it and however its operations go, keeping a
dump comes to an end unless the host dies.  A path is returned exactly if all steps went well; then the file
there holds the dump, and there is none under the name with `.part`.  Otherwise the error has the path of the
step that failed, and no file under the name of a backup was made or changed. -/
theorem persist_is_atomic {σ : Type} {env : Environment (cameras.sum host) σ} (view : DiskView env) (s : σ)
    (dir identity : String) (flash : Bytes) (hlives : ((persist dir identity flash).run.run env s).1 ≠ .panicked) :
    let program := (persist dir identity flash).run
    let h := program.history env s
    let before := view.disk s
    let after := view.disk (program.run env s).2
    ∃ result, (program.run env s).1 = .finished result ∧
      ((∃ path, result = .ok path) ↔ ∀ step ∈ fileSteps h, step.2 = .ok ()) ∧
      (∀ path, result = .ok path → ∃ seconds, .told .localTime (some seconds) ∈ h ∧
        path = joinPath dir (nameAt identity seconds) ∧
        fileSteps h = [(dir, .ok ()), (path ++ ".part", .ok ()), (path, .ok ())] ∧
        after.read path = .ok flash ∧ after.read (path ++ ".part") = .error .notFound) ∧
      ∀ e, result = .error e →
        (∃ done failed cause seconds, fileSteps h = done ++ [(failed, .error cause)] ∧
          (∀ step ∈ done, step.2 = .ok ()) ∧
          e = .file failed cause ∧
          let path := joinPath dir (nameAt identity seconds)
          (fileSteps h).map Prod.fst <+: [dir, path ++ ".part", path]) ∧
        ∀ place identity' seconds', place.getLast? = some (nameAt identity' seconds') →
          after.file? place = before.file? place := by
  intro program h before after
  obtain ⟨result, hrun, hfinishes⟩ := exists_finished_persist hlives
  change (persist dir identity flash).Finishes h result at hfinishes
  have hgives : env.Gives s h := env.gives_history program s
  have hafter : after = view.disk (env.after s h) := congrArg view.disk (env.run_snd program s)
  rw [hafter]
  refine ⟨result, hrun, ?_, ?_, ?_⟩
  · cases result with
    | ok path =>
      obtain ⟨seconds, -, -, hsteps, -⟩ := persist_ok_disk view hgives hfinishes
      simp [hsteps]
    | error e =>
      obtain ⟨done, failed, cause, seconds, hsteps, -⟩ := fileSteps_persist_error hfinishes
      have hlast : (failed, .error cause) ∈ fileSteps h := by simp [hsteps]
      constructor
      · rintro ⟨path, hok⟩
        cases hok
      · intro hall
        cases hall _ hlast
  · rintro path rfl
    obtain ⟨seconds, htime, hpath, hsteps, hread, hgone, -⟩ := persist_ok_disk view hgives hfinishes
    exact ⟨seconds, htime, hpath, hsteps, hread, hgone⟩
  · rintro e rfl
    refine ⟨fileSteps_persist_error hfinishes, fun place identity' seconds' hlast => ?_⟩
    refine (alters_persist_error view hgives hfinishes).files place ?_
    rintro ⟨seconds, -, hat⟩
    exact partName_ne_nameAt _ (Option.some.inj (hat.getLast?.symm.trans hlast))

/-- Keeps a dump of three bytes on a drive with so much room. -/
def keptOn (room : Nat) : Ending (Except BackupError String) × Drive :=
  (persist "backups" "a/b" [1, 2, 3]).run.run Drive.world { room }

/-- A drive with room for the dump, and one on which a part of it fits. -/
theorem persist_is_atomic_drive :
    let path := "backups/a_b.1970-01-01-00_00_00.bin"
    (keptOn 3).1 = .finished (.ok path) ∧ (Drive.view.disk (keptOn 3).2).read path = .ok [1, 2, 3] ∧
      (keptOn 2).1 = .finished (.error (.file (path ++ ".part") Drive.full)) ∧
      (Drive.view.disk (keptOn 2).2).read (path ++ ".part") = .ok [1, 2] ∧
      (Drive.view.disk (keptOn 2).2).file? ["backups", nameAt "a/b" 0] = none := by
  intro path
  have hok : (keptOn 3).1 = .finished (.ok path) := by decide +kernel
  have hfull : (keptOn 2).1 = .finished (.error (.file (path ++ ".part") Drive.full)) := by decide +kernel
  have hpart : (Drive.view.disk (keptOn 2).2).read (path ++ ".part") = .ok [1, 2] := by decide +kernel
  refine ⟨hok, ?_, hfull, hpart, ?_⟩
  · obtain ⟨result, hrun, -, hkept, -⟩ := persist_is_atomic Drive.view { room := 3 } "backups" "a/b" [1, 2, 3]
      (show (keptOn 3).1 ≠ .panicked by rw [hok]; exact nofun)
    obtain rfl : .ok path = result := Ending.finished.inj (hok.symm.trans hrun)
    obtain ⟨seconds, -, -, -, hread, -⟩ := hkept path rfl
    rw [keptOn]
    exact hread
  · obtain ⟨result, hrun, -, -, hfailed⟩ := persist_is_atomic Drive.view { room := 2 } "backups" "a/b" [1, 2, 3]
      (show (keptOn 2).1 ≠ .panicked by rw [hfull]; exact nofun)
    obtain rfl : .error (.file (path ++ ".part") Drive.full) = result :=
      Ending.finished.inj (hfull.symm.trans hrun)
    have hsame := (hfailed _ rfl).2 ["backups", nameAt "a/b" 0] "a/b" 0 rfl
    rw [keptOn]
    exact hsame

/-! ## Backups beside each other -/

/-- Keeping a dump touches no file but its own, and the one that it is written to. -/
theorem alters_persist {result : Except BackupError String} (hgives : env.Gives s h)
    (hf : (persist dir identity flash).Finishes h result) :
    let after := view.disk (env.after s h)
    Alters (fun place => ∃ seconds, .told .localTime (some seconds) ∈ h ∧
      (after.IsAt dir (partName (nameAt identity seconds)) place ∨ after.IsAt dir (nameAt identity seconds) place))
      (view.disk s) after := by
  cases result with
  | ok path =>
    obtain ⟨seconds, htime, -, -, -, -, halters⟩ := persist_ok_disk view hgives hf
    exact halters.mono fun place hplace => ⟨seconds, htime, hplace⟩
  | error e =>
    refine (alters_persist_error view hgives hf).mono fun place hplace => ?_
    obtain ⟨seconds, htime, hpart⟩ := hplace
    exact ⟨seconds, htime, .inl hpart⟩

/-- The time is asked for once. -/
theorem localTime_unique {t u : Nat} (hf : (persist dir identity flash).Finishes h (.ok path))
    (ht : .told .localTime (some t) ∈ h) (hu : .told .localTime (some u) ∈ h) : t = u := by
  obtain ⟨seconds, note, -, rfl⟩ := finishes_persist_ok hf
  obtain rfl : t = seconds := by simpa using ht
  obtain rfl : u = t := by simpa using hu
  rfl

/-- A backup is still there after another one, unless that one has its file name. -/
theorem read_after_persist {dir' identity' : String} {seconds' : Nat} {data : Bytes}
    {result : Except BackupError String}
    (hread : (view.disk s).read (joinPath dir' (nameAt identity' seconds')) = .ok data)
    (hgives : env.Gives s h) (hf : (persist dir identity flash).Finishes h result)
    (hother : ∀ seconds, .told .localTime (some seconds) ∈ h →
      nameAt identity' seconds' ≠ nameAt identity seconds) :
    (view.disk (env.after s h)).read (joinPath dir' (nameAt identity' seconds')) = .ok data := by
  refine (alters_persist view hgives hf).read hread fun place => ?_
  rw [last_name_joinPath dir' isFileName_nameAt.single]
  have hlast : (place ++ [nameAt identity' seconds']).getLast? = some (nameAt identity' seconds') :=
    List.getLast?_concat
  rintro ⟨seconds, htime, hat | hat⟩
  · exact partName_ne_nameAt _ (Option.some.inj (hat.getLast?.symm.trans hlast))
  · exact hother seconds htime (Option.some.inj (hlast.symm.trans hat.getLast?))

/-- On every host that keeps its files on a disk, keeping a dump leaves every file as it was but the one at the
path of the dump and the one at that path with `.part`.  So two backups are both there, under different names,
where they were taken in different seconds or where something else is left of their identities. -/
theorem persist_keeps_other_files {σ : Type} {env : Environment (cameras.sum host) σ} (view : DiskView env) :
    (∀ s dir identity flash result, ((persist dir identity flash).run.run env s).1 = .finished result →
      let after := view.disk ((persist dir identity flash).run.run env s).2
      ∀ place, after.file? place = (view.disk s).file? place ∨
        ∃ seconds, .told .localTime (some seconds) ∈ (persist dir identity flash).run.history env s ∧
          (after.IsAt dir (partName (nameAt identity seconds)) place ∨
            after.IsAt dir (nameAt identity seconds) place)) ∧
    ∀ s₁ s₂ dir₁ dir₂ identity₁ identity₂ flash₁ flash₂ path₁ path₂ seconds₁ seconds₂,
      let first := (persist dir₁ identity₁ flash₁).run
      let second := (persist dir₂ identity₂ flash₂).run
      (first.run env s₁).1 = .finished (.ok path₁) → .told .localTime (some seconds₁) ∈ first.history env s₁ →
      view.disk s₂ = view.disk (first.run env s₁).2 →
      (second.run env s₂).1 = .finished (.ok path₂) → .told .localTime (some seconds₂) ∈ second.history env s₂ →
      seconds₁ ≠ seconds₂ ∨ safeName identity₁ ≠ safeName identity₂ →
      path₁ ≠ path₂ ∧ (view.disk (second.run env s₂).2).read path₁ = .ok flash₁ ∧
        (view.disk (second.run env s₂).2).read path₂ = .ok flash₂ := by
  constructor
  · intro s dir identity flash result hrun after place
    have halters := alters_persist view (env.gives_history (persist dir identity flash).run s)
      (finishes_history hrun)
    rw [← env.run_snd] at halters
    by_cases hsame : after.file? place = (view.disk s).file? place
    · exact .inl hsame
    · exact .inr (by_contra fun hplace => hsame (halters.files place hplace))
  · intro s₁ s₂ dir₁ dir₂ identity₁ identity₂ flash₁ flash₂ path₁ path₂ seconds₁ seconds₂ first second
      hrun₁ htime₁ hdisk hrun₂ htime₂ hdiffer
    have hgives₂ := env.gives_history second s₂
    have hf₁ : (persist dir₁ identity₁ flash₁).Finishes (first.history env s₁) (.ok path₁) :=
      finishes_history hrun₁
    have hf₂ : (persist dir₂ identity₂ flash₂).Finishes (second.history env s₂) (.ok path₂) :=
      finishes_history hrun₂
    obtain ⟨t₁, ht₁, hpath₁, -, hread₁, -⟩ := persist_ok_disk view (env.gives_history first s₁) hf₁
    obtain ⟨t₂, ht₂, hpath₂, -, hread₂, -⟩ := persist_ok_disk view hgives₂ hf₂
    obtain rfl := localTime_unique hf₁ ht₁ htime₁
    obtain rfl := localTime_unique hf₂ ht₂ htime₂
    have hname : nameAt identity₁ t₁ ≠ nameAt identity₂ t₂ := by
      rw [Ne, nameAt_eq_iff]
      rintro ⟨hsafe, hseconds⟩
      rcases hdiffer with hdiffer | hdiffer
      · exact hdiffer hseconds
      · exact hdiffer hsafe
    rw [← env.run_snd, ← hdisk] at hread₁
    subst hpath₁ hpath₂
    refine ⟨fun heq => hname (joinPath_inj isFileName_nameAt.single isFileName_nameAt.single heq), ?_, ?_⟩
    · rw [env.run_snd]
      refine read_after_persist view hread₁ hgives₂ hf₂ fun t ht => ?_
      rw [localTime_unique hf₂ ht ht₂]
      exact hname
    · rw [env.run_snd]
      exact hread₂

/-- Keeps a dump of one byte on a drive with room for two. -/
def keptFirst (identity : String) : Ending (Except BackupError String) × Drive :=
  (persist "backups" identity [1]).run.run Drive.world { room := 2 }

/-- Keeps another one on that drive, so many seconds later. -/
def keptThen (identity identity' : String) (seconds : Nat) : Ending (Except BackupError String) × Drive :=
  (persist "backups" identity' [2]).run.run Drive.world ((keptFirst identity).2.later seconds)

/-- Two backups of one unit, a second apart. -/
theorem persist_keeps_other_files_drive :
    let path₁ := "backups/unit.1970-01-01-00_00_00.bin"
    let path₂ := "backups/unit.1970-01-01-00_00_01.bin"
    (keptFirst "unit").1 = .finished (.ok path₁) ∧ (keptThen "unit" "unit" 1).1 = .finished (.ok path₂) ∧
      (Drive.view.disk (keptThen "unit" "unit" 1).2).read path₁ = .ok [1] ∧
      (Drive.view.disk (keptThen "unit" "unit" 1).2).read path₂ = .ok [2] := by
  intro path₁ path₂
  have hfirst : (keptFirst "unit").1 = .finished (.ok path₁) := by decide +kernel
  have hthen : (keptThen "unit" "unit" 1).1 = .finished (.ok path₂) := by decide +kernel
  have hboth := (persist_keeps_other_files Drive.view).2 { room := 2 } ((keptFirst "unit").2.later 1)
    "backups" "backups"
    "unit" "unit" [1] [2] path₁ path₂ 0 1 hfirst (by decide +kernel) rfl hthen (by decide +kernel)
    (.inl (by decide))
  refine ⟨hfirst, hthen, ?_⟩
  rw [keptThen]
  exact hboth.2

/-- Two units of whose identities the same is left, in one second: one path, and the first dump is gone. -/
theorem persist_not_always_beside :
    let path := "backups/a_b.1970-01-01-00_00_00.bin"
    (keptFirst "a/b").1 = .finished (.ok path) ∧ (Drive.view.disk (keptFirst "a/b").2).read path = .ok [1] ∧
      (keptThen "a/b" "a_b" 0).1 = .finished (.ok path) ∧
      (Drive.view.disk (keptThen "a/b" "a_b" 0).2).read path = .ok [2] := by
  decide +kernel

end Reflash.Flash
