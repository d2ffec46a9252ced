import Reflash.Flash.Backup
import Reflash.Proofs.Flash.Dump
import Reflash.Proofs.Obliging

/-!
# Reflash.Proofs.Flash.Backup — a backup that was kept is in its file

A `FileView` says what the files of an environment hold, by the laws of a host on which nobody else touches
them: a written file holds what was written, a rename moves what the source held, and calls that are not about
files leave all of them alone.  `Flash.persist` leaves the dump under the path that it returns
(`Flash.holds_persist`).  `Flash.Saved` is a history in which the flash was read whole and kept, and
`Flash.Fault` one in which that went wrong: no history is both (`Flash.Saved.not_fault`).
-/

namespace Reflash

open Program

/-- What the files of an environment hold. -/
structure FileView {σ : Type} (env : Environment (cameras.sum host) σ) where
  /-- What the file at a path holds, if there is one. -/
  holds : σ → String → Option Bytes
  written : ∀ s path data, (env (.inr (.writeFile path data)) s).1 = some (.ok ()) →
    holds (env (.inr (.writeFile path data)) s).2 path = some data
  renamed : ∀ s source target, (env (.inr (.rename source target)) s).1 = some (.ok ()) →
    holds (env (.inr (.rename source target)) s).2 target = holds s source
  kept : ∀ c s path, kindOf c ≠ .files → holds (env c s).2 path = holds s path

namespace FileView

variable {σ : Type} {env : Environment (cameras.sum host) σ} (view : FileView env)

theorem holds_after (s : σ) (path : String) {h : History} (hh : ∀ e ∈ h, kindOf e.call ≠ .files) :
    view.holds (env.after s h) path = view.holds s path := by
  induction h generalizing s with
  | nil => rfl
  | cons e h ih =>
    rw [Environment.after_cons, ih _ fun e' he' => hh e' (List.mem_cons_of_mem e he')]
    exact view.kept e.call s path (hh e List.mem_cons_self)

end FileView

def Obliging.fileView : FileView Obliging.world where
  holds o path := o.files path
  written s path data _ := by simp [Obliging.world, Obliging.answerHost]
  renamed s source target _ := by simp [Obliging.world, Obliging.answerHost]
  kept c s path hc := by
    rcases c with c | c
    · cases c with
      | transfer channel packet timeout =>
        simp only [Obliging.world, Obliging.answerCamera, Obliging.transfer]
        split
        · split <;> rfl
        · split <;> rfl
      | _ => rfl
    · cases c with
      | localTime => rfl
      | createDirs path => rfl
      | writeFile path data => exact absurd rfl hc
      | rename source target => exact absurd rfl hc
      | readFile path => rfl
      | _ => rfl

namespace Flash

variable {dir identity path : String} {flash : Bytes} {h : History}

theorem only_persist : (persist dir identity flash).Only (ofKinds [.files, .log]) := by
  refine Attempt.only_bind (Attempt.only_of (only_tell.mpr (by simp))) fun _ => ?_
  refine Attempt.only_bind (Attempt.only_lift (only_tell.mpr (by simp))) fun seconds => ?_
  refine Attempt.only_bind (Attempt.only_of (only_tell.mpr (by simp))) fun _ => ?_
  refine Attempt.only_bind (Attempt.only_of (only_tell.mpr (by simp))) fun _ => ?_
  exact Attempt.only_bind (Attempt.only_lift (only_report.mpr (by simp))) fun _ => Attempt.only_pure _

theorem stallsAfter_persist {P : (cameras.sum host).Call → Prop} : (persist dir identity flash).StallsAfter P := by
  refine Attempt.stallsAfter_bind (Attempt.stallsAfter_of (stallsAfter_tell _)) fun _ => ?_
  refine Attempt.stallsAfter_bind (Attempt.stallsAfter_lift (stallsAfter_tell _)) fun seconds => ?_
  refine Attempt.stallsAfter_bind (Attempt.stallsAfter_of (stallsAfter_tell _)) fun _ => ?_
  refine Attempt.stallsAfter_bind (Attempt.stallsAfter_of (stallsAfter_tell _)) fun _ => ?_
  exact Attempt.stallsAfter_bind (Attempt.stallsAfter_lift (stallsAfter_report _ _)) fun _ =>
    Attempt.stallsAfter_pure _

/-- What a backup that was kept called: directory, time, file, rename, in this order and all of them well. -/
theorem finishes_persist_ok (hf : (persist dir identity flash).Finishes h (.ok path)) : ∃ seconds note,
    path = joinPath dir (backupFileName identity (CalendarTime.ofSeconds seconds)) ∧
      h = [.told (.createDirs dir) (some (.ok ())), .told .localTime (some seconds),
        .told (.writeFile (partPath path) flash) (some (.ok ())),
        .told (.rename (partPath path) path) (some (.ok ())), .told (.log note) (some ())] := by
  simp only [persist, atPath, Attempt.finishes_bind_ok, Attempt.finishes_of_ok,
    Attempt.finishes_lift_ok, finishes_tell, finishes_report, Attempt.finishes_pure, Except.ok.injEq] at hf
  obtain ⟨u, h₁, h₂, rfl, rfl, seconds, h₃, h₄, rfl, rfl, u', h₅, h₆, rfl, rfl, u'', h₇, h₈, rfl,
      rfl, u₃, h₉, h₁₀, rfl, rfl, rfl, rfl⟩ := hf
  exact ⟨seconds, _, rfl, rfl⟩

/-- What a backup that was not kept called: all went well up to the last step, which failed, and
the error has its path. -/
theorem finishes_persist_error_at {e : BackupError} (hf : (persist dir identity flash).Finishes h (.error e)) :
    (∃ cause, e = .file dir cause ∧ h = [.told (.createDirs dir) (some (.error cause))]) ∨
      ∃ seconds cause path, path = joinPath dir (backupFileName identity (CalendarTime.ofSeconds seconds)) ∧
        ((e = .file (partPath path) cause ∧
            h = [.told (.createDirs dir) (some (.ok ())), .told .localTime (some seconds),
              .told (.writeFile (partPath path) flash) (some (.error cause))]) ∨
          (e = .file path cause ∧
            h = [.told (.createDirs dir) (some (.ok ())), .told .localTime (some seconds),
              .told (.writeFile (partPath path) flash) (some (.ok ())),
              .told (.rename (partPath path) path) (some (.error cause))])) := by
  simp only [persist, atPath, Attempt.finishes_bind_error, Attempt.finishes_of_error, Attempt.finishes_of_ok,
    Attempt.finishes_lift_ok, Attempt.not_finishes_lift_error, finishes_tell,
    Attempt.finishes_pure, false_or] at hf
  rcases hf with ⟨cause, rfl, rfl⟩ | ⟨u, h₁, h₂, rfl, rfl, seconds, h₃, h₄, rfl, rfl, ⟨cause, rfl, rfl⟩ |
    ⟨u', h₅, h₆, rfl, rfl, ⟨cause, rfl, rfl⟩ | ⟨u'', h₇, h₈, rfl, rfl, hf⟩⟩⟩
  · exact .inl ⟨cause, rfl, rfl⟩
  · exact .inr ⟨seconds, cause, _, rfl, .inl ⟨rfl, rfl⟩⟩
  · exact .inr ⟨seconds, cause, _, rfl, .inr ⟨rfl, rfl⟩⟩
  · simp at hf

/-- A dump is not kept where a step at the files fails; that step is the last one. -/
theorem finishes_persist_error {e : BackupError} (hf : (persist dir identity flash).Finishes h (.error e)) :
    ∃ pre cause, (∃ path, e = .file path cause) ∧
      (h = pre ++ [.told (.createDirs dir) (some (.error cause))] ∨
        (∃ path, h = pre ++ [.told (.writeFile (partPath path) flash) (some (.error cause))]) ∨
          ∃ path, h = pre ++ [.told (.rename (partPath path) path) (some (.error cause))]) := by
  rcases finishes_persist_error_at hf with ⟨cause, rfl, rfl⟩ | ⟨seconds, cause, path, -, ⟨rfl, rfl⟩ | ⟨rfl, rfl⟩⟩
  · exact ⟨[], cause, ⟨_, rfl⟩, .inl rfl⟩
  · exact ⟨[_, _], cause, ⟨_, rfl⟩, .inr (.inl ⟨_, rfl⟩)⟩
  · exact ⟨[_, _, _], cause, ⟨_, rfl⟩, .inr (.inr ⟨_, rfl⟩)⟩

/-- The path that is returned holds the dump. -/
theorem holds_persist {σ : Type} {env : Environment (cameras.sum host) σ} (view : FileView env) {s : σ}
    (hgives : env.Gives s h) (hf : (persist dir identity flash).Finishes h (.ok path)) :
    view.holds (env.after s h) path = some flash := by
  obtain ⟨seconds, note, hpath, rfl⟩ := finishes_persist_ok hf
  obtain ⟨hdirs, htime, hwrite, hrename, hlog, -⟩ := hgives
  simp only [Environment.after_cons, Environment.after_nil]
  rw [view.kept _ _ _ (by simp), view.renamed _ _ _ hrename, view.written _ _ _ hwrite]

/-! ## Dumps that are kept, and faults -/

/-- The flash was read whole, and the dump was kept at `path`; nothing else was done to the files. -/
def Saved (camera : Camera) (config : BackupConfig) (identity path : String) (flash : Bytes) (h : History) :
    Prop :=
  Dumped camera config flash h ∧ ∃ pre kept post, h = pre ++ (kept ++ post) ∧
    (persist config.dir identity flash).Finishes kept (.ok path) ∧
    (∀ e ∈ pre, kindOf e.call ≠ .files) ∧ ∀ e ∈ post, kindOf e.call ≠ .files

/-- A chunk was given up, or the directory or the file could not be written. -/
inductive Fault (camera : Camera) (config : BackupConfig) (h : History) : Prop
  | chunk {i : Nat} : i < config.count → GivenUp camera config i h → Fault camera config h
  | directory {path : String} {e : FileError} : .told (.createDirs path) (some (.error e)) ∈ h →
      Fault camera config h
  | write {path : String} {data : Bytes} {e : FileError} :
      .told (.writeFile path data) (some (.error e)) ∈ h → Fault camera config h
  | rename {source target : String} {e : FileError} :
      .told (.rename source target) (some (.error e)) ∈ h → Fault camera config h

variable {camera : Camera} {config : BackupConfig} {h' : History} {kinds : List CallKind}

theorem Saved.append_left (hs : Saved camera config identity path flash h) (hh : Within kinds h')
    (hexchange : .exchange ∉ kinds) (hfiles : .files ∉ kinds) :
    Saved camera config identity path flash (h' ++ h) := by
  obtain ⟨hdumped, pre, kept, post, rfl, hkept, hpre, hpost⟩ := hs
  refine ⟨hdumped.congr fun i => ?_, h' ++ pre, kept, post, by simp, hkept, fun e he => ?_, hpost⟩
  · rw [readings_append, readings_eq_nil (hh.ne hexchange), List.nil_append]
  · rcases List.mem_append.mp he with he | he
    · exact hh.ne hfiles e he
    · exact hpre e he

theorem Saved.append_right (hs : Saved camera config identity path flash h) (hh : Within kinds h')
    (hexchange : .exchange ∉ kinds) (hfiles : .files ∉ kinds) :
    Saved camera config identity path flash (h ++ h') := by
  obtain ⟨hdumped, pre, kept, post, rfl, hkept, hpre, hpost⟩ := hs
  refine ⟨hdumped.congr fun i => ?_, pre, kept, post ++ h', by simp, hkept, hpre, fun e he => ?_⟩
  · rw [readings_append, readings_eq_nil (hh.ne hexchange), List.append_nil]
  · rcases List.mem_append.mp he with he | he
    · exact hpost e he
    · exact hh.ne hfiles e he

/-- A backup is named after the unit, and lies in the backup directory. -/
theorem Saved.path_eq (hs : Saved camera config identity path flash h) :
    ∃ seconds, path = joinPath config.dir (backupFileName identity (CalendarTime.ofSeconds seconds)) := by
  obtain ⟨-, pre, kept, post, -, hkept, -, -⟩ := hs
  obtain ⟨seconds, -, hpath, -⟩ := finishes_persist_ok hkept
  exact ⟨seconds, hpath⟩

/-- A backup that was kept is in its file. -/
theorem Saved.holds {σ : Type} {env : Environment (cameras.sum host) σ} {s : σ} (view : FileView env)
    (hgives : env.Gives s h) (hs : Saved camera config identity path flash h) :
    view.holds (env.after s h) path = some flash := by
  obtain ⟨-, pre, kept, post, rfl, hkept, -, hpost⟩ := hs
  have hgives' := ((env.gives_append s pre _).mp hgives).2
  rw [env.after_append, env.after_append, view.holds_after _ _ hpost]
  exact holds_persist view ((env.gives_append _ kept post).mp hgives').1 hkept

theorem Saved.not_fault (hs : Saved camera config identity path flash h) : ¬ Fault camera config h := by
  obtain ⟨hdumped, pre, kept, post, rfl, hkept, hpre, hpost⟩ := hs
  -- Whatever was done to the files was done while the dump was kept.
  have hmem : ∀ e ∈ pre ++ (kept ++ post), kindOf e.call = .files → e ∈ kept := by
    intro e he hkind
    simp only [List.mem_append] at he
    rcases he with he | he | he
    · exact absurd hkind (hpre e he)
    · exact he
    · exact absurd hkind (hpost e he)
  obtain ⟨seconds, note, -, rfl⟩ := finishes_persist_ok hkept
  intro hfault
  cases hfault with
  | chunk hi hup => exact hdumped.not_givenUp hi hup
  | directory he => simpa using hmem _ he rfl
  | write he => simpa using hmem _ he rfl
  | rename he => simpa using hmem _ he rfl

theorem not_fault_of_within (hh : Within kinds h) (hexchange : .exchange ∉ kinds) (hfiles : .files ∉ kinds) :
    ¬ Fault camera config h := by
  intro hfault
  cases hfault with
  | chunk hi hup => exact not_givenUp_of_readings_eq_nil (readings_eq_nil (hh.ne hexchange)) hup
  | directory he => exact hh.ne hfiles _ he rfl
  | write he => exact hh.ne hfiles _ he rfl
  | rename he => exact hh.ne hfiles _ he rfl

end Flash

end Reflash
