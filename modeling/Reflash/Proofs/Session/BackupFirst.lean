import Reflash.Proofs.Session.Outcome

/-!
# Reflash.Proofs.Session.BackupFirst — no restart without a backup

A camera in normal mode is restarted at most once, and not before its identity was read and, if it has a
hardware monitor, its flash lies in a file (`backup_before_restart`).  The calls after the backup use neither
the monitor nor the files (`laterKinds`), so the restart finds the backup as it was left, and a session with a
fault never comes so far.
-/

namespace Reflash

open Program

namespace Session

variable {config : UpdateConfig} {image : FirmwareImage} {camera : Camera} {backup : BackupConfig}
  {identity : String} {h : History}

/-! ## One restart -/

theorem once_switchMode (camera : Camera) :
    (switchMode camera).Once [.stop, .log, .record] (.enterRecovery camera) := by
  refine Attempt.once_bind_of_only (only_ensureLive (by simp)) fun _ => ?_
  refine Attempt.once_bind_of_only (Attempt.only_lift (only_enterPhase (by simp) (by simp) rfl)) fun _ => ?_
  exact Attempt.once_bind (Attempt.once_ask fun h => begins_ask.mp) fun _ =>
    Attempt.only_lift (only_note (by simp) (by simp) _)

theorem restart_mem_kinds {stage : Stage} :
    CallKind.restart ∈ stage.kinds ↔ ∃ camera identity, stage = .switching camera identity := by
  cases stage <;> simp [Stage.kinds]

theorem countOf_restart_le_one (hb : (run config image camera).Begins h) : countOf .restart h ≤ 1 := by
  refine countOf_run_le_one (by simp) (fun stage hmem => ?_) (by decide : 0 < 8) (fun stage hmem h' hb' => ?_) hb
  · obtain ⟨camera', identity, rfl⟩ := restart_mem_kinds.mp hmem
    rfl
  · obtain ⟨camera', identity, rfl⟩ := restart_mem_kinds.mp hmem
    exact (once_switchMode camera' h' (Attempt.begins_bind_pure.mp hb')).countOf_le_one (by simp)

/-! ## What was backed up -/

/-- A camera that has a hardware monitor is backed up where that is wanted; one that has none is left alone. -/
theorem saved_of_secure (hbackup : config.backup = some backup)
    (hf : (secure config camera identity).Finishes h (.ok ())) :
    (∃ path flash, Flash.Saved camera backup identity path flash h) ∨
      Within [.openMonitor, .log, .record] h ∧ .asked (.openMonitor camera) (some true) ∉ h := by
  obtain ⟨offered, h', rfl, ⟨rfl, hbackUp⟩ | ⟨rfl, hquiet⟩⟩ := finishes_secure_ok hbackup hf
  · obtain ⟨path, flash, hsaved⟩ := finishes_backUp_ok hbackUp
    have hopen : Within [.openMonitor] [.asked (.openMonitor camera) (some true)] := by simp
    exact .inl ⟨path, flash, hsaved.append_left hopen (by simp) (by simp)⟩
  · refine .inr ⟨within_cons.mpr ⟨by simp, hquiet.mono (by simp)⟩, fun hmem => ?_⟩
    rcases List.mem_cons.mp hmem with heq | hmem
    · simp at heq
    · exact hquiet.not_mem (by simp) hmem

/-- What an update may call once the backup is behind. -/
@[simp] def laterKinds : List CallKind :=
  [.stop, .log, .record, .restart, .clock, .list, .identity, .openControl, .transfer, .firmware]

theorem later_of_left_le {stage : Stage} (hleft : stage.left ≤ 8) : ∀ k ∈ stage.kinds, k ∈ laterKinds := by
  cases stage <;> simp [Stage.left, Stage.kinds] at hleft ⊢

theorem early_of_lt_left {stage : Stage} (hleft : 8 < stage.left) :
    ∀ k ∈ stage.kinds, k ∈ .identity :: secureKinds := by
  cases stage <;> simp [Stage.left, Stage.kinds] at hleft ⊢

/-- An update of a camera in normal mode has not come to the switch of its mode yet, or it knows the
unit and has secured it. -/
theorem begins_attempt_of_normal (hnormal : camera.kind.isRecovery = false)
    (hb : (attempt config image camera).Begins h) :
    Within (.identity :: secureKinds) h ∨ ∃ identity h₁ h₂ h₃, h = h₁ ++ (h₂ ++ h₃) ∧
      (identify camera).Finishes h₁ (.ok identity) ∧ (secure config camera identity).Finishes h₂ (.ok ()) ∧
        Within laterKinds h₃ := by
  have hleft : 8 ≤ (Stage.start camera).left := by simp [Stage.start, hnormal, Stage.left]
  rw [attempt_eq] at hb
  rcases Stage.begins_complete_at rfl hleft hb with ⟨stage, h₁, h₂, hlt, rfl, hw, hadv⟩ |
    ⟨stage, h₁, h₃, heq, rfl, hw, hrest⟩
  · refine .inl (within_append.mpr ⟨?_, ?_⟩)
    · exact hw.calls fun b hb => early_of_lt_left (Nat.lt_trans hlt hb)
    · exact fun e he => early_of_lt_left hlt _ (Stage.within_of_begins_advance hadv e he)
  · cases stage with
    | switching camera' identity =>
      obtain ⟨rfl, -, h₄, h₅, rfl, hidentify, hsecure⟩ := Stage.walk_switching hw
      refine .inr ⟨identity, h₄, h₅, h₃, by simp, hidentify, hsecure, ?_⟩
      exact Stage.kinds_of_begins_complete (a := .switching camera' identity) (fun _ => later_of_left_le) hrest
    | _ => cases heq

/-- What an update must not do when its backup fails. -/
@[simp] def irreversibleKinds : List CallKind := [.restart, .list, .openControl, .transfer]

theorem not_irreversible_of_fault (hnormal : camera.kind.isRecovery = false)
    (hbackup : config.backup = some backup) (hb : (run config image camera).Begins h)
    (hfault : Flash.Fault camera backup h) :
    ∀ e ∈ h, kindOf e.call ∉ irreversibleKinds := by
  obtain ⟨h₀, h₁, h₂, rfl, hnote, hatt, hend⟩ := parts_of_begins hb
  rcases begins_attempt_of_normal hnormal hatt with hearly | ⟨identity, h₃, h₄, h₅, rfl, hid, hsecure, hlater⟩
  · have hall : Within (.verdict :: .identity :: secureKinds) (h₀ ++ (h₁ ++ h₂)) :=
      within_append.mpr ⟨hnote.mono (by simp),
        within_append.mpr ⟨hearly.mono (by simp), hend.mono (by simp)⟩⟩
    intro e he hmem
    have := hall e he
    revert hmem this
    cases kindOf e.call <;> simp
  · -- The backup ended well, and no other part of the session uses the monitor or the files.
    have hid' := (only_identify camera).within hid.begins
    refine absurd hfault ?_
    rcases saved_of_secure hbackup hsecure with ⟨path, flash, hsaved⟩ | ⟨hquiet, -⟩
    · have hsession := ((hsaved.append_right hlater (by simp) (by simp)).append_left hid'
        (by simp) (by simp)).append_right hend (by simp) (by simp)
      exact (hsession.append_left hnote (by simp) (by simp)).not_fault
    · have hall : Within (.openMonitor :: .verdict :: laterKinds) (h₀ ++ (h₃ ++ (h₄ ++ h₅) ++ h₂)) := by
        simp only [within_append]
        exact ⟨hnote.mono (by simp),
          ⟨hid'.mono (by simp), hquiet.mono (by simp), hlater.mono (by simp)⟩, hend.mono (by simp)⟩
      exact Flash.not_fault_of_within hall (by simp) (by simp)

theorem not_stalled_of_not_restarted {σ : Type} {env : Environment (cameras.sum host) σ} {s : σ}
    (hnormal : camera.kind.isRecovery = false)
    (hnone : ∀ e ∈ (run config image camera).history env s, kindOf e.call ≠ .restart) :
    ((run config image camera).run env s).1 ≠ .stalled := by
  have hatt : (attempt config image camera).StallsAfter fun c => kindOf c = .restart := by
    rw [attempt, hnormal]
    refine Attempt.stallsAfter_bind (stallsAfter_identify _) fun identity => ?_
    exact Attempt.stallsAfter_bind (stallsAfter_secure _ _ _) fun _ => stallsAfter_switchMode_bind rfl
  intro hstalled
  obtain ⟨e, he, hrestart⟩ := (stallsAfter_run hatt).exists_call hstalled
  exact hnone e he hrestart

theorem restarted_of_done {σ : Type} {env : Environment (cameras.sum host) σ} {s : σ}
    (hnormal : camera.kind.isRecovery = false) (hdone : result env s (run config image camera) = .done) :
    .asked (.enterRecovery camera) (some (.ok ())) ∈ (run config image camera).history env s := by
  obtain ⟨h₀, h₁, h₂, heq, -, hw, -⟩ := completed_of_done hdone
  obtain ⟨target, channel, identity?, status, transaction, status', h₃, h₄, h₅, h₆, h₇, h₈, notes,
      h₉, rfl, hw, -⟩ :=
    hw.programmed
  rcases Stage.walk_opening hw with ⟨hmode, -, -⟩ | ⟨-, identity, h₁₀, h₁₁, -, rfl, hw, -⟩
  · rw [hnormal] at hmode
    cases hmode
  · obtain ⟨h₁₂, h₁₃, rfl, -, hswitch⟩ := Stage.walk_finding hw
    obtain ⟨pre, post, rfl, -, -⟩ := finishes_switchMode_ok hswitch
    rw [heq]
    simp

/-! ## The guarantee -/

/-- No camera is restarted before its backup is kept: a session restarts at most one camera, once, its own;
by then the camera has given an identity, and if it has a hardware monitor and a backup is wanted, the backup
file holds the whole flash.  Where the backup has a fault, nothing irreversible happens, and the session
comes to an end and fails. -/
theorem backup_before_restart {σ : Type} (env : Environment (cameras.sum host) σ) (s : σ) {session : Action Unit}
    (hstart : start config camera image = .ok session) (hnormal : camera.kind.isRecovery = false) :
    countOf .restart (session.history env s) ≤ 1 ∧
    (∀ before c a? after, session.history env s = before ++ .asked (.enterRecovery c) a? :: after →
      c = camera ∧ ∃ identity, identity ≠ "" ∧ Identified camera identity before ∧
        ∀ backup, config.backup = some backup → .asked (.openMonitor camera) (some true) ∈ before →
          ∃ path flash, Flash.Saved camera backup identity path flash before ∧
            (∃ seconds, path =
              Flash.joinPath backup.dir (Flash.backupFileName identity (CalendarTime.ofSeconds seconds))) ∧
            flash.length = backup.flashSize.toNat ∧
            ∀ view : FileView env, view.holds (env.after s before) path = some flash) ∧
    ∀ backup, config.backup = some backup → Flash.Fault camera backup (session.history env s) →
      (∀ e ∈ session.history env s, kindOf e.call ∉ irreversibleKinds) ∧
        (session.run env s).1 ≠ .stalled ∧ ∃ reason, result env s session = .failed reason := by
  obtain ⟨-, -, rfl⟩ := start_eq_ok.mp hstart
  have hbegins := begins_history env (run config image camera) s
  refine ⟨countOf_restart_le_one hbegins, fun before c a? after heq => ?_, fun backup hbackup hfault => ?_⟩
  · rw [heq, List.append_cons] at hbegins
    obtain ⟨h₀, h₁, h₂, stage, rfl, hnote, hwalk, hadv, hkind⟩ := stage_of_call hbegins.of_append (by simp)
    obtain ⟨camera', identity, rfl⟩ := restart_mem_kinds.mp hkind
    obtain ⟨rfl, -, h₃, h₄, rfl, hidentify, hsecure⟩ := Stage.walk_switching hwalk
    -- Of the switch itself nothing but the note that it begins is before the restart.
    obtain ⟨hc, hswitch⟩ := (once_switchMode camera' _ (Attempt.begins_bind_pure.mp hadv)).of_concat (by simp)
    obtain rfl := CameraCall.enterRecovery.inj hc
    have hid : Identified c identity h₃ := by
      obtain ⟨pre, own, post, rfl, -, hown, -⟩ := finishes_identify_ok hidentify
      exact (Identified.of_finishes hown).append_right.append_left
    refine ⟨rfl, identity, hid.ne_empty, hid.append_right.append_right.append_left,
      fun backup hbackup hmonitor => ?_⟩
    have hnote' := only_noteImage.within hnote.begins
    have hidentify' := (only_identify c).within hidentify.begins
    rcases saved_of_secure hbackup hsecure with ⟨path, flash, hsaved⟩ | ⟨-, hnone⟩
    · have hbefore := ((hsaved.append_left hidentify' (by simp) (by simp)).append_right hswitch (by simp)
        (by simp)).append_left hnote' (by simp) (by simp)
      refine ⟨path, flash, hbefore, hbefore.path_eq, hbefore.1.length_eq, fun view => hbefore.holds view ?_⟩
      have hgives := env.gives_history (run config image c) s
      rw [heq] at hgives
      exact ((env.gives_append s _ _).mp hgives).1
    · simp only [List.mem_append] at hmonitor
      rcases hmonitor with hmem | (hmem | hmem) | hmem
      · exact absurd hmem (hnote'.not_mem (by simp))
      · exact absurd hmem (hidentify'.not_mem (by simp))
      · exact absurd hmem hnone
      · exact absurd hmem (hswitch.not_mem (by simp))
  · have hquiet := not_irreversible_of_fault hnormal hbackup hbegins hfault
    have hnone : ∀ e ∈ (run config image camera).history env s, kindOf e.call ≠ .restart := fun e he hrestart =>
      hquiet e he (hrestart ▸ List.mem_cons_self)
    refine ⟨hquiet, not_stalled_of_not_restarted hnormal hnone, exists_failed_of_ne_done fun hdone => ?_⟩
    exact hquiet _ (restarted_of_done hnormal hdone) (by simp)

/-- A unit with three bytes of flash: they are in a file when the unit is restarted. -/
theorem backup_before_restart_obliging :
    let o : Obliging := { camera := Obliging.unit }
    let h := (run Obliging.config Obliging.image Obliging.unit).history Obliging.world o
    start Obliging.config Obliging.unit Obliging.image = .ok (run Obliging.config Obliging.image Obliging.unit) ∧
      countOf .restart h = 1 ∧ ∃ before a? after path flash,
        h = before ++ .asked (.enterRecovery Obliging.unit) a? :: after ∧ flash.length = 3 ∧
          Obliging.fileView.holds (Obliging.world.after o before) path = some flash := by
  intro o h
  have hstart : start Obliging.config Obliging.unit Obliging.image =
      .ok (run Obliging.config Obliging.image Obliging.unit) := start_eq_ok.mpr ⟨by decide +kernel, .inr rfl, rfl⟩
  have hmonitor : .asked (.openMonitor Obliging.unit) (some true) ∈ h.take 33 := by decide +kernel
  have hrestart : (h.drop 33).head? = some (.asked (.enterRecovery Obliging.unit) (some (.ok ()))) := by
    decide +kernel
  obtain ⟨after, hafter⟩ := List.head?_eq_some_iff.mp hrestart
  have hsplit : h = h.take 33 ++ .asked (.enterRecovery Obliging.unit) (some (.ok ())) :: after := by
    rw [← hafter, List.take_append_drop]
  obtain ⟨-, hbefore, -⟩ := backup_before_restart Obliging.world o hstart rfl
  obtain ⟨-, identity, -, -, hbacked⟩ := hbefore _ _ _ _ hsplit
  obtain ⟨path, flash, -, -, hlen, hfile⟩ := hbacked Obliging.backup rfl hmonitor
  exact ⟨hstart, by decide +kernel, _, _, after, path, flash, hsplit, hlen, hfile Obliging.fileView⟩

end Session

end Reflash
