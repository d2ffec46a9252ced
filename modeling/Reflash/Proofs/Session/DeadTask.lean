import Reflash.Proofs.Session.FinalRecord
import Reflash.Session.Follower

/-!
# Reflash.Proofs.Session.DeadTask — a session whose task dies

Where a call kills the task of a session, the record stays as the task left it, which is underway: a follower,
who stops at the first record that is done, never stops.  Who waits for the session is told that it failed, and
the record is closed by that; but its log is what the task left, and the line that tells the user that nothing
is lost (`reassurance`), with which the log of every other failed session ends, is not in it
(`dead_task_is_never_seen_done`).  For until its end a session does not write that line, whatever its cameras
are called (`Stage.withholds_advance`).
-/

namespace Reflash

open Program

namespace Session

/-! ## What a session does not say -/

/-- Each line that a session notes before its end has one of these pieces. -/
def linePieces : List String :=
  [", CRC32 0x", "image firmware version ", ")", "backing up camera flash memory",
    "device does not support flash backup, skipping",
    "device switching to recovery mode", "recovery device connected: ", " is already in recovery mode",
    "sending firmware image",
    "firmware download completed successfully", "waiting for the device to reconnect",
    " reconnected with firmware ",
    " reconnected", "device serial unavailable in recovery mode, skipping reconnect check"]

theorem not_infix_reassurance : ∀ piece ∈ linePieces, ¬ piece.toList <:+: reassurance.toList := by decide +kernel

section Lines

variable {piece line : String}

theorem ne_reassurance (hpiece : piece ∈ linePieces) (hline : piece.toList <:+: line.toList) :
    line ≠ reassurance := by
  rintro rfl
  exact not_infix_reassurance piece hpiece hline

theorem ne_reassurance_of_mem (hline : line ∈ linePieces) : line ≠ reassurance :=
  ne_reassurance hline List.infix_rfl

theorem ne_reassurance_of_head (hpiece : piece ∈ linePieces) (tail : String) : piece ++ tail ≠ reassurance := by
  refine ne_reassurance hpiece ?_
  rw [String.toList_append]
  exact (List.prefix_append _ _).isInfix

theorem ne_reassurance_of_tail (hpiece : piece ∈ linePieces) (head : String) : head ++ piece ≠ reassurance := by
  refine ne_reassurance hpiece ?_
  rw [String.toList_append]
  exact (List.suffix_append _ _).isInfix

theorem ne_reassurance_of_middle (hpiece : piece ∈ linePieces) (head tail : String) :
    head ++ piece ++ tail ≠ reassurance := by
  refine ne_reassurance hpiece ?_
  rw [String.toList_append, String.toList_append]
  exact List.infix_append _ _ _

end Lines

/-- Any call but the line that tells the user that nothing is lost. -/
def Withholds (c : (cameras.sum host).Call) : Prop := c ≠ .inr (.write (.log reassurance))

theorem withholds_of_ne {c : (cameras.sum host).Call} (hc : kindOf c ≠ .record) : Withholds c := by
  rintro rfl
  exact hc rfl

theorem withholds_of_ofKinds {kinds : List CallKind} (hkinds : .record ∉ kinds) (c : (cameras.sum host).Call)
    (hc : ofKinds kinds c) : Withholds c :=
  withholds_of_ne fun hrecord => hkinds (hrecord ▸ hc)

theorem withholds_of_traffic {channel : ControlChannel} (c : (cameras.sum host).Call)
    (hc : Dfu.Traffic channel c) :
    Withholds c := by
  rcases hc with ⟨packet, timeout, rfl⟩ | hc
  · exact withholds_of_ne (by simp)
  · exact withholds_of_ofKinds (by simp) c hc

section Steps

variable {config : UpdateConfig} {image : FirmwareImage} {camera : Camera} {identity : String}

theorem withholds_quiet {α : Type} {kinds : List CallKind} {p : Action α} (hp : p.Only (ofKinds kinds))
    (hkinds : .record ∉ kinds) : p.Only Withholds :=
  hp.mono (withholds_of_ofKinds hkinds)

theorem withholds_note {line : String} (hline : line ≠ reassurance) : (note line).Only Withholds := by
  refine only_bind (only_tell.mpr (withholds_of_ne (by simp))) fun _ => only_tell.mpr fun heq => hline ?_
  cases heq
  rfl

theorem withholds_enterPhase (phase : Phase) : (enterPhase phase).Only Withholds :=
  only_bind (only_tell.mpr (withholds_of_ne (by simp))) fun _ => only_tell.mpr nofun

theorem withholds_setProgress (n : Nat) : (setProgress n).Only Withholds := only_tell.mpr nofun

theorem withholds_ensureLive : ensureLive.Only Withholds :=
  withholds_quiet (only_ensureLive (by simp : .stop ∈ [CallKind.stop])) (by simp)

theorem withholds_identify : (identify camera).Only Withholds := by
  have hid : (identityOf camera).Only Withholds :=
    withholds_quiet (only_identityOf (by simp : .identity ∈ [CallKind.identity, .log]) (by simp)) (by simp)
  refine Attempt.only_bind withholds_ensureLive fun _ => Attempt.only_bind (Attempt.only_of hid) fun identity? =>
    ?_
  split
  · exact Attempt.only_throw _
  · refine Attempt.only_bind (Attempt.only_lift (withholds_note ?_)) fun _ => Attempt.only_pure _
    exact ne_reassurance_of_tail (by simp [linePieces]) _

theorem withholds_backUp {backup : BackupConfig} : (backUp camera backup identity).Only Withholds := by
  have hread : (Flash.read camera backup (fun x => setProgress (backup.scaleProgress x)) true).Only Withholds :=
    Flash.only_read_of (fun _ _ => withholds_of_ne (by simp)) (withholds_of_ne (by simp))
      (fun _ => withholds_of_ne (by simp)) (fun _ => withholds_setProgress _) true
  refine Attempt.only_bind (Attempt.only_lift (withholds_enterPhase _)) fun _ => ?_
  refine Attempt.only_bind (Attempt.only_lift (withholds_setProgress _)) fun _ => ?_
  refine Attempt.only_bind (Attempt.only_lift (withholds_note (ne_reassurance_of_mem (by simp [linePieces]))))
    fun _ => ?_
  refine Attempt.only_bind (Attempt.only_of hread) fun flash => ?_
  refine Attempt.only_bind (Attempt.only_of (withholds_quiet Flash.only_persist (by simp))) fun path => ?_
  refine Attempt.only_bind (Attempt.only_lift (withholds_note ?_)) fun _ =>
    Attempt.only_lift (withholds_setProgress _)
  exact ne_reassurance_of_tail (by simp [linePieces]) _

theorem withholds_secure : (secure config camera identity).Only Withholds := by
  unfold secure
  split
  · exact Attempt.only_pure _
  · refine Attempt.only_bind (Attempt.only_lift (only_ask.mpr (withholds_of_ne (by simp)))) fun offered => ?_
    split
    · exact withholds_backUp
    · exact Attempt.only_lift (withholds_note (ne_reassurance_of_mem (by simp [linePieces])))

theorem withholds_switchMode : (switchMode camera).Only Withholds := by
  refine Attempt.only_bind withholds_ensureLive fun _ => ?_
  refine Attempt.only_bind (Attempt.only_lift (withholds_enterPhase _)) fun _ => ?_
  refine Attempt.only_bind (Attempt.only_of (only_ask.mpr (withholds_of_ne (by simp)))) fun _ => ?_
  exact Attempt.only_lift (withholds_note (ne_reassurance_of_mem (by simp [linePieces])))

theorem withholds_search {s : Search} : s.run.Only Withholds := withholds_quiet Search.only_run (by simp)

theorem withholds_findRecovery : (findRecovery config identity).Only Withholds := by
  refine Attempt.only_bind withholds_ensureLive fun _ => ?_
  refine Attempt.only_bind (Attempt.only_lift (withholds_enterPhase _)) fun _ => ?_
  refine Attempt.only_bind (Attempt.only_of withholds_search) fun recovery => ?_
  refine Attempt.only_bind (Attempt.only_lift (withholds_note (ne_reassurance_of_head (by simp [linePieces]) _)))
    fun _ => ?_
  exact Attempt.only_bind (Attempt.only_lift (withholds_setProgress _)) fun _ => Attempt.only_pure _

theorem withholds_recognise : (recognise camera).Only Withholds := by
  refine only_bind (withholds_note (ne_reassurance_of_tail (by simp [linePieces]) _)) fun _ => ?_
  refine only_bind ?_ fun identity? => only_bind (withholds_setProgress _) fun _ => trivial
  refine only_bind (withholds_quiet (only_identityOf (by simp : .identity ∈ [CallKind.identity, .log]) (by simp))
    (by simp)) fun reply => ?_
  split
  · trivial
  · exact only_bind (only_report.mpr (withholds_of_ne (by simp))) fun _ => trivial

theorem withholds_openChannel : (openChannel camera).Only Withholds := by
  refine Attempt.only_bind withholds_ensureLive fun _ => ?_
  refine Attempt.only_bind (Attempt.only_lift (withholds_enterPhase _)) fun _ => ?_
  refine Attempt.only_bind (Attempt.only_lift (withholds_note (ne_reassurance_of_mem (by simp [linePieces]))))
    fun _ => ?_
  exact Attempt.only_of (only_ask.mpr (withholds_of_ne (by simp)))

theorem withholds_awaitReturn (identity? : Option String) : (awaitReturn config identity?).Only Withholds := by
  cases identity? with
  | none => exact Attempt.only_lift (withholds_note (ne_reassurance_of_mem (by simp [linePieces])))
  | some identity =>
    refine Attempt.only_bind withholds_ensureLive fun _ => ?_
    refine Attempt.only_bind (Attempt.only_lift (withholds_enterPhase _)) fun _ => ?_
    refine Attempt.only_bind (Attempt.only_lift (withholds_note (ne_reassurance_of_mem (by simp [linePieces]))))
      fun _ => ?_
    refine Attempt.only_bind (Attempt.only_of withholds_search) fun camera => ?_
    refine Attempt.only_bind (Attempt.only_lift (only_ask.mpr (withholds_of_ne (by simp)))) fun version => ?_
    split
    · exact Attempt.only_bind (Attempt.only_lift
        (withholds_note (ne_reassurance_of_middle (by simp [linePieces]) _ _))) fun _ =>
        Attempt.only_lift (withholds_setProgress _)
    · exact Attempt.only_bind (Attempt.only_lift
        (withholds_note (ne_reassurance_of_tail (by simp [linePieces]) _))) fun _ =>
        Attempt.only_lift (withholds_setProgress _)

theorem withholds_heedTransfer (x : Single) : (heedTransfer x).Only Withholds := withholds_setProgress _

theorem Stage.withholds_advance (a : Stage) : (a.advance config image).Only Withholds := by
  cases a with
  | identifying camera => exact Attempt.only_bind withholds_identify fun _ => Attempt.only_pure _
  | securing camera identity => exact Attempt.only_bind withholds_secure fun _ => Attempt.only_pure _
  | switching camera identity => exact Attempt.only_bind withholds_switchMode fun _ => Attempt.only_pure _
  | finding identity => exact Attempt.only_bind withholds_findRecovery fun _ => Attempt.only_pure _
  | recognising camera =>
    exact Attempt.only_bind (Attempt.only_lift withholds_recognise) fun _ => Attempt.only_pure _
  | opening camera identity? => exact Attempt.only_bind withholds_openChannel fun _ => Attempt.only_pure _
  | preparing channel identity? =>
    refine Attempt.only_bind (Attempt.only_discard (Attempt.only_of ?_)) fun _ => Attempt.only_pure _
    exact Dfu.only_prepare_of (withholds_of_ne (by simp)) (withholds_of_ofKinds (by simp))
      (withholds_of_ne (by simp))
  | sending channel identity? =>
    refine Attempt.only_bind (Attempt.only_of ?_) fun _ => Attempt.only_pure _
    exact Dfu.only_download_of withholds_of_traffic withholds_heedTransfer _ _
  | ending channel identity? transaction =>
    refine Attempt.only_bind (Attempt.only_of ?_) fun _ => Attempt.only_pure _
    exact Dfu.only_finish_of (withholds_of_ofKinds (by simp)) (withholds_of_ne (by simp)) withholds_heedTransfer
  | manifesting channel identity? =>
    have hmanifest : Attempt.Only Withholds (Dfu.manifest channel config.transfer) :=
      Dfu.only_manifest_of (withholds_of_ne (by simp)) (withholds_of_ofKinds (by simp))
    refine Attempt.only_bind (Attempt.only_discard (Attempt.only_of hmanifest)) fun _ => ?_
    refine Attempt.only_bind (Attempt.only_lift (withholds_note (ne_reassurance_of_mem (by simp [linePieces]))))
      fun _ => ?_
    exact Attempt.only_bind (Attempt.only_lift (withholds_setProgress _)) fun _ => Attempt.only_pure _
  | returning identity? => exact Attempt.only_bind (withholds_awaitReturn identity?) fun _ => Attempt.only_pure _
  | completed => exact Attempt.only_pure _

theorem Stage.Walk.withholds {a b : Stage} {h : History} (hw : Stage.Walk config image a h b) :
    ∀ e ∈ h, Withholds e.call := by
  induction hw with
  | here => simp
  | step _ hf ih =>
    intro e he
    rcases List.mem_append.mp he with he | he
    · exact ih e he
    · exact Program.Only.calls (withholds_advance _) hf.begins e he

theorem withholds_noteImage : (noteImage image).Only Withholds := by
  refine only_bind (withholds_note (ne_reassurance_of_middle (by simp [linePieces]) _ _)) fun _ => ?_
  split
  · exact withholds_note (ne_reassurance_of_head (by simp [linePieces]) _)
  · trivial

end Steps

/-! ## The record that a dead task leaves -/

/-- Without the line among the calls it does not come into the log. -/
theorem Record.not_mem_log_after {r : Record} {h : History} (hr : reassurance ∉ r.log)
    (hh : ∀ e ∈ h, Withholds e.call) :
    reassurance ∉ (r.after h).log := by
  refine Record.after_keeps (P := fun r => reassurance ∉ r.log) hr fun e he w hw r hr => ?_
  cases w with
  | log line =>
    have hline : reassurance ≠ line := by
      rintro rfl
      exact hh e he hw
    simpa [Record.apply] using ⟨hr, hline⟩
  | _ => exact hr

variable {config : UpdateConfig} {image : FirmwareImage} {camera : Camera}

/-- Where the last call does more than keep the record, the session has not come to its end. -/
theorem withholds_of_begins {before : History} {e : Event (cameras.sum host)}
    (hb : (run config image camera).Begins (before ++ [e]))
    (he : kindOf e.call ∉ [CallKind.log, .record, .verdict]) :
    ∀ x ∈ before ++ [e], Withholds x.call := by
  obtain ⟨h₀, h₁, h₂, stage, rfl, hnote, hwalk, hadv, -⟩ := stage_of_call hb he
  intro x hx
  rw [List.append_assoc, List.append_assoc] at hx
  rcases List.mem_append.mp hx with hx | hx
  · exact withholds_noteImage.calls hnote.begins x hx
  rcases List.mem_append.mp hx with hx | hx
  · exact hwalk.withholds x hx
  · exact Program.Only.calls (Stage.withholds_advance stage) hadv x hx

/-- The record of a session that ended so, once someone has waited for it. -/
def settled (ending : Ending Unit) (r : Record) : Record :=
  match ending with
  | .panicked => r.apply (.finishFailed "update task panicked")
  | _ => r

/-- What those who wait are told is the outcome of that record. -/
theorem outcome_eq (ending : Ending Unit) (r : Record) :
    outcome ending r = (settled ending r).outcome?.getD (.failed "update task ended without a result") := by
  cases ending <;> rfl

namespace Follower

/-- Records that are not done make a follower go on. -/
theorem follow_append {rs : List Record} (hrs : ∀ r ∈ rs, r.done = false) (f : Follower) (rest : List Record) :
    f.follow (rs ++ rest) = (rs.foldl look f).follow rest := by
  induction rs generalizing f with
  | nil => rfl
  | cons r rs ih =>
    rw [List.cons_append, follow, hrs r List.mem_cons_self]
    exact ih (fun r' hr' => hrs r' (List.mem_cons_of_mem r hr')) (f.look r)

end Follower

/-! ## The guarantee -/

/-- Where a session dies in a call other than those that keep its record and log, its record is underway at
every moment, so a follower never comes to a record that is done: whatever it has seen, it looks on.  Who
waits is told that the session failed, and the record says so then; the log remains what the task left,
without the reassurance. -/
theorem dead_task_is_never_seen_done {σ : Type} (env : Environment (cameras.sum host) σ) (s : σ)
    {session : Action Unit} (hstart : start config camera image = .ok session) {before : History}
    {c : (cameras.sum host).Call} (hdied : session.history env s = before ++ [⟨c, none⟩])
    (hc : kindOf c ∉ [CallKind.log, .record, .verdict]) :
    let left := Record.initial.after (session.history env s)
    let final := settled (session.run env s).1 left
    (∀ h, h <+: session.history env s → (Record.initial.after h).Underway) ∧
    (∀ rs rest, (∀ r ∈ rs, ∃ h, h <+: session.history env s ∧ r = Record.initial.after h) →
      Follower.follow {} (rs ++ rest) = (rs.foldl Follower.look {}).follow rest) ∧
    result env s session = .failed "update task panicked" ∧ final.outcome? = some (result env s session) ∧
    final.error = "update task panicked" ∧ final.done = true ∧ final.log = left.log ∧ reassurance ∉ final.log := by
  intro left final
  obtain ⟨-, -, rfl⟩ := start_eq_ok.mp hstart
  have hb := begins_history env (run config image camera) s
  have hpanicked : ((run config image camera).run env s).1 = .panicked := panicked_of_history hdied
  have hleft : left.Underway := underway_of_not_finished (by simp [hpanicked])
  have hfinal : final = left.apply (.finishFailed "update task panicked") := by
    show settled ((run config image camera).run env s).1 left = _
    rw [hpanicked, settled]
  have hresult : result env s (run config image camera) = .failed "update task panicked" := by
    rw [result, outcome_eq, hpanicked]
    rfl
  have hunderway : ∀ h, h <+: (run config image camera).history env s → (Record.initial.after h).Underway := by
    rintro h ⟨rest, heq⟩
    cases rest with
    | nil =>
      rw [List.append_nil] at heq
      rw [heq]
      exact hleft
    | cons e rest => exact underway_of_begins (heq ▸ hb) (List.cons_ne_nil e rest)
  have hlog : reassurance ∉ left.log := by
    refine Record.not_mem_log_after (by simp [Record.initial]) ?_
    rw [hdied] at hb ⊢
    exact withholds_of_begins hb hc
  rw [hresult, hfinal]
  refine ⟨hunderway, fun rs rest hrs => Follower.follow_append (fun r hr => ?_) {} rest, rfl, rfl,
    rfl, rfl, rfl, hlog⟩
  obtain ⟨h, hh, rfl⟩ := hrs r hr
  exact (hunderway h hh).done

/-- A world in which the restart of the camera kills the task. -/
def deadlyRestart : Environment (cameras.sum host) Obliging
  | .inl (.enterRecovery _), o => (none, o)
  | c, o => Obliging.world c o

theorem died_deadlyRestart : ∃ before, (run Obliging.config Obliging.image Obliging.unit).history deadlyRestart
    { camera := Obliging.unit } = before ++ [.asked (.enterRecovery Obliging.unit) none] :=
  List.getLast?_eq_some_iff.mp (by decide +kernel)

/-- The session of a camera whose restart kills the task. -/
theorem dead_task_is_never_seen_done_restart :
    let o : Obliging := { camera := Obliging.unit }
    let session := run Obliging.config Obliging.image Obliging.unit
    let left := Record.initial.after (session.history deadlyRestart o)
    (∃ before, session.history deadlyRestart o = before ++ [.asked (.enterRecovery Obliging.unit) none]) ∧
      left.Underway ∧ result deadlyRestart o session = .failed "update task panicked" ∧
      reassurance ∉ (settled (session.run deadlyRestart o).1 left).log := by
  intro o session left
  obtain ⟨before, hdied⟩ := died_deadlyRestart
  obtain ⟨hunderway, -, hresult, -, -, -, -, hlog⟩ :=
    dead_task_is_never_seen_done deadlyRestart o start_obliging hdied (by simp)
  exact ⟨⟨before, hdied⟩, hunderway _ (List.prefix_refl _), hresult, hlog⟩

/-- So a session whose task dies is not always seen done, and its log does not always end as
that of a failed session. -/
theorem dead_task_not_always_reported : ¬ ∀ (σ : Type) (env : Environment (cameras.sum host) σ) (s : σ)
    (config : UpdateConfig) (image : FirmwareImage) (camera : Camera) (session : Action Unit) (before : History)
    (c : (cameras.sum host).Call),
    start config camera image = .ok session →
    session.history env s = before ++ [⟨c, none⟩] → kindOf c ∉ [CallKind.log, .record, .verdict] →
    let left := Record.initial.after (session.history env s)
    left.done = true ∧ (settled (session.run env s).1 left).outcome?.isSome = true ∧
      (settled (session.run env s).1 left).log.getLast? = some reassurance := by
  intro hreported
  obtain ⟨before, hdied⟩ := died_deadlyRestart
  obtain ⟨hdone, -⟩ := hreported Obliging deadlyRestart _ _ _ _ _ before _ start_obliging hdied (by simp)
  revert hdone
  decide +kernel

end Session

end Reflash
