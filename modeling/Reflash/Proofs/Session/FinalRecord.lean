import Reflash.Proofs.Session.InTime
import Reflash.Proofs.Session.Truncation

/-!
# Reflash.Proofs.Session.FinalRecord — the record of a session while it runs, and when it has ended

The write that ends a session is its last call and puts outcome, error and flag in place at once, so every
record before it is `Underway`, and the one after it is `Ended` with what those who wait for the session are
told (`final_record_is_consistent`).  The session fails as cancelled where the stage that failed had seen a
request to stop, and nowhere else (`Stage.reason_eq_cancelled_iff`).
-/

namespace Reflash

open Program

theorem UpdateError.message_ne_empty (e : UpdateError) : e.message ≠ "" := by
  cases e with
  | image _ | backup _ | transfer _ | link _ | spawn _ => exact String.append_ne_of_length_lt (by decide +kernel)
  | noIdentity | recoveryTimeout | reconnectTimeout | stopped => decide +kernel
  | recoveryIdentityUnsupported line => cases line <;> decide +kernel

/-- Every failure says something. -/
theorem UpdateError.reason_ne_empty (e : UpdateError) : e.reason ≠ "" := by
  unfold reason
  split
  · decide +kernel
  · exact message_ne_empty e

namespace Session

/-! ## Records -/

namespace Record

/-- The record of a session that has not ended. -/
structure Underway (r : Record) : Prop where
  phase : r.phase.isTerminal = false
  error : r.error = ""
  done : r.done = false

/-- The record of a session that ended so. -/
def Ended (r : Record) : Outcome → Prop
  | .done =>
    r.phase = .done ∧ r.done = true ∧ r.error = "" ∧ r.progress = 100 ∧
      r.log.getLast? = some "firmware update done"
  | .failed reason => r.phase = .failed reason ∧ r.done = true ∧ reason ≠ "" ∧ r.error = reason ∧
    ∃ lines, r.log = lines ++ ["firmware update failed: " ++ reason, reassurance]

theorem Ended.outcome? {r : Record} {o : Outcome} (hr : r.Ended o) : r.outcome? = some o := by
  cases o <;> rw [Record.outcome?, hr.1]

theorem underway_initial : initial.Underway := ⟨rfl, rfl, rfl⟩

theorem Underway.apply {r : Record} (hr : r.Underway) {w : Write} (hw : w.isVerdict = false) :
    (r.apply w).Underway := by
  cases w with
  | phase p => exact ⟨hw, hr.error, hr.done⟩
  | progress n => exact ⟨hr.phase, hr.error, hr.done⟩
  | log line => exact ⟨hr.phase, hr.error, hr.done⟩
  | finishDone => cases hw
  | finishFailed reason => cases hw

end Record

/-- None of these calls ends the session. -/
def NoVerdict (h : History) : Prop := ∀ e ∈ h, kindOf e.call ≠ .verdict

section NoVerdict

variable {h h₁ h₂ : History} {kinds : List CallKind}

@[simp] theorem noVerdict_append : NoVerdict (h₁ ++ h₂) ↔ NoVerdict h₁ ∧ NoVerdict h₂ := by
  simp [NoVerdict, or_imp, forall_and]

theorem Record.Underway.after {r : Record} (hr : r.Underway) (hh : NoVerdict h) : (r.after h).Underway :=
  Record.after_keeps hr fun e he _ hw _ hr => hr.apply (Record.isVerdict_of_ne hw (hh e he))

end NoVerdict

/-! ## The end of a session -/

variable {config : UpdateConfig} {image : FirmwareImage} {camera : Camera} {h : History} {r : Record}

/-- The last lines of a log. -/
def lastLines : Except UpdateError Unit → List String
  | .ok () => ["firmware update done"]
  | .error e => ["firmware update failed: " ++ e.reason, reassurance]

/-- The write that ends a session. -/
def verdict : Except UpdateError Unit → Write
  | .ok () => .finishDone
  | .error e => .finishFailed e.reason

/-- What a session notes of its end before it is final. -/
def noteEnd : Except UpdateError Unit → Action Unit
  | .ok () => note "firmware update done"
  | .error e => do
    report .error ("firmware update failed: " ++ e.reason)
    tell (.write (.log ("firmware update failed: " ++ e.reason)))
    tell (.write (.log reassurance))

theorem conclude_eq (result : Except UpdateError Unit) :
    conclude result = (noteEnd result).bind fun _ => tell (.write (verdict result)) := by
  cases result <;> rfl

theorem only_noteEnd (result : Except UpdateError Unit) : (noteEnd result).Only (ofKinds [.log, .record]) := by
  cases result with
  | ok u => exact only_note (by simp) (by simp) _
  | error e =>
    refine only_bind (only_report.mpr (by simp)) fun _ => ?_
    exact only_bind (only_tell.mpr (by simp [Write.isVerdict])) fun _ => only_tell.mpr (by simp [Write.isVerdict])

theorem after_noteEnd {result : Except UpdateError Unit} {u : Unit} (hf : (noteEnd result).Finishes h u) :
    r.after h = { r with log := r.log ++ lastLines result } := by
  cases result with
  | ok _ =>
    simp only [noteEnd, note, bind_eq, finishes_bind, finishes_tell] at hf
    obtain ⟨u₁, h₁, h₂, rfl, rfl, rfl⟩ := hf
    rfl
  | error e =>
    simp only [noteEnd, bind_eq, finishes_bind, finishes_report, finishes_tell] at hf
    obtain ⟨u₁, h₁, h₂, rfl, rfl, u₂, h₃, h₄, rfl, rfl, rfl⟩ := hf
    simp [Record.apply, lastLines]

/-- The record after the end. -/
theorem after_conclude {result : Except UpdateError Unit} {u : Unit} (hf : (conclude result).Finishes h u) :
    r.after h = Record.apply { r with log := r.log ++ lastLines result } (verdict result) := by
  rw [conclude_eq, finishes_bind] at hf
  obtain ⟨u', h₁, h₂, rfl, hnotes, hend⟩ := hf
  obtain rfl := finishes_tell.mp hend
  rw [Record.after_append, after_noteEnd hnotes]
  rfl

/-- What those who wait for a session are told that ended so. -/
def outcomeOf : Except UpdateError Unit → Outcome
  | .ok () => .done
  | .error e => .failed e.reason

theorem ended_of_conclude {result : Except UpdateError Unit} {u : Unit} (hr : r.Underway)
    (hf : (conclude result).Finishes h u) : (r.after h).Ended (outcomeOf result) := by
  rw [after_conclude hf]
  cases result with
  | ok _ => exact ⟨rfl, rfl, hr.error, rfl, by simp [Record.apply, verdict, lastLines]⟩
  | error e => exact ⟨rfl, rfl, e.reason_ne_empty, rfl, r.log, rfl⟩

/-! ## One write ends a session -/

theorem finishes_run {u : Unit} :
    (run config image camera).Finishes h u ↔ ∃ h₀ h₁ h₂ result, h = h₀ ++ (h₁ ++ h₂) ∧
    (noteImage image).Finishes h₀ () ∧ (attempt config image camera).Finishes h₁ result ∧
    (conclude result).Finishes h₂ () := by
  rw [run_eq, finishes_bind]
  simp only [finishes_bind, Attempt.finishes_run]
  constructor
  · rintro ⟨u, h₀, _, rfl, hnote, result, h₁, h₂, rfl, hatt, hend⟩
    exact ⟨h₀, h₁, h₂, result, rfl, hnote, hatt, hend⟩
  · rintro ⟨h₀, h₁, h₂, result, rfl, hnote, hatt, hend⟩
    exact ⟨(), h₀, _, rfl, hnote, result, h₁, h₂, rfl, hatt, hend⟩

theorem noVerdict_noteImage (hb : (noteImage image).Begins h) : NoVerdict h :=
  (only_noteImage.within hb).ne (by simp)

theorem noVerdict_attempt (hb : (attempt config image camera).Begins h) : NoVerdict h := by
  rw [attempt_eq] at hb
  exact (Stage.only_complete _ _).calls hb

/-- A session makes no call that ends it, or has just made it; if it was answered, then the
session is at its end. -/
theorem noVerdict_or_last (hb : (run config image camera).Begins h) : NoVerdict h ∨
    ∃ pre result u?, h = pre ++ [.told (.write (verdict result)) u?] ∧ NoVerdict pre ∧
      (u? = some () → (run config image camera).Finishes h ()) := by
  rcases begins_run hb with hb | ⟨h₀, h', rfl, hnote, hb | ⟨h₁, h₂, result, rfl, hatt, hb⟩⟩
  · exact .inl (noVerdict_noteImage hb)
  · exact .inl (noVerdict_append.mpr ⟨noVerdict_noteImage hnote.begins, noVerdict_attempt hb⟩)
  have hquiet : NoVerdict (h₀ ++ h₁) :=
    noVerdict_append.mpr ⟨noVerdict_noteImage hnote.begins, noVerdict_attempt hatt.begins⟩
  have hnotes : ∀ h', (noteEnd result).Begins h' → NoVerdict (h₀ ++ (h₁ ++ h')) := by
    intro h' hb'
    rw [← List.append_assoc]
    exact noVerdict_append.mpr ⟨hquiet, ((only_noteEnd result).within hb').ne (by simp)⟩
  rw [conclude_eq, begins_bind] at hb
  rcases hb with hb | ⟨u, h₃, h₄, rfl, hnote', hb⟩
  · exact .inl (hnotes h₂ hb)
  rcases begins_tell.mp hb with rfl | ⟨u?, rfl⟩
  · rw [List.append_nil]
    exact .inl (hnotes h₃ hnote'.begins)
  · refine .inr ⟨h₀ ++ (h₁ ++ h₃), result, u?, by simp, hnotes h₃ hnote'.begins, ?_⟩
    rintro rfl
    refine finishes_run.mpr ⟨h₀, h₁, _, result, rfl, hnote, hatt, ?_⟩
    rw [conclude_eq, finishes_bind]
    exact ⟨(), h₃, _, rfl, hnote', finishes_tell.mpr rfl⟩

/-- As long as calls are to come, the session has not ended. -/
theorem underway_of_begins {before after : History} (hb : (run config image camera).Begins (before ++ after))
    (hne : after ≠ []) : (Record.initial.after before).Underway := by
  refine Record.underway_initial.after ?_
  rcases noVerdict_or_last hb with hnone | ⟨pre, result, u?, heq, hpre, -⟩
  · exact (noVerdict_append.mp hnone).1
  · obtain ⟨after', -, rfl⟩ := concat_eq_append heq.symm hne
    exact (noVerdict_append.mp hpre).1

section Runs

variable {σ : Type} {env : Environment (cameras.sum host) σ} {s : σ}

/-- A session that was cut short has not ended. -/
theorem underway_of_not_finished (hnot : ((run config image camera).run env s).1 ≠ .finished ()) :
    (Record.initial.after ((run config image camera).history env s)).Underway := by
  rcases noVerdict_or_last (begins_history env (run config image camera) s) with hnone |
    ⟨pre, result, u?, heq, hpre, hfin⟩
  · exact Record.underway_initial.after hnone
  · cases u? with
    | some u => exact absurd (run_of_finishes (hfin rfl)) hnot
    | none =>
      rw [heq, Record.after_append]
      exact Record.underway_initial.after hpre

/-! ## Why a stage failed -/

namespace Stage

variable {stage : Stage} {e : UpdateError}

/-- A stage that heeds a request to stop fails as stopped. -/
theorem isStopped_of_heeded (hf : (stage.advance config image).Finishes h (.error e)) (hheeded : Heeded h) :
    e.isStopped = true := by
  obtain ⟨before, rest, rfl⟩ := List.append_of_mem hheeded
  obtain ⟨next, hc, hrest⟩ := Finishes.comesTo hf
  by_cases hsending : ∃ channel identity?, stage = .sending channel identity?
  · obtain ⟨channel, identity?, rfl⟩ := hsending
    obtain ⟨hstop, -⟩ := comesTo_stop_sending hc
    rw [hstop, finishes_bind] at hrest
    obtain ⟨u, h₁, h₂, -, -, hend⟩ := hrest
    obtain rfl := Except.error.inj (finishes_done.mp hend).2
    rfl
  · have hstop := stopsAs_advance (fun channel identity? heq => hsending ⟨channel, identity?, heq⟩) before next hc
    rw [hstop] at hrest
    obtain rfl := Except.error.inj (finishes_done.mp hrest).2
    exact stage.isStopped_stopError

/-- A stage fails as cancelled where it saw a request to stop, and only there. -/
theorem reason_eq_cancelled_iff (hf : (stage.advance config image).Finishes h (.error e)) :
    e.reason = "cancelled" ↔ Heeded h := by
  rw [UpdateError.reason_eq_cancelled]
  refine ⟨fun hstopped => ?_, isStopped_of_heeded hf⟩
  by_contra hnot
  rw [unstopped_advance stage h e hf hnot] at hstopped
  cases hstopped

end Stage

/-- How a finished session ended. -/
theorem ended_of_finished (hfin : ((run config image camera).run env s).1 = .finished ()) :
    ∃ h₀ h₁ h₂ result, (run config image camera).history env s = h₀ ++ (h₁ ++ h₂) ∧
    (noteImage image).Finishes h₀ () ∧
      (attempt config image camera).Finishes h₁ result ∧
      (Record.initial.after ((run config image camera).history env s)).Ended (outcomeOf result) := by
  obtain ⟨h₀, h₁, h₂, result, heq, hnote, hatt, hend⟩ := finishes_run.mp (finishes_history hfin)
  refine ⟨h₀, h₁, h₂, result, heq, hnote, hatt, ?_⟩
  have hquiet : NoVerdict (h₀ ++ h₁) :=
    noVerdict_append.mpr ⟨noVerdict_noteImage hnote.begins, noVerdict_attempt hatt.begins⟩
  rw [heq, ← List.append_assoc, Record.after_append]
  exact ended_of_conclude (Record.underway_initial.after hquiet) hend

/-! ## The guarantee -/

/-- As long as a session makes calls its record is underway, and it stays so if the session is cut short.  The
record of a session that finished says how it ended, and so are those told who wait for it; a session fails as
cancelled just where the stage that failed saw a request to stop.  Where no call dies, the clock moves and the
loops pause, every session finishes. -/
theorem final_record_is_consistent {σ : Type} (env : Environment (cameras.sum host) σ) (s : σ)
    {session : Action Unit} (hstart : start config camera image = .ok session) :
    let h := session.history env s
    let ending := (session.run env s).1
    (∀ before after, h = before ++ after → after ≠ [] → (Record.initial.after before).Underway) ∧
    (ending ≠ .finished () → (Record.initial.after h).Underway) ∧
    (ending = .finished () →
      (Record.initial.after h).Ended (result env s session) ∧
      (Record.initial.after h).outcome? = some (result env s session) ∧
      ∀ reason, result env s session = .failed reason → ∃ h₀ h₁ h₂ h₃ stage e, h = h₀ ++ ((h₁ ++ h₂) ++ h₃) ∧
        (noteImage image).Finishes h₀ () ∧ Stage.Walk config image (.start camera) h₁ stage ∧
        (stage.advance config image).Finishes h₂ (.error e) ∧ reason = e.reason ∧
        (reason = "cancelled" ↔ Heeded h₂)) ∧
    (ending ≠ .panicked → Nonempty (MovingClock env) → config.Pauses → ending = .finished ()) := by
  intro h ending
  obtain ⟨-, -, rfl⟩ := start_eq_ok.mp hstart
  have hb : (run config image camera).Begins h := begins_history env _ s
  refine ⟨fun before after heq hne => underway_of_begins (heq ▸ hb) hne, underway_of_not_finished, fun hfin => ?_,
    fun hlive ⟨clock⟩ hconfig => (clock.finishes_of_ends (ends_run hconfig) hlive).choose_spec⟩
  obtain ⟨h₀, h₁, h₃, r, heq, hnote, hatt, hended⟩ := ended_of_finished hfin
  have hlive : ending ≠ .panicked := by
    rw [hfin]
    nofun
  have hresult : result env s (run config image camera) = outcomeOf r := by
    rw [result_eq hlive, hended.outcome?, Option.getD_some]
  rw [hresult]
  refine ⟨hended, hended.outcome?, fun reason hreason => ?_⟩
  cases r with
  | ok _ => cases hreason
  | error e =>
    obtain rfl := Outcome.failed.inj hreason
    rw [attempt_eq] at hatt
    obtain ⟨stage, h₁, h₂, rfl, hwalk, hfail⟩ := Stage.finishes_complete_error hatt
    exact ⟨h₀, h₁, h₂, h₃, stage, e, heq, hnote, hwalk, hfail, rfl, Stage.reason_eq_cancelled_iff hfail⟩

end Runs

/-- A session that finishes and is done, and one that is asked to stop. -/
theorem final_record_is_consistent_obliging :
    let o : Obliging := { camera := Obliging.unit }
    let session := run Obliging.config Obliging.image Obliging.unit
    let stopping := Obliging.world.stoppedAt (some 14)
    (session.run Obliging.world.clocked (o, 0)).1 = .finished () ∧
      (Record.initial.after (session.history Obliging.world.clocked (o, 0))).Ended .done ∧
      (Record.initial.after (session.history stopping (o, 0))).Ended (.failed "cancelled") ∧
      ∃ before stage after, session.history stopping (o, 0) = before ++ (stage ++ after) ∧ Heeded stage := by
  intro o session stopping
  obtain ⟨-, -, hfinished, hends⟩ := final_record_is_consistent Obliging.world.clocked (o, 0) start_obliging
  have hfin := hends (answers_obliging.clocked.not_panicked _ _) ⟨Obliging.world.clockedClock⟩
    ⟨by decide, by decide, by decide⟩
  have hdone : result Obliging.world.clocked (o, 0) session = .done := by decide +kernel
  rw [hdone] at hfinished
  obtain ⟨-, -, hfinished', -⟩ := final_record_is_consistent stopping (o, 0) start_obliging
  have hcancelled : result stopping (o, 0) session = .failed "cancelled" := by decide +kernel
  rw [hcancelled] at hfinished'
  obtain ⟨hended, -, hwhy⟩ := hfinished' (by decide +kernel)
  obtain ⟨h₀, h₁, h₂, h₃, stage, e, heq, -, -, -, -, hiff⟩ := hwhy _ rfl
  exact ⟨hfin, (hfinished hfin).1, hended, h₀ ++ h₁, h₂, h₃, heq.trans (by simp), hiff.mp rfl⟩

end Session

end Reflash
