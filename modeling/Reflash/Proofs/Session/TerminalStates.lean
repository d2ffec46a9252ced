import Reflash.Proofs.Session.DeadTask
import Reflash.Proofs.Session.Observers

/-!
# Reflash.Proofs.Session.TerminalStates — what the record of a session is after any writes

A record takes every write as it comes, whoever makes it; nothing in it guards a phase that is final.  So each
field is what the last write of its kind made it (`phase_following`, `error_following`), and the flag says that
some write finished the session (`done_following_iff`).  That the fields agree, and stay as they are once the
session has finished, is up to the order of the writes, and a session keeps an order in which they do
(`exists_last_write`, `terminal_states_absorb`).  In another order they need not
(`terminal_states_not_always_absorb`).
-/

namespace Reflash.Session

open Program

/-! ## Kinds of writes -/

namespace Write

/-- The writes that finish a session. -/
def finishes : Write → Bool
  | .finishDone | .finishFailed _ => true
  | .phase _ | .progress _ | .log _ => false

/-- The writes that tell how far a session has come. -/
def isNote : Write → Bool
  | .progress _ | .log _ => true
  | .phase _ | .finishDone | .finishFailed _ => false

def setsPhase : Write → Bool
  | .phase _ => true
  | _ => false

def failsSession : Write → Bool
  | .finishFailed _ => true
  | _ => false

/-- The phase that a write puts into the record. -/
def phase? : Write → Option Phase
  | .phase p => some p
  | .finishDone => some .done
  | .finishFailed reason => some (.failed reason)
  | .progress _ | .log _ => none

/-- The error that a write puts into the record. -/
def reason? : Write → Option String
  | .finishFailed reason => some reason
  | _ => none

end Write

/-! ## Any writes -/

/-- The record after some writes, from the start. -/
def following (ws : List Write) : Record := ws.foldl Record.apply .initial

variable {ws after : List Write} {w : Write} {r : Record}

@[simp] theorem following_nil : following [] = .initial := rfl

@[simp] theorem following_concat (ws : List Write) (w : Write) :
    following (ws ++ [w]) = (following ws).apply w := by
  simp [following]

theorem following_append (before after : List Write) :
    following (before ++ after) = after.foldl Record.apply (following before) := List.foldl_append

theorem progress_following_le (ws : List Write) : (following ws).progress ≤ 100 := by
  induction ws using List.reverseRecOn with
  | nil => exact Nat.zero_le _
  | append_singleton ws w ih =>
    rw [following_concat]
    cases w with
    | progress n => exact Nat.min_le_right n 100
    | finishDone => exact Nat.le_refl _
    | _ => exact ih

theorem grows_following (before after : List Write) : (following before).Grows (following (before ++ after)) := by
  induction after using List.reverseRecOn with
  | nil =>
    rw [List.append_nil]
    exact Record.grows_refl _
  | append_singleton after w ih =>
    rw [← List.append_assoc, following_concat]
    exact ih.trans (Record.grows_apply _ w)

/-- The flag is set once some write finished the session. -/
theorem done_following_iff (ws : List Write) : (following ws).done = true ↔ ∃ w ∈ ws, w.finishes = true := by
  induction ws using List.reverseRecOn with
  | nil => simp [Record.initial]
  | append_singleton ws w ih =>
    rw [following_concat]
    cases w <;> simp [Record.apply, Write.finishes, ih, or_and_right, exists_or]

/-- The phase is the last one that was put in. -/
theorem phase_following (ws : List Write) :
    (following ws).phase = (ws.filterMap Write.phase?).getLast?.getD .idle := by
  induction ws using List.reverseRecOn with
  | nil => rfl
  | append_singleton ws w ih =>
    rw [following_concat, List.filterMap_append]
    cases w <;> simp [Record.apply, Write.phase?, ih]

/-- The error is the last one that was put in. -/
theorem error_following (ws : List Write) :
    (following ws).error = (ws.filterMap Write.reason?).getLast?.getD "" := by
  induction ws using List.reverseRecOn with
  | nil => rfl
  | append_singleton ws w ih =>
    rw [following_concat, List.filterMap_append]
    cases w <;> simp [Record.apply, Write.reason?, ih]

/-- What a record says of the end of its session. -/
structure Record.SameEnd (r r' : Record) : Prop where
  phase : r'.phase = r.phase
  error : r'.error = r.error
  done : r'.done = r.done
  outcome : r'.outcome? = r.outcome?

namespace Record.SameEnd

theorem refl (r : Record) : r.SameEnd r := ⟨rfl, rfl, rfl, rfl⟩

theorem trans {r' r'' : Record} (h₁ : r.SameEnd r') (h₂ : r'.SameEnd r'') : r.SameEnd r'' where
  phase := h₂.phase.trans h₁.phase
  error := h₂.error.trans h₁.error
  done := h₂.done.trans h₁.done
  outcome := h₂.outcome.trans h₁.outcome

theorem apply (r : Record) (hw : w.isNote = true) : r.SameEnd (r.apply w) := by
  cases w with
  | progress n => exact ⟨rfl, rfl, rfl, rfl⟩
  | log line => exact ⟨rfl, rfl, rfl, rfl⟩
  | _ => cases hw

end Record.SameEnd

/-- Notes leave the end of a session as it is. -/
theorem sameEnd_following (before : List Write) (hafter : ∀ w ∈ after, w.isNote = true) :
    (following before).SameEnd (following (before ++ after)) := by
  induction after using List.reverseRecOn with
  | nil =>
    rw [List.append_nil]
    exact .refl _
  | append_singleton after w ih =>
    rw [← List.append_assoc, following_concat]
    have hearlier := ih fun w' hw' => hafter w' (List.mem_append_left _ hw')
    exact hearlier.trans (.apply _ (hafter w (by simp)))

/-! ## Writes in order -/

/-- The flag is that of the phase, as long as the phases that are set are not final and come before the end. -/
theorem done_iff_isTerminal (hphases : ∀ p, .phase p ∈ ws → p.isTerminal = false)
    (horder : ws.Pairwise fun w w' => w.finishes = true → w'.setsPhase = false) :
    (following ws).done = true ↔ (following ws).phase.isTerminal = true := by
  induction ws using List.reverseRecOn with
  | nil => simp [Record.initial, Phase.isTerminal]
  | append_singleton ws w ih =>
    obtain ⟨hordered, -, hlast⟩ := List.pairwise_append.mp horder
    have hearlier := ih (fun p hp => hphases p (List.mem_append_left _ hp)) hordered
    cases w with
    | phase p =>
      have hunder : p.isTerminal = false := hphases p (by simp)
      have hnot : ¬ (following ws).done = true := by
        rw [done_following_iff]
        rintro ⟨w, hw, hfinishes⟩
        cases hlast w hw _ List.mem_cons_self hfinishes
      simpa [Record.apply, hunder] using hnot
    | progress n => simpa [Record.apply] using hearlier
    | log line => simpa [Record.apply] using hearlier
    | finishDone => simp [Record.apply, Phase.isTerminal]
    | finishFailed reason => simp [Record.apply, Phase.isTerminal]

/-- There is an error only in the phase that has it as its reason, as long as no other phase
comes after a failure. -/
theorem error_of_phase
    (horder : ws.Pairwise fun w w' => w.failsSession = true → w'.isNote = true ∨ w'.failsSession = true) :
    (following ws).error = "" ∨ (following ws).phase = .failed (following ws).error := by
  induction ws using List.reverseRecOn with
  | nil => exact .inl rfl
  | append_singleton ws w ih =>
    obtain ⟨hordered, -, hlast⟩ := List.pairwise_append.mp horder
    have hearlier := ih hordered
    have hnone : w.isNote = false → w.failsSession = false → (following ws).error = "" := by
      intro hnote hfails
      have hreasons : ws.filterMap Write.reason? = [] := by
        rw [List.filterMap_eq_nil_iff]
        intro w' hw'
        cases w' with
        | finishFailed reason =>
          rcases hlast _ hw' w List.mem_cons_self rfl with h | h
          · exact absurd (hnote.symm.trans h) Bool.false_ne_true
          · exact absurd (hfails.symm.trans h) Bool.false_ne_true
        | _ => rfl
      rw [error_following, hreasons]
      rfl
    rw [following_concat]
    cases w with
    | phase p => exact .inl (hnone rfl rfl)
    | progress n => exact hearlier
    | log line => exact hearlier
    | finishDone => exact .inl (hnone rfl rfl)
    | finishFailed reason => exact .inr rfl

/-! ## Sessions -/

/-- What is written for those who wait for a session that ended so. -/
def closing : Ending Unit → List Write
  | .panicked => [.finishFailed "update task panicked"]
  | _ => []

theorem settled_eq (ending : Ending Unit) (h : History) :
    settled ending (Record.initial.after h) = following (writes h ++ closing ending) := by
  rw [following_append, following, ← Record.after_eq_foldl]
  cases ending <;> rfl

theorem isVerdict_of_mem_writes {h : History} (hquiet : NoVerdict h) (hw : w ∈ writes h) :
    w.isVerdict = false := by
  obtain ⟨e, he, hwrite⟩ := List.mem_filterMap.mp hw
  obtain rfl := write?_eq_some.mp hwrite
  exact Record.isVerdict_of_ne rfl (hquiet _ he)

theorem finishes_verdict (result : Except UpdateError Unit) : (verdict result).finishes = true := by
  cases result <;> rfl

section Sessions

variable {config : UpdateConfig} {image : FirmwareImage} {camera : Camera} {σ : Type}
  {env : Environment (cameras.sum host) σ} {s : σ}

/-- Of all that is written in a session, and for those who wait for it, only the last write can finish it. -/
theorem exists_last_write : ∃ quiet last,
    writes ((run config image camera).history env s) ++ closing ((run config image camera).run env s).1 =
      quiet ++ last ∧
      (∀ w ∈ quiet, w.isVerdict = false) ∧ (last = [] ∨ ∃ w, last = [w] ∧ w.finishes = true) := by
  rcases noVerdict_or_last (begins_history env (run config image camera) s) with hnone |
    ⟨pre, result, u?, heq, hpre, hfin⟩
  · refine ⟨_, closing ((run config image camera).run env s).1, rfl, fun w => isVerdict_of_mem_writes hnone, ?_⟩
    cases ((run config image camera).run env s).1 with
    | panicked => exact .inr ⟨_, rfl, rfl⟩
    | _ => exact .inl rfl
  · have hquiet : ∀ w ∈ writes pre, w.isVerdict = false := fun w => isVerdict_of_mem_writes hpre
    cases u? with
    | some u =>
      have hended : ((run config image camera).run env s).1 = .finished () := run_of_finishes (hfin rfl)
      refine ⟨writes pre, [verdict result], ?_, hquiet, .inr ⟨_, rfl, finishes_verdict result⟩⟩
      rw [heq, hended]
      simp [closing, writes]
    | none =>
      have hdied : ((run config image camera).run env s).1 = .panicked := panicked_of_history heq
      refine ⟨writes pre, closing .panicked, ?_, hquiet, .inr ⟨_, rfl, rfl⟩⟩
      rw [heq, hdied]
      simp [closing, writes, write?]

end Sessions

/-! ## The guarantee -/

theorem Write.finishes_of_isVerdict (hw : w.isVerdict = false) : w.finishes = false := by
  cases w with
  | finishDone => cases hw
  | finishFailed reason => cases hw
  | _ => rfl

/-- After any writes, whoever makes them and in whatever order, the progress is a percentage, the log has only
grown, the flag says that the session was finished and stays, and phase and error are the last ones that were
put in; notes change nothing of the end.  The flag is that of the phase as long as no final phase is set and
none after the end, and the error is that of the phase as long as only failures and notes follow a failure.  A
session sets no final phase, and nothing is written after what finishes it, also where it dies and is waited
for; so its fields agree at every moment, and once finished it stays so. -/
theorem terminal_states_absorb :
    (∀ ws : List Write, (following ws).progress ≤ 100 ∧
      (∀ before after, ws = before ++ after → (following before).Grows (following ws)) ∧
      ((following ws).done = true ↔ ∃ w ∈ ws, w.finishes = true) ∧
      (following ws).phase = (ws.filterMap Write.phase?).getLast?.getD .idle ∧
      (following ws).error = (ws.filterMap Write.reason?).getLast?.getD "") ∧
    (∀ before after : List Write, (∀ w ∈ after, w.isNote = true) →
      (following before).SameEnd (following (before ++ after))) ∧
    (∀ ws : List Write, (∀ p, .phase p ∈ ws → p.isTerminal = false) →
      (ws.Pairwise fun w w' => w.finishes = true → w'.setsPhase = false) →
      ((following ws).done = true ↔ (following ws).phase.isTerminal = true)) ∧
    (∀ ws : List Write,
      (ws.Pairwise fun w w' => w.failsSession = true → w'.isNote = true ∨ w'.failsSession = true) →
      (following ws).error = "" ∨ (following ws).phase = .failed (following ws).error) ∧
    ∀ {σ : Type} (env : Environment (cameras.sum host) σ) (s : σ) (config : UpdateConfig) (camera : Camera)
      (image : FirmwareImage) (session : Action Unit), start config camera image = .ok session →
      let ws := writes (session.history env s) ++ closing (session.run env s).1
      settled (session.run env s).1 (Record.initial.after (session.history env s)) = following ws ∧
      (∀ p, .phase p ∈ ws → p.isTerminal = false) ∧ (ws.Pairwise fun w _ => w.finishes = false) ∧
      ∀ moment, moment <+: ws →
        ((following moment).done = true ↔ (following moment).phase.isTerminal = true) ∧
        ((following moment).error = "" ∨ (following moment).phase = .failed (following moment).error) := by
  refine ⟨fun ws => ?_, fun before after => sameEnd_following before, fun ws => done_iff_isTerminal,
    fun ws => error_of_phase, ?_⟩
  · refine ⟨progress_following_le ws, ?_, done_following_iff ws, phase_following ws, error_following ws⟩
    rintro before after rfl
    exact grows_following before after
  intro σ env s config camera image session hstart ws
  obtain ⟨-, -, rfl⟩ := start_eq_ok.mp hstart
  obtain ⟨quiet, last, heq, hquiet, hlast⟩ : ∃ quiet last, ws = quiet ++ last ∧ _ := exists_last_write
  have hphases : ∀ p, .phase p ∈ ws → p.isTerminal = false := by
    intro p hp
    rw [heq, List.mem_append] at hp
    rcases hp with hp | hp
    · exact hquiet _ hp
    · rcases hlast with rfl | ⟨w, rfl, hfinishes⟩
      · cases hp
      · obtain rfl := List.mem_singleton.mp hp
        cases hfinishes
  have honce : ws.Pairwise fun w _ => w.finishes = false := by
    rw [heq]
    refine List.pairwise_append.mpr ⟨?_, ?_, fun w hw _ _ => Write.finishes_of_isVerdict (hquiet w hw)⟩
    · exact List.pairwise_of_forall_mem_list fun w hw _ _ => Write.finishes_of_isVerdict (hquiet w hw)
    · rcases hlast with rfl | ⟨w, rfl, -⟩
      · exact .nil
      · exact List.pairwise_singleton _ w
  refine ⟨settled_eq _ _, hphases, honce, fun moment hmoment => ?_⟩
  have hearlier : moment.Pairwise fun w _ => w.finishes = false := honce.sublist hmoment.sublist
  constructor
  · refine done_iff_isTerminal (fun p hp => hphases p (hmoment.subset hp))
      (hearlier.imp fun {w w'} hw hfinishes => ?_)
    exact absurd (hw.symm.trans hfinishes) Bool.false_ne_true
  · refine error_of_phase (hearlier.imp fun {w w'} hw hfails => ?_)
    cases w with
    | finishFailed reason => cases hw
    | _ => cases hfails

/-- A session that ends well; a record that failed, and to whose log a line is added. -/
theorem terminal_states_absorb_obliging :
    let o : Obliging := { camera := Obliging.unit }
    let session := run Obliging.config Obliging.image Obliging.unit
    let ws := writes (session.history Obliging.world o) ++ closing (session.run Obliging.world o).1
    ws.getLast? = some .finishDone ∧ ((following ws).done = true ↔ (following ws).phase.isTerminal = true) ∧
      (ws.Pairwise fun w _ => w.finishes = false) ∧
      (following [.phase .transferring, .finishFailed "lost"]).SameEnd
        (following [.phase .transferring, .finishFailed "lost", .log "cable"]) ∧
      ((following [.phase .transferring, .finishFailed "lost", .log "cable"]).done = true ↔
        (following [.phase .transferring, .finishFailed "lost", .log "cable"]).phase.isTerminal = true) ∧
      ((following [.phase .transferring, .finishFailed "lost", .log "cable"]).error = "" ∨
        (following [.phase .transferring, .finishFailed "lost", .log "cable"]).phase =
          .failed (following [.phase .transferring, .finishFailed "lost", .log "cable"]).error) := by
  intro o session ws
  obtain ⟨-, hnotes, hflag, herror, hsessions⟩ := terminal_states_absorb
  obtain ⟨-, -, honce, hmoments⟩ := hsessions Obliging.world o _ _ _ _ start_obliging
  refine ⟨by decide +kernel, (hmoments ws (List.prefix_refl _)).1, honce, ?_, ?_, ?_⟩
  · exact hnotes [.phase .transferring, .finishFailed "lost"] [.log "cable"] (by decide)
  · refine hflag _ (fun p hp => ?_) (by decide)
    obtain rfl : p = .transferring := by simpa using hp
    rfl
  · exact herror _ (by decide)

/-- A record that was finished takes another phase, and its outcome is gone; one that failed keeps its error
although it is finished well after that. -/
theorem terminal_states_not_always_absorb :
    let finished := following [.finishDone]
    let reopened := following [.finishDone, .phase .transferring]
    let repaired := following [.finishFailed "lost", .finishDone]
    finished.outcome? = some .done ∧
      reopened.done = true ∧ reopened.phase.isTerminal = false ∧ reopened.outcome? = none ∧
      repaired.outcome? = some .done ∧ repaired.error = "lost" := by
  decide

end Reflash.Session
