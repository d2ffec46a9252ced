import Reflash.Proofs.Session.Resumption
import Reflash.Proofs.Session.Stopping

/-!
# Reflash.Proofs.Session.Truncation — a stop only cuts a session short

Of two sessions in the same world, one with a request to stop and one without, the first goes exactly as the
second, or breaks off in the middle of it and fails as stopped (`stop_truncates`).  It gives a download up by an
ABORT if it heeds the request between two chunks (`AtChunkBoundary`), and does nothing else of its own.
-/

namespace Reflash

open Program

/-! ## The reason of a failure -/

theorem String.append_ne_of_length_lt {s t u : String} (h : u.length < s.length) : s ++ t ≠ u := by
  rintro rfl
  rw [String.length_append] at h
  omega

theorem UpdateError.message_ne_cancelled {e : UpdateError} (he : e ≠ .stopped) : e.message ≠ "cancelled" := by
  cases e with
  | stopped => exact absurd rfl he
  | image _ | backup _ | transfer _ | link _ | spawn _ => exact String.append_ne_of_length_lt (by decide +kernel)
  | noIdentity | recoveryTimeout | reconnectTimeout => decide +kernel
  | recoveryIdentityUnsupported line => cases line <;> decide +kernel

/-- The reason in the record tells a stop from every other failure. -/
theorem UpdateError.reason_eq_cancelled {e : UpdateError} : e.reason = "cancelled" ↔ e.isStopped = true := by
  unfold reason
  split
  · rename_i hstopped
    exact ⟨fun _ => hstopped, fun _ => rfl⟩
  · rename_i hstopped
    refine ⟨fun hmessage => absurd hmessage (message_ne_cancelled ?_), fun h => absurd h hstopped⟩
    rintro rfl
    exact hstopped rfl

namespace Session

variable {config : UpdateConfig} {image : FirmwareImage} {camera : Camera} {h : History}

/-! ## What a session does once it heeds a request -/

/-- The session is between two chunks of its download: some are delivered over the open channel, and it looks for a
request to stop before it sends the next one. -/
def AtChunkBoundary (config : UpdateConfig) (image : FirmwareImage) (camera : Camera) (channel : ControlChannel)
    (before : History) : Prop :=
  ∃ h₀ h₁ h₂ identity? k, before = h₀ ++ (h₁ ++ h₂) ∧ (noteImage image).Finishes h₀ () ∧
    Stage.Walk config image (.start camera) h₁ (.sending channel identity?) ∧
    (∃ next, ((Stage.sending channel identity?).advance config image).run.ComesTo h₂ (.inr .stopRequested) next) ∧
    k < (Dfu.imagePackets config.transfer image.data).length ∧
    Delivered ((Dfu.imagePackets config.transfer image.data).take k) (wire channel h₂)

/-- What gives a download up and then fails the session. -/
def giveUp (config : UpdateConfig) (channel : ControlChannel) : Action Unit :=
  (Dfu.abort channel config.transfer).bind fun _ => conclude (.error (.transfer .stopped))

theorem giveUp_of_atChunkBoundary {channel : ControlChannel} {next : Bool → Action Unit}
    (hb : AtChunkBoundary config image camera channel h)
    (hc : (run config image camera).ComesTo h (.inr .stopRequested) next) : next true = giveUp config channel := by
  obtain ⟨h₀, h₁, h₂, identity?, k, rfl, hnote, hw, ⟨next', hc'⟩, -, -⟩ := hb
  obtain rfl := hc.unique (comesTo_run_of_stage hnote hw hc')
  obtain ⟨hstop, -⟩ := Stage.comesTo_stop_sending hc'
  show (next' true).bind _ = _
  rw [hstop, Program.bind_assoc]
  rfl

/-- A session that heeds a request fails at once, or gives its download up first. -/
theorem comesTo_stop {next : Bool → Action Unit}
    (hc : (run config image camera).ComesTo h (.inr .stopRequested) next) :
    (∃ e : UpdateError, e.isStopped = true ∧ next true = conclude (.error e)) ∨
      ∃ channel, AtChunkBoundary config image camera channel h ∧ next true = giveUp config channel := by
  obtain ⟨h₀, h₁, h₂, stage, next', rfl, hnote, hw, hadv, hnext⟩ := comesTo_run hc (by simp)
  by_cases hsending : ∃ channel identity?, stage = .sending channel identity?
  · obtain ⟨channel, identity?, rfl⟩ := hsending
    obtain ⟨-, k, hk, hdelivered⟩ := Stage.comesTo_stop_sending hadv
    have hb : AtChunkBoundary config image camera channel (h₀ ++ (h₁ ++ h₂)) :=
      ⟨h₀, h₁, h₂, identity?, k, rfl, hnote, hw, ⟨next', hadv⟩, hk, hdelivered⟩
    exact .inr ⟨channel, hb, giveUp_of_atChunkBoundary hb hc⟩
  · have hstop :=
      Stage.stopsAs_advance (fun channel identity? heq => hsending ⟨channel, identity?, heq⟩) h₂ next' hadv
    refine .inl ⟨stage.stopError, stage.isStopped_stopError, ?_⟩
    rw [hnext]
    show (next' true).bind _ = _
    rw [hstop]
    rfl

/-- An ABORT comes right after a request that was heeded between two chunks. -/
theorem boundary_of_abort (hb : (run config image camera).Begins h) {e : Event (cameras.sum host)} (he : e ∈ h)
    (habort : Requests .abort e.call) : ∃ before after channel,
      h = before ++ .looked true :: e :: after ∧ AtChunkBoundary config image camera channel before := by
  obtain ⟨pre, after, rfl⟩ := List.append_of_mem he
  obtain ⟨next, hc, -⟩ := begins_append_cons.mp hb
  have hkind : kindOf e.call ∉ [CallKind.log, .record, .verdict] := by
    rw [habort.kindOf_eq]
    decide
  obtain ⟨h₀, h₁, h₂, stage, next', rfl, hnote, hw, hadv, -⟩ := comesTo_run hc hkind
  by_cases hsending : ∃ channel identity?, stage = .sending channel identity?
  · obtain ⟨channel, identity?, rfl⟩ := hsending
    obtain ⟨h₃, rfl⟩ := Stage.comesTo_abort_sending habort hadv
    obtain ⟨next'', hlook⟩ := hadv.earlier
    obtain ⟨-, k, hk, hdelivered⟩ := Stage.comesTo_stop_sending hlook
    exact ⟨h₀ ++ (h₁ ++ h₃), after, channel, by simp,
      h₀, h₁, h₃, identity?, k, rfl, hnote, hw, ⟨next'', hlook⟩, hk, hdelivered⟩
  · exact absurd habort (hadv.only (Stage.abortless_advance fun channel identity? heq => hsending
      ⟨channel, identity?, heq⟩))

/-! ## The end of a stopped session -/

theorem finishes_conclude_error {e : UpdateError} {u : Unit} (hf : (conclude (.error e)).Finishes h u) : ∃ pre,
    h = pre ++ [.told (.write (.finishFailed e.reason)) (some ())] ∧ Within [.log, .record] pre := by
  simp only [conclude, bind_eq, finishes_bind, finishes_report, finishes_tell] at hf
  obtain ⟨u₁, h₁, h₂, rfl, rfl, u₂, h₃, h₄, rfl, rfl, u₃, h₅, h₆, rfl, rfl, rfl⟩ := hf
  exact ⟨[_, _, _], rfl, by simp [Write.isVerdict]⟩

theorem finishes_abort {channel : ControlChannel} {config : TransferConfig} {u : Unit}
    (hf : (Dfu.abort channel config).Finishes h u) : ∃ reply post,
      h = .asked (.transfer channel .abort config.requestTimeout) (some reply) :: post ∧ Within [.log] post := by
  simp only [Dfu.abort, bind_eq, finishes_bind, finishes_ask] at hf
  obtain ⟨reply, h₁, post, rfl, rfl, hf⟩ := hf
  refine ⟨reply, post, rfl, ?_⟩
  cases reply with
  | ok packet =>
    obtain ⟨rfl, -⟩ := finishes_done.mp hf
    exact within_nil
  | error e =>
    rw [finishes_report] at hf
    simp [hf]

theorem stallsAfter_giveUp {P : (cameras.sum host).Call → Prop} (channel : ControlChannel) :
    (giveUp config channel).StallsAfter P :=
  stallsAfter_bind Dfu.stallsAfter_abort fun _ => stallsAfter_conclude _

theorem finishes_giveUp {channel : ControlChannel} {u : Unit} (hf : (giveUp config channel).Finishes h u) :
    ∃ reply pre, h = .asked (.transfer channel .abort config.transfer.requestTimeout) (some reply) ::
      (pre ++ [.told (.write (.finishFailed "cancelled")) (some ())]) ∧ Within [.log, .record] pre := by
  obtain ⟨u', h₁, h₂, rfl, habort, hend⟩ := finishes_bind.mp hf
  obtain ⟨reply, post, rfl, hpost⟩ := finishes_abort habort
  obtain ⟨pre, rfl, hpre⟩ := finishes_conclude_error hend
  exact ⟨reply, post ++ pre, by simp; rfl, within_append.mpr ⟨hpost.mono (by simp), hpre⟩⟩

/-- What a heeded request leaves to do is done where every call is answered: at most an ABORT goes out, and the
record says that the session was stopped. -/
structure Quits {σ : Type} (env : Environment (cameras.sum host) σ) (s : σ) (rest : Action Unit) : Prop where
  finished : (rest.run env s).1 = .finished ()
  aborts : (trace (rest.history env s)).length ≤ 1 ∧ ∀ e ∈ trace (rest.history env s), Requests .abort e.call
  outcome : ∀ r : Record, (r.after (rest.history env s)).outcome? = some (.failed "cancelled")

section Quits

variable {σ : Type} {env : Environment (cameras.sum host) σ}

theorem quits_conclude (henv : env.Answers) (s : σ) {e : UpdateError} (he : e.isStopped = true) :
    Quits env s (conclude (.error e)) := by
  obtain ⟨u, hrun, hf⟩ := henv.finishes (stallsAfter_conclude (.error e)) s
  obtain ⟨pre, hh, hpre⟩ := finishes_conclude_error hf
  have hall : Within [.log, .record, .verdict] ((conclude (.error e)).history env s) :=
    (only_conclude _).within hf.begins
  have htrace : trace ((conclude (.error e)).history env s) = [] := hall.trace_eq_nil (by decide)
  refine ⟨hrun, ?_, fun r => ?_⟩
  · rw [htrace]
    exact ⟨Nat.zero_le 1, nofun⟩
  · rw [hh, Record.after_append, UpdateError.reason_eq_cancelled.mpr he]
    rfl

theorem quits_giveUp (henv : env.Answers) (s : σ) (channel : ControlChannel) :
    Quits env s (giveUp config channel) := by
  obtain ⟨u, hrun, hf⟩ := henv.finishes (stallsAfter_giveUp channel) s
  obtain ⟨reply, pre, hh, hpre⟩ := finishes_giveUp hf
  have htrace : trace ((giveUp config channel).history env s) =
      [.asked (.transfer channel .abort config.transfer.requestTimeout) (some reply)] := by
    rw [hh, trace_cons_of_isEvent rfl, trace_append, hpre.trace_eq_nil (by decide)]
    rfl
  refine ⟨hrun, ?_, fun r => ?_⟩
  · rw [htrace]
    refine ⟨Nat.le_refl 1, fun e he => ?_⟩
    obtain rfl := List.mem_singleton.mp he
    exact requests_transfer.mpr rfl
  · rw [hh, Record.after_cons, Record.after_append]
    rfl

end Quits

/-! ## Two sessions -/

section Sessions

variable {σ : Type} {env : Environment (cameras.sum host) σ} {s : σ × Nat} {n : Nat}

/-- A session with a request to stop is the session without it, or a first part of it after
which the session quits. -/
theorem run_splits (henv : env.Answers) (s : σ × Nat) (n : Nat) :
    (run config image camera).history (env.stoppedAt (some n)) s =
      (run config image camera).history (env.stoppedAt none) s ∧
      (run config image camera).run (env.stoppedAt (some n)) s =
        (run config image camera).run (env.stoppedAt none) s ∨
    ∃ shared rest s' after, Quits (env.stoppedAt (some n)) s' rest ∧ ¬ Heeded shared ∧
      (run config image camera).history (env.stoppedAt (some n)) s =
        shared ++ .looked true :: rest.history (env.stoppedAt (some n)) s' ∧
      (run config image camera).run (env.stoppedAt (some n)) s = rest.run (env.stoppedAt (some n)) s' ∧
      (run config image camera).history (env.stoppedAt none) s = shared ++ .looked false :: after := by
  rcases stop_splits env n (run config image camera) s with
    hsame | ⟨shared, next, s', hc, hnot, hh, hr, hh'⟩
  · exact .inl hsame
  · refine .inr ⟨shared, next true, s', _, ?_, hnot, hh, hr, hh'⟩
    rcases comesTo_stop hc with ⟨e, he, heq⟩ | ⟨channel, -, heq⟩
    · rw [heq]
      exact quits_conclude (henv.stoppedAt _) s' he
    · rw [heq]
      exact quits_giveUp (henv.stoppedAt _) s' channel

@[simp] theorem trace_looked {shared tail : History} {stop : Bool} :
    trace (shared ++ .looked stop :: tail) = trace shared ++ trace tail := by
  rw [trace_append, trace_cons_of_not_isEvent rfl]

theorem not_abort_of_not_heeded (hb : (run config image camera).Begins h) (hnot : ¬ Heeded h) :
    ∀ e ∈ h, ¬ Requests .abort e.call := by
  intro e he habort
  obtain ⟨before, after, channel, rfl, -⟩ := boundary_of_abort hb he habort
  exact hnot (List.mem_append_right before List.mem_cons_self)

/-- A session whose record says failed was closed by the failure of its update. -/
theorem failed_of_outcome? {reason : String} (hb : (run config image camera).Begins h)
    (hfailed : (Record.initial.after h).outcome? = some (.failed reason)) :
    ∃ h₀ h₁ h₂ e, h = h₀ ++ (h₁ ++ h₂) ∧ (attempt config image camera).Finishes h₁ (.error e) ∧
    reason = e.reason := by
  have hnot : ¬ (Record.initial.after h).IsOpen := by
    intro hopen
    rw [Record.IsOpen, hfailed] at hopen
    cases hopen
  rcases begins_run hb with hb | ⟨h₀, h', rfl, hnote, hb⟩
  · exact absurd (Record.isOpen_initial.of_only only_noteImage (by simp) hb) hnot
  have hopen : (Record.initial.after h₀).IsOpen :=
    Record.isOpen_initial.of_only only_noteImage (by simp) hnote.begins
  rw [Record.after_append] at hnot hfailed
  rcases hb with hb | ⟨h₁, h₂, result, rfl, hatt, hb⟩
  · exact absurd (isOpen_of_attempt hopen hb) hnot
  have hopen' := isOpen_of_attempt hopen hatt.begins
  rw [Record.after_append] at hnot hfailed
  cases result with
  | ok u =>
    rcases conclude_ok hopen' hb with h | hend
    · exact absurd h hnot
    · simp only [conclude, bind_eq, finishes_bind, finishes_tell] at hend
      obtain ⟨u', h₃, h₄, rfl, -, rfl⟩ := hend
      rw [Record.after_append] at hfailed
      cases hfailed
  | error e =>
    rcases conclude_error hopen' hb with h | h
    · exact absurd h hnot
    · rw [hfailed] at h
      cases h
      exact ⟨h₀, h₁, h₂, e, rfl, hatt, rfl⟩

theorem result_eq {σ : Type} {env : Environment (cameras.sum host) σ} {s : σ} {session : Action Unit}
    (hlive : (session.run env s).1 ≠ .panicked) : result env s session =
      (Record.initial.after (session.history env s)).outcome?.getD
        (.failed "update task ended without a result") := by
  unfold result outcome
  split
  · exact absurd ‹_› hlive
  · rfl

/-- Without a request no session fails as stopped. -/
theorem result_unstopped (henv : env.Answers) (s : σ × Nat) :
    result (env.stoppedAt none) s (run config image camera) ≠ .failed "cancelled" := by
  intro hresult
  have hb := begins_history (env.stoppedAt none) (run config image camera) s
  have hnot := env.not_heeded_of_unstopped (run config image camera) s
  rw [result_eq ((henv.stoppedAt none).not_panicked _ s)] at hresult
  have hfailed : (Record.initial.after ((run config image camera).history (env.stoppedAt none) s)).outcome? =
      some (.failed "cancelled") := by
    cases ho : (Record.initial.after ((run config image camera).history (env.stoppedAt none) s)).outcome? with
    | none =>
      rw [ho, Option.getD_none] at hresult
      have hreason := Outcome.failed.inj hresult
      revert hreason
      decide +kernel
    | some o =>
      rw [ho, Option.getD_some] at hresult
      rw [hresult]
  obtain ⟨h₀, h₁, h₂, e, hh, hatt, hreason⟩ := failed_of_outcome? hb hfailed
  have hstopped : e.isStopped = true := UpdateError.reason_eq_cancelled.mp hreason.symm
  rw [attempt_eq] at hatt
  obtain ⟨stage, h₃, h₄, rfl, -, hfail⟩ := Stage.finishes_complete_error hatt
  rw [hh] at hnot
  have hnot' : ¬ Heeded h₄ := fun hheeded =>
    hnot (List.mem_append_right _ (List.mem_append_left _ (List.mem_append_right _ hheeded)))
  have hclean : e.isStopped = false := Stage.unstopped_advance stage h₄ e hfail hnot'
  rw [hstopped] at hclean
  cases hclean

/-- Where a request is heeded between two chunks, the download is given up. -/
theorem abort_of_boundary (henv : env.Answers) {n? : Option Nat} {before after : History}
    {channel : ControlChannel}
    (hh : (run config image camera).history (env.stoppedAt n?) s = before ++ .looked true :: after)
    (hboundary : AtChunkBoundary config image camera channel before) : ∃ e ∈ after, Requests .abort e.call := by
  have hb := begins_history (env.stoppedAt n?) (run config image camera) s
  have hgives := (env.stoppedAt n?).gives_history (run config image camera) s
  rw [hh] at hb hgives
  obtain ⟨next, hc, -⟩ := begins_append_cons.mp hb
  have hrest := hc.history_eq ((Environment.gives_append _ _ _ _).mp hgives).1
  rw [hh, List.append_cancel_left_eq, Environment.history_look] at hrest
  obtain ⟨hlook, hafter⟩ := List.cons.inj hrest
  rw [← Event.looked_inj.mp hlook, giveUp_of_atChunkBoundary hboundary hc] at hafter
  obtain ⟨u, -, hf⟩ := (henv.stoppedAt n?).finishes (stallsAfter_giveUp channel)
    ((env.stoppedAt n?).after s before)
  obtain ⟨reply, pre, hgiveUp, -⟩ := finishes_giveUp hf
  rw [hafter, hgiveUp]
  exact ⟨_, List.mem_cons_self, requests_transfer.mpr rfl⟩

/-- An ABORT is the last event of its session. -/
theorem eq_nil_of_abort (henv : env.Answers) {before after : History} {e : Event (cameras.sum host)}
    (hh : trace ((run config image camera).history (env.stoppedAt (some n)) s) = before ++ e :: after)
    (habort : Requests .abort e.call) : after = [] := by
  have hb := begins_history (env.stoppedAt (some n)) (run config image camera) s
  by_contra hne
  obtain ⟨after', last, rfl⟩ := (List.eq_nil_or_concat after).resolve_left hne
  rcases run_splits henv s n with ⟨hsame, -⟩ | ⟨shared, rest, s', after'', hquits, hnot, hstopped, -, -⟩
  · have hnot := env.not_heeded_of_unstopped (run config image camera) s
    have he : e ∈ trace ((run config image camera).history (env.stoppedAt (some n)) s) := by
      rw [hh]
      simp
    rw [hsame] at hb he
    exact not_abort_of_not_heeded hb hnot e (List.mem_of_mem_filter he) habort
  · -- What comes after the ABORT is what the session does once it has heeded the request, so the
    -- ABORT came before.
    rw [hstopped] at hb
    rw [hstopped, trace_looked, List.concat_eq_append, ← List.cons_append, ← List.append_assoc] at hh
    have he : e ∈ trace shared := by
      rcases List.eq_nil_or_concat (trace (rest.history (env.stoppedAt (some n)) s')) with hnil | ⟨init, x, hone⟩
      · rw [hnil, List.append_nil] at hh
        rw [hh]
        simp
      · have hlen := hquits.aborts.1
        rw [hone, List.concat_eq_append, List.length_append, List.length_singleton] at hlen
        obtain rfl : init = [] := List.length_eq_zero_iff.mp (by omega)
        rw [hone, List.concat_eq_append, List.nil_append] at hh
        obtain ⟨hshared, -⟩ := List.append_inj' hh rfl
        rw [hshared]
        simp
    exact not_abort_of_not_heeded hb.of_append hnot e (List.mem_of_mem_filter he) habort

end Sessions

/-- A request to stop only cuts a session short.  Where no call of the world dies, a session that is asked to
stop during its `n`-th event and the same session that is not asked have the same events and the same end; or
the events of the first are a first part of the events of the second and then at most an ABORT, and it fails as
stopped.  There is an ABORT exactly where the request was heeded between two chunks of the download, and nothing
comes after it.  A session that is not asked to stop never fails so, and never sends an ABORT. -/
theorem stop_truncates {σ : Type} (env : Environment (cameras.sum host) σ) (henv : env.Answers) (s : σ)
    {session : Action Unit} (hstart : start config camera image = .ok session) (n : Nat) :
    let stopped := session.history (env.stoppedAt (some n)) (s, 0)
    let unstopped := session.history (env.stoppedAt none) (s, 0)
    (trace stopped = trace unstopped ∧
        result (env.stoppedAt (some n)) (s, 0) session = result (env.stoppedAt none) (s, 0) session ∨
      (∃ shared tail, trace stopped = shared ++ tail ∧ shared <+: trace unstopped ∧ tail.length ≤ 1 ∧
          ∀ e ∈ tail, Requests .abort e.call) ∧
        result (env.stoppedAt (some n)) (s, 0) session = .failed "cancelled") ∧
    ((∃ e ∈ stopped, Requests .abort e.call) ↔ ∃ before after channel,
      stopped = before ++ .looked true :: after ∧ AtChunkBoundary config image camera channel before) ∧
    (∀ before e after, trace stopped = before ++ e :: after → Requests .abort e.call → after = []) ∧
    result (env.stoppedAt none) (s, 0) session ≠ .failed "cancelled" ∧
    ∀ e ∈ unstopped, ¬ Requests .abort e.call := by
  obtain ⟨-, -, rfl⟩ := start_eq_ok.mp hstart
  have hb := begins_history (env.stoppedAt (some n)) (run config image camera) (s, 0)
  have hb' := begins_history (env.stoppedAt none) (run config image camera) (s, 0)
  have hnot := env.not_heeded_of_unstopped (run config image camera) (s, 0)
  refine ⟨?_, ⟨?_, ?_⟩, fun before e after => eq_nil_of_abort henv, result_unstopped henv _,
    not_abort_of_not_heeded hb' hnot⟩
  · rcases run_splits henv (s, 0) n with ⟨hh, hr⟩ | ⟨shared, rest, s', after, hquits, -, hh, hr, hh'⟩
    · refine .inl ⟨congrArg trace hh, ?_⟩
      rw [result, result, hh, hr]
    · refine .inr ⟨⟨trace shared, trace (rest.history (env.stoppedAt (some n)) s'), ?_, ?_, hquits.aborts.1,
        hquits.aborts.2⟩, ?_⟩
      · rw [hh, trace_looked]
      · rw [hh', trace_looked]
        exact List.prefix_append _ _
      · rw [result_eq ((henv.stoppedAt _).not_panicked _ _), hh, Record.after_append,
          Record.after_cons, hquits.outcome]
        rfl
  · rintro ⟨e, he, habort⟩
    obtain ⟨before, after, channel, heq, hboundary⟩ := boundary_of_abort hb he habort
    exact ⟨before, e :: after, channel, heq, hboundary⟩
  · rintro ⟨before, after, channel, heq, hboundary⟩
    obtain ⟨e, he, habort⟩ := abort_of_boundary henv heq hboundary
    refine ⟨e, ?_, habort⟩
    rw [heq]
    simp [he]

/-- A session that is asked to stop while its loader is prepared: the download is given up
before its first chunk. -/
theorem stop_truncates_obliging :
    let o : Obliging := { camera := Obliging.unit }
    let session := run Obliging.config Obliging.image Obliging.unit
    let stopped := session.history (Obliging.world.stoppedAt (some 14)) (o, 0)
    start Obliging.config Obliging.unit Obliging.image = .ok session ∧
      result (Obliging.world.stoppedAt (some 14)) (o, 0) session = .failed "cancelled" ∧
      (∃ before after channel, stopped = before ++ .looked true :: after ∧
        AtChunkBoundary Obliging.config Obliging.image Obliging.unit channel before) ∧
      ∀ before e after, trace stopped = before ++ e :: after → Requests .abort e.call → after = [] := by
  intro o session stopped
  have hstart : start Obliging.config Obliging.unit Obliging.image = .ok session :=
    start_eq_ok.mpr ⟨by decide +kernel, .inr rfl, rfl⟩
  have hcancelled : result (Obliging.world.stoppedAt (some 14)) (o, 0) session =
      .failed "cancelled" := by decide +kernel
  have habort : .asked (.transfer ⟨0⟩ .abort defaultRequestTimeout) (some (.ok .abort)) ∈ stopped := by
    decide +kernel
  obtain ⟨-, hboundary, hlast, -, -⟩ := stop_truncates Obliging.world answers_obliging o hstart 14
  exact ⟨hstart, hcancelled, hboundary.mp ⟨_, habort, requests_transfer.mpr rfl⟩, hlast⟩

end Session

end Reflash
