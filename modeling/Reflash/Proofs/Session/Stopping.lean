import Reflash.Proofs.Dfu.Rounds
import Reflash.Proofs.Session.Stages

/-!
# Reflash.Proofs.Session.Stopping — how each stage of an update stops

Every stage that heeds a request to stop ends at once with its own failure (`Stage.stopsAs_advance`);
only the stage that sends the chunks gives the download up first (`Stage.comesTo_stop_sending`).  And
without a request no stage fails with one of these failures (`Stage.unstopped_advance`), so they tell of
a stop and of nothing else.
-/

namespace Reflash

open Program

theorem ne_stop_of_quiet (c : (cameras.sum host).Call) (hc : ofKinds [.clock, .log] c) : kindOf c ≠ .stop := by
  intro hstop
  rw [ofKinds, hstop] at hc
  simp at hc

/-! ## Searches -/

namespace Search

variable {s : Search}

theorem stopsAs_loop (hs : s.heedsStop = true) (start : Nanos) (rounds : Nat) :
    (s.loop start rounds).StopsAs (.error .stopped) := by
  induction rounds with
  | zero => exact fun _ _ hc => absurd hc not_comesTo_stalled
  | succ rounds ih =>
    have hlook : shouldStop s.heedsStop = tell .stopRequested := by
      rw [hs]
      rfl
    rw [loop, hlook]
    refine stopsAs_look rfl ?_
    refine stopsAs_after (only_scan.ne_kind (by simp)) fun camera? => ?_
    cases camera? with
    | some camera =>
      refine stopsAs_of_only ?_ _
      exact only_bind (only_tell.mpr (by simp)) fun now => only_bind (only_report.mpr (by simp)) fun _ => trivial
    | none =>
      refine stopsAs_after (only_tell.mpr (by simp)) fun now => ?_
      split
      · exact stopsAs_done _ _
      · exact stopsAs_after (only_tell.mpr (by simp)) fun _ => ih

theorem stopsAs_run (hs : s.heedsStop = true) : s.run.StopsAs (.error .stopped) := by
  refine stopsAs_after (only_tell.mpr (by simp)) fun start => ?_
  exact stopsAs_after (only_report.mpr (by simp)) fun _ => stopsAs_loop hs start _

theorem unstopped_loop (start : Nanos) (rounds : Nat) : (s.loop start rounds).Unstopped (· ≠ .error .stopped) := by
  induction rounds with
  | zero => exact fun _ _ hf => absurd hf not_finishes_stalled
  | succ rounds ih =>
    refine unstopped_shouldStop ?_
    refine unstopped_bind fun camera? => ?_
    cases camera? with
    | some camera => exact unstopped_bind fun now => unstopped_bind fun _ => unstopped_done nofun
    | none =>
      refine unstopped_bind fun now => ?_
      split
      · exact unstopped_done nofun
      · exact unstopped_bind fun _ => ih

theorem unstopped_run : s.run.Unstopped (· ≠ .error .stopped) :=
  unstopped_bind fun start => unstopped_bind fun _ => unstopped_loop start _

end Search

/-! ## Backups -/

namespace Flash

variable {camera : Camera} {config : BackupConfig} {progress : Single → Action Unit}

theorem stopsAs_readChunks (hprogress : ∀ x, (progress x).Only fun c => kindOf c ≠ .stop) (left : Nat)
    (done : List Bytes) :
    (readChunks camera config progress true left done).StopsAs (.error .stopped) := by
  induction left generalizing done with
  | zero => exact stopsAs_done _ _
  | succ left ih =>
    refine stopsAs_look rfl ?_
    refine stopsAs_after (hprogress _) fun _ => ?_
    refine stopsAs_after ((only_readChunk _ _ _ _).ne_kind (by simp)) fun reply => ?_
    cases reply with
    | ok data => exact ih (data :: done)
    | error e => exact stopsAs_done _ _

theorem stopsAs_read (hprogress : ∀ x, (progress x).Only fun c => kindOf c ≠ .stop) :
    (read camera config progress true).StopsAs (.error .stopped) := by
  refine stopsAs_bind (stopsAs_readChunks hprogress _ _) rfl fun result => ?_
  cases result with
  | ok flash =>
    refine stopsAs_after (hprogress _) fun _ => ?_
    exact stopsAs_after (only_report.mpr (by simp)) fun _ => stopsAs_done _ _
  | error e => exact stopsAs_done _ _

theorem unstopped_readChunks (left : Nat) (done : List Bytes) :
    (readChunks camera config progress true left done).Unstopped (· ≠ .error .stopped) := by
  induction left generalizing done with
  | zero => exact unstopped_done nofun
  | succ left ih =>
    refine unstopped_shouldStop ?_
    refine unstopped_bind fun _ => unstopped_bind fun reply => ?_
    cases reply with
    | ok data => exact ih (data :: done)
    | error e => exact unstopped_done nofun

theorem unstopped_read : (read camera config progress true).Unstopped (· ≠ .error .stopped) := by
  intro h result hf hnot
  obtain ⟨dump, h₁, h₂, rfl, hread, hend⟩ := finishes_bind.mp hf
  have hdump := unstopped_readChunks _ _ h₁ dump hread fun hh => hnot (heeded_append.mpr (.inl hh))
  cases dump with
  | ok flash =>
    obtain ⟨u, h₃, h₄, rfl, -, hend⟩ := finishes_bind.mp hend
    obtain ⟨u', h₅, h₆, rfl, -, hend⟩ := finishes_bind.mp hend
    rw [(finishes_done.mp hend).2]
    nofun
  | error e =>
    rw [(finishes_done.mp hend).2]
    intro heq
    cases heq
    exact hdump rfl

/-- Nobody stops the writing of a backup. -/
theorem unstopped_persist {dir identity : String} {flash : Bytes} :
    (persist dir identity flash).Unstopped (· ≠ .stopped) := by
  intro h e hf _
  obtain ⟨pre, cause, ⟨path, rfl⟩, -⟩ := finishes_persist_error hf
  nofun

end Flash

/-! ## Downloads -/

theorem Wait.unstopped_loop {w : Wait} {channel : ControlChannel} (start : Nanos) (rounds : Nat)
    (last : Option DeviceStatus) :
    (w.loop channel start rounds last).Unstopped (· ≠ .error .stopped) := by
  induction rounds generalizing last with
  | zero => exact fun _ _ hf => absurd hf not_finishes_stalled
  | succ rounds ih =>
    refine unstopped_shouldStop ?_
    refine unstopped_bind fun reply => unstopped_bind fun _ => ?_
    split
    · rename_i result hverdict
      refine unstopped_done ?_
      rintro rfl
      -- No reply says that a wait was stopped.
      unfold verdict? at hverdict
      split at hverdict
      · split_ifs at hverdict
        cases hverdict
      · cases hverdict
      · cases hverdict
    · refine unstopped_bind fun now => ?_
      split
      · exact unstopped_done nofun
      · exact unstopped_bind fun _ => ih _

theorem Wait.unstopped_run {w : Wait} {channel : ControlChannel} :
    (w.run channel).Unstopped (· ≠ .error .stopped) :=
  unstopped_bind fun start => unstopped_loop start _ none

namespace Dfu

variable {channel : ControlChannel} {config : TransferConfig} {progress : Single → Action Unit}
  {transaction : UInt16}

theorem unstopped_prepare : (prepare channel config).Unstopped (· ≠ .stopped) := by
  refine Attempt.unstopped_bind (Attempt.unstopped_discard (Attempt.unstopped_of_all nofun)) fun _ => ?_
  refine Attempt.unstopped_bind (Attempt.unstopped_of_all nofun) fun status => ?_
  refine Attempt.unstopped_bind (Attempt.unstopped_lift _) fun _ => ?_
  split
  · exact Attempt.unstopped_pure _
  · exact Attempt.unstopped_pure _
  · exact Attempt.unstopped_throw nofun

theorem unstopped_send {payload : Bytes} : (send channel config transaction payload).Unstopped (· ≠ .stopped) :=
  Attempt.unstopped_discard (Attempt.unstopped_of_all nofun)

theorem unstopped_awaitChunk : (awaitChunk channel config transaction).Unstopped (· ≠ .stopped) := by
  refine Attempt.unstopped_bind (Attempt.unstopped_of ?_) fun status => Attempt.unstopped_decided ?_
  · intro h r hf hnot e hr
    have hne := Wait.unstopped_run h r hf hnot
    cases e with
    | stopped => exact absurd hr hne
    | timeout after expected last => nofun
    | link e => nofun
  · intro e he
    unfold chunkVerdict at he
    split_ifs at he <;> cases he <;> nofun

theorem unstopped_sendChunks (total : Nat) (chunks : List Chunk) (image : Bytes) (sent : Nat)
    (transaction : UInt16) :
    (sendChunks channel config true progress total chunks image sent transaction).Unstopped (· ≠ .stopped) := by
  induction chunks generalizing image sent transaction with
  | nil => exact Attempt.unstopped_bind (Attempt.unstopped_lift _) fun _ => Attempt.unstopped_pure _
  | cons chunk chunks ih =>
    refine Attempt.unstopped_look ?_
    refine Attempt.unstopped_bind unstopped_send fun _ =>
      Attempt.unstopped_bind (Attempt.unstopped_lift _) fun _ => ?_
    exact Attempt.unstopped_bind unstopped_awaitChunk fun _ => ih _ _ _

theorem unstopped_download {image : Bytes} :
    (download channel config true image progress).Unstopped (· ≠ .stopped) := by
  unfold download
  split
  · exact Attempt.unstopped_bind (Attempt.unstopped_throw nofun) fun _ => unstopped_sendChunks _ _ _ _ _
  · exact unstopped_sendChunks _ _ _ _ _

theorem unstopped_finish : (finish channel config progress transaction).Unstopped (· ≠ .stopped) :=
  Attempt.unstopped_bind unstopped_send fun _ =>
    Attempt.unstopped_bind (Attempt.unstopped_lift _) fun _ => Attempt.unstopped_lift _

theorem unstopped_manifest : (manifest channel config).Unstopped (· ≠ .stopped) := by
  refine Attempt.unstopped_bind (Attempt.unstopped_lift _) fun _ => ?_
  refine Attempt.unstopped_bind (Attempt.unstopped_of ?_) fun status => Attempt.unstopped_decided ?_
  · intro h r hf hnot e hr
    have hne := Wait.unstopped_run h r hf hnot
    cases e with
    | stopped => exact absurd hr hne
    | timeout after expected last => nofun
    | link e => nofun
  · intro e he
    unfold manifestVerdict at he
    split_ifs at he <;> cases he <;> nofun

/-! ## Calls of the parts of a download -/

section Footprint

variable {P : (cameras.sum host).Call → Prop}
  (hquery : P (.inl (.transfer channel .getStatus config.requestTimeout)))
  (hquiet : ∀ c, ofKinds [.clock, .log] c → P c)

include hquery hquiet

theorem only_prepare_of (hdetach : P (.inl (.transfer channel (.detach config.detachMillis)
    (Nanos.ofMillis config.detachMillis.toNat)))) : Attempt.Only P (prepare channel config) := by
  refine Attempt.only_bind (Attempt.only_discard (Attempt.only_of (only_ask.mpr hdetach))) fun _ => ?_
  refine Attempt.only_bind (Attempt.only_of (only_queryStatus hquery)) fun status => ?_
  refine Attempt.only_bind (Attempt.only_lift (only_report.mpr (hquiet _ (by simp)))) fun _ => ?_
  split <;> trivial

theorem only_manifest_of : Attempt.Only P (manifest channel config) := by
  refine Attempt.only_bind (Attempt.only_lift (only_report.mpr (hquiet _ (by simp)))) fun _ => ?_
  refine Attempt.only_bind (Attempt.only_of ?_) fun _ => Attempt.only_decided _
  refine (Wait.only_run_of_deaf (w := manifestWait config) rfl).mono fun c hc => ?_
  rcases hc with rfl | hc
  · exact hquery
  · exact hquiet c hc

end Footprint

/-- A preparation downloads nothing. -/
theorem not_requests_prepare : Attempt.Only (fun c => ¬ Requests .download c) (prepare channel config) := by
  refine only_prepare_of ?_ (fun c hc => not_requests_of_ofKinds hc (by simp)) ?_
  · rw [requests_transfer]
    exact (by decide : DfuRequest.getStatus.code ≠ DfuRequest.download.code)
  · rw [requests_transfer]
    exact (by decide : DfuRequest.detach.code ≠ DfuRequest.download.code)

theorem only_finish_of {P : (cameras.sum host).Call → Prop} (hquiet : ∀ c, ofKinds [.clock, .log] c → P c)
    (hsend : P (.inl (.transfer channel (.download transaction []) config.requestTimeout)))
    (hprogress : ∀ x, (progress x).Only P) : Attempt.Only P (finish channel config progress transaction) := by
  refine Attempt.only_bind (Attempt.only_discard (Attempt.only_of (only_ask.mpr hsend))) fun _ => ?_
  exact Attempt.only_bind (Attempt.only_lift (only_tell.mpr (hquiet _ (by simp)))) fun _ =>
    Attempt.only_lift (hprogress _)

end Dfu

/-! ## Steps of a session -/

namespace Session

variable {config : UpdateConfig} {camera : Camera} {identity : String}

theorem heedless_note (line : String) : (note line).Only fun c => kindOf c ≠ .stop := by
  have h : (note line).Only (ofKinds [.log, .record]) := only_note (by simp) (by simp) line
  exact h.ne_kind (by simp)

theorem heedless_enterPhase {phase : Phase} (hphase : phase.isTerminal = false) :
    (enterPhase phase).Only fun c => kindOf c ≠ .stop := by
  have h : (enterPhase phase).Only (ofKinds [.log, .record]) := only_enterPhase (by simp) (by simp) hphase
  exact h.ne_kind (by simp)

theorem heedless_setProgress (n : Nat) : (setProgress n).Only fun c => kindOf c ≠ .stop := by
  have h : (setProgress n).Only (ofKinds [.record]) := only_setProgress (by simp) n
  exact h.ne_kind (by simp)

/-- What looks at no request is stopped by none. -/
theorem stopsAs_lift {ε α : Type} {p : Action α} (hp : p.Only fun c => kindOf c ≠ .stop) (e : ε) :
    (liftM p : Attempt ε α).StopsAs e := Attempt.stopsAs_of_only (Attempt.only_lift hp) e

theorem stopsAs_ensureLive : ensureLive.StopsAs .stopped := Attempt.stopsAs_look rfl (Attempt.stopsAs_pure _ _)

theorem stopsAs_identify : (identify camera).StopsAs .stopped := by
  refine Attempt.stopsAs_bind stopsAs_ensureLive fun _ => ?_
  have hread : (identityOf camera).Only fun c => kindOf c ≠ .stop := only_identityOf (by simp) (by simp)
  refine Attempt.stopsAs_bind (Attempt.stopsAs_of_only (Attempt.only_of hread) _) fun identity? => ?_
  cases identity? with
  | none => exact Attempt.stopsAs_throw _ _
  | some identity =>
    exact Attempt.stopsAs_bind (stopsAs_lift (heedless_note _) _) fun _ => Attempt.stopsAs_pure _ _

theorem stopsAs_backUp {backup : BackupConfig} : (backUp camera backup identity).StopsAs (.backup .stopped) := by
  refine Attempt.stopsAs_bind (stopsAs_lift (heedless_enterPhase rfl) _) fun _ => ?_
  refine Attempt.stopsAs_bind (stopsAs_lift (heedless_setProgress _) _) fun _ => ?_
  refine Attempt.stopsAs_bind (stopsAs_lift (heedless_note _) _) fun _ => ?_
  have hread : (Flash.read camera backup (fun x => setProgress (backup.scaleProgress x)) true).StopsAs
      (.error .stopped) :=
    Flash.stopsAs_read fun x => heedless_setProgress _
  refine Attempt.stopsAs_bind (Attempt.stopsAs_of hread) fun flash => ?_
  refine Attempt.stopsAs_bind (Attempt.stopsAs_of_only (Attempt.only_of ?_) _) fun path => ?_
  · exact (Flash.only_persist).ne_kind (by simp)
  refine Attempt.stopsAs_bind (stopsAs_lift (heedless_note _) _) fun _ => ?_
  exact stopsAs_lift (heedless_setProgress _) _

theorem stopsAs_secure : (secure config camera identity).StopsAs (.backup .stopped) := by
  unfold secure
  split
  · exact Attempt.stopsAs_pure _ _
  · refine Attempt.stopsAs_bind (stopsAs_lift (only_ask.mpr (by simp)) _) fun offered => ?_
    split
    · exact stopsAs_backUp
    · exact stopsAs_lift (heedless_note _) _

theorem stopsAs_switchMode : (switchMode camera).StopsAs .stopped := by
  refine Attempt.stopsAs_bind stopsAs_ensureLive fun _ => ?_
  refine Attempt.stopsAs_bind (stopsAs_lift (heedless_enterPhase rfl) _) fun _ => ?_
  refine Attempt.stopsAs_bind (Attempt.stopsAs_of_only (Attempt.only_of (only_ask.mpr (by simp))) _) fun _ => ?_
  exact stopsAs_lift (heedless_note _) _

theorem stopsAs_findRecovery : (findRecovery config identity).StopsAs .stopped := by
  refine Attempt.stopsAs_bind stopsAs_ensureLive fun _ => ?_
  refine Attempt.stopsAs_bind (stopsAs_lift (heedless_enterPhase rfl) _) fun _ => ?_
  have hsearch := Search.stopsAs_run (s := searchFor config identity .recovery) rfl
  refine Attempt.stopsAs_bind (Attempt.stopsAs_of (f := UpdateError.ofSearch .recoveryTimeout) hsearch)
    fun recovery => ?_
  refine Attempt.stopsAs_bind (stopsAs_lift (heedless_note _) _) fun _ => ?_
  exact Attempt.stopsAs_bind (stopsAs_lift (heedless_setProgress _) _) fun _ => Attempt.stopsAs_pure _ _

theorem stopsAs_openChannel : (openChannel camera).StopsAs .stopped := by
  refine Attempt.stopsAs_bind stopsAs_ensureLive fun _ => ?_
  refine Attempt.stopsAs_bind (stopsAs_lift (heedless_enterPhase rfl) _) fun _ => ?_
  refine Attempt.stopsAs_bind (stopsAs_lift (heedless_note _) _) fun _ => ?_
  exact Attempt.stopsAs_of_only (Attempt.only_of (only_ask.mpr (by simp))) _

theorem stopsAs_awaitReturn (identity? : Option String) : (awaitReturn config identity?).StopsAs .stopped := by
  cases identity? with
  | none => exact stopsAs_lift (heedless_note _) _
  | some identity =>
    refine Attempt.stopsAs_bind stopsAs_ensureLive fun _ => ?_
    refine Attempt.stopsAs_bind (stopsAs_lift (heedless_enterPhase rfl) _) fun _ => ?_
    refine Attempt.stopsAs_bind (stopsAs_lift (heedless_note _) _) fun _ => ?_
    have hsearch := Search.stopsAs_run (s := searchFor config identity .normal) rfl
    refine Attempt.stopsAs_bind (Attempt.stopsAs_of (f := UpdateError.ofSearch .reconnectTimeout) hsearch)
      fun found => ?_
    refine Attempt.stopsAs_bind (stopsAs_lift (only_ask.mpr (by simp)) _) fun version => ?_
    split
    · exact Attempt.stopsAs_bind (stopsAs_lift (heedless_note _) _) fun _ =>
        stopsAs_lift (heedless_setProgress _) _
    · exact Attempt.stopsAs_bind (stopsAs_lift (heedless_note _) _) fun _ =>
        stopsAs_lift (heedless_setProgress _) _

/-! ## Failures without a stop -/

theorem unstopped_ensureLive : ensureLive.Unstopped fun e => e.isStopped = false := by
  have hlook : (tell .stopRequested : Action Bool) = shouldStop true := rfl
  rw [ensureLive, hlook]
  exact Attempt.unstopped_look (Attempt.unstopped_pure _)

theorem unstopped_identify : (identify camera).Unstopped fun e => e.isStopped = false := by
  refine Attempt.unstopped_bind unstopped_ensureLive fun _ => ?_
  refine Attempt.unstopped_bind (Attempt.unstopped_of_all fun _ => rfl) fun identity? => ?_
  cases identity? with
  | none => exact Attempt.unstopped_throw rfl
  | some identity => exact Attempt.unstopped_bind (Attempt.unstopped_lift _) fun _ => Attempt.unstopped_pure _

theorem isStopped_backup {e : BackupError} (he : e ≠ .stopped) : (UpdateError.backup e).isStopped = false := by
  cases e <;> first | rfl | exact absurd rfl he

theorem isStopped_transfer {e : TransferError} (he : e ≠ .stopped) :
    (UpdateError.transfer e).isStopped = false := by
  cases e <;> first | rfl | exact absurd rfl he

/-- What fails otherwise than by a stop, in a part whose failures are worded alike. -/
theorem unstopped_part {δ α : Type} {stopped : δ} {f : δ → UpdateError} {x : Action (Except δ α)}
    (hx : x.Unstopped (· ≠ .error stopped)) (hf : ∀ d, d ≠ stopped → (f d).isStopped = false) :
    (Attempt.of f x).Unstopped fun e => e.isStopped = false := by
  refine Attempt.unstopped_of fun h r hfin hnot d hd => hf d ?_
  rintro rfl
  exact hx h r hfin hnot hd

theorem unstopped_attempt_part {δ α : Type} {stopped : δ} {f : δ → UpdateError} {x : Attempt δ α}
    (hx : x.Unstopped (· ≠ stopped)) (hf : ∀ d, d ≠ stopped → (f d).isStopped = false) :
    (Attempt.of f x.run).Unstopped fun e => e.isStopped = false := by
  refine Attempt.unstopped_of fun h r hfin hnot d hd => hf d ?_
  subst hd
  exact hx h d hfin hnot

theorem unstopped_secure : (secure config camera identity).Unstopped fun e => e.isStopped = false := by
  unfold secure
  split
  · exact Attempt.unstopped_pure _
  · refine Attempt.unstopped_bind (Attempt.unstopped_lift _) fun offered => ?_
    split
    · refine Attempt.unstopped_bind (Attempt.unstopped_lift _) fun _ => ?_
      refine Attempt.unstopped_bind (Attempt.unstopped_lift _) fun _ => ?_
      refine Attempt.unstopped_bind (Attempt.unstopped_lift _) fun _ => ?_
      refine Attempt.unstopped_bind (unstopped_part Flash.unstopped_read fun _ => isStopped_backup) fun flash => ?_
      refine Attempt.unstopped_bind (unstopped_attempt_part Flash.unstopped_persist fun _ => isStopped_backup)
        fun path => ?_
      exact Attempt.unstopped_bind (Attempt.unstopped_lift _) fun _ => Attempt.unstopped_lift _
    · exact Attempt.unstopped_lift _

theorem unstopped_switchMode : (switchMode camera).Unstopped fun e => e.isStopped = false := by
  refine Attempt.unstopped_bind unstopped_ensureLive fun _ =>
    Attempt.unstopped_bind (Attempt.unstopped_lift _) fun _ => ?_
  exact Attempt.unstopped_bind (Attempt.unstopped_of_all fun _ => rfl) fun _ => Attempt.unstopped_lift _

/-- A search that nobody stops has run out of time. -/
theorem isStopped_ofSearch {late : UpdateError} (hlate : late.isStopped = false) (e : SearchError)
    (he : e ≠ .stopped) :
    (UpdateError.ofSearch late e).isStopped = false := by
  cases e with
  | timedOut identity after => exact hlate
  | stopped => exact absurd rfl he

theorem unstopped_findRecovery : (findRecovery config identity).Unstopped fun e => e.isStopped = false := by
  refine Attempt.unstopped_bind unstopped_ensureLive fun _ =>
    Attempt.unstopped_bind (Attempt.unstopped_lift _) fun _ => ?_
  refine Attempt.unstopped_bind (unstopped_part Search.unstopped_run (isStopped_ofSearch rfl)) fun recovery => ?_
  refine Attempt.unstopped_bind (Attempt.unstopped_lift _) fun _ => ?_
  exact Attempt.unstopped_bind (Attempt.unstopped_lift _) fun _ => Attempt.unstopped_pure _

theorem unstopped_openChannel : (openChannel camera).Unstopped fun e => e.isStopped = false := by
  refine Attempt.unstopped_bind unstopped_ensureLive fun _ =>
    Attempt.unstopped_bind (Attempt.unstopped_lift _) fun _ => ?_
  exact Attempt.unstopped_bind (Attempt.unstopped_lift _) fun _ => Attempt.unstopped_of_all fun _ => rfl

theorem unstopped_awaitReturn (identity? : Option String) :
    (awaitReturn config identity?).Unstopped fun e => e.isStopped = false := by
  cases identity? with
  | none => exact Attempt.unstopped_lift _
  | some identity =>
    refine Attempt.unstopped_bind unstopped_ensureLive fun _ =>
      Attempt.unstopped_bind (Attempt.unstopped_lift _) fun _ => ?_
    refine Attempt.unstopped_bind (Attempt.unstopped_lift _) fun _ => ?_
    refine Attempt.unstopped_bind (unstopped_part Search.unstopped_run (isStopped_ofSearch rfl)) fun found => ?_
    refine Attempt.unstopped_bind (Attempt.unstopped_lift _) fun version => ?_
    split
    · exact Attempt.unstopped_bind (Attempt.unstopped_lift _) fun _ => Attempt.unstopped_lift _
    · exact Attempt.unstopped_bind (Attempt.unstopped_lift _) fun _ => Attempt.unstopped_lift _

/-! ## Stages -/

namespace Stage

variable {image : FirmwareImage} {a : Stage} {h : History}

/-- How a stage fails that heeds a request to stop. -/
def stopError : Stage → UpdateError
  | securing _ _ => .backup .stopped
  | sending _ _ => .transfer .stopped
  | _ => .stopped

theorem isStopped_stopError (a : Stage) : a.stopError.isStopped = true := by
  cases a <;> rfl

/-- A stage that sends no chunks ends where it heeds a request. -/
theorem stopsAs_advance (ha : ∀ channel identity?, a ≠ sending channel identity?) :
    (a.advance config image).StopsAs a.stopError := by
  cases a with
  | identifying camera => exact Attempt.stopsAs_bind stopsAs_identify fun _ => Attempt.stopsAs_pure _ _
  | securing camera identity => exact Attempt.stopsAs_bind stopsAs_secure fun _ => Attempt.stopsAs_pure _ _
  | switching camera identity => exact Attempt.stopsAs_bind stopsAs_switchMode fun _ => Attempt.stopsAs_pure _ _
  | finding identity => exact Attempt.stopsAs_bind stopsAs_findRecovery fun _ => Attempt.stopsAs_pure _ _
  | opening camera identity? => exact Attempt.stopsAs_bind stopsAs_openChannel fun _ => Attempt.stopsAs_pure _ _
  | sending channel identity? => exact absurd rfl (ha channel identity?)
  | returning identity? =>
    exact Attempt.stopsAs_bind (stopsAs_awaitReturn identity?) fun _ => Attempt.stopsAs_pure _ _
  | completed => exact Attempt.stopsAs_pure _ _
  | recognising camera =>
    exact Attempt.stopsAs_bind (stopsAs_lift ((only_recognise camera).ne_kind (by simp)) _) fun _ =>
      Attempt.stopsAs_pure _ _
  | preparing channel identity? =>
    have honly : (Dfu.prepare channel config.transfer).Only fun c => kindOf c ≠ .stop :=
      Dfu.only_prepare_of (by simp) ne_stop_of_quiet (by simp)
    refine Attempt.stopsAs_bind (Attempt.stopsAs_of_only ?_ _) fun _ => Attempt.stopsAs_pure _ _
    exact Attempt.only_discard (Attempt.only_of honly)
  | ending channel identity? transaction =>
    have honly : (Dfu.finish channel config.transfer heedTransfer transaction).Only fun c => kindOf c ≠ .stop :=
      Dfu.only_finish_of ne_stop_of_quiet (by simp) fun x => heedless_setProgress _
    exact Attempt.stopsAs_bind (Attempt.stopsAs_of_only (Attempt.only_of honly) _) fun _ =>
      Attempt.stopsAs_pure _ _
  | manifesting channel identity? =>
    have honly : (Dfu.manifest channel config.transfer).Only fun c => kindOf c ≠ .stop :=
      Dfu.only_manifest_of (by simp) ne_stop_of_quiet
    refine Attempt.stopsAs_bind (Attempt.stopsAs_of_only (Attempt.only_discard (Attempt.only_of honly)) _)
      fun _ => ?_
    refine Attempt.stopsAs_bind (stopsAs_lift (heedless_note _) _) fun _ => ?_
    exact Attempt.stopsAs_bind (stopsAs_lift (heedless_setProgress _) _) fun _ => Attempt.stopsAs_pure _ _

theorem unstopped_advance (a : Stage) : (a.advance config image).Unstopped fun e => e.isStopped = false := by
  cases a with
  | identifying camera => exact Attempt.unstopped_bind unstopped_identify fun _ => Attempt.unstopped_pure _
  | securing camera identity => exact Attempt.unstopped_bind unstopped_secure fun _ => Attempt.unstopped_pure _
  | switching camera identity =>
    exact Attempt.unstopped_bind unstopped_switchMode fun _ => Attempt.unstopped_pure _
  | finding identity => exact Attempt.unstopped_bind unstopped_findRecovery fun _ => Attempt.unstopped_pure _
  | recognising camera => exact Attempt.unstopped_bind (Attempt.unstopped_lift _) fun _ => Attempt.unstopped_pure _
  | opening camera identity? =>
    exact Attempt.unstopped_bind unstopped_openChannel fun _ => Attempt.unstopped_pure _
  | preparing channel identity? =>
    refine Attempt.unstopped_bind (Attempt.unstopped_discard ?_) fun _ => Attempt.unstopped_pure _
    exact unstopped_attempt_part Dfu.unstopped_prepare fun _ => isStopped_transfer
  | sending channel identity? =>
    refine Attempt.unstopped_bind ?_ fun _ => Attempt.unstopped_pure _
    exact unstopped_attempt_part Dfu.unstopped_download fun _ => isStopped_transfer
  | ending channel identity? transaction =>
    refine Attempt.unstopped_bind ?_ fun _ => Attempt.unstopped_pure _
    exact unstopped_attempt_part Dfu.unstopped_finish fun _ => isStopped_transfer
  | manifesting channel identity? =>
    refine Attempt.unstopped_bind (Attempt.unstopped_discard ?_) fun _ => ?_
    · exact unstopped_attempt_part Dfu.unstopped_manifest fun _ => isStopped_transfer
    refine Attempt.unstopped_bind (Attempt.unstopped_lift _) fun _ => ?_
    exact Attempt.unstopped_bind (Attempt.unstopped_lift _) fun _ => Attempt.unstopped_pure _
  | returning identity? =>
    exact Attempt.unstopped_bind (unstopped_awaitReturn identity?) fun _ => Attempt.unstopped_pure _
  | completed => exact Attempt.unstopped_pure _

/-- The stages that send no chunks send DETACH, status queries and empty downloads. -/
theorem only_advance_of {Q : ControlPacket → Prop} (ha : ∀ channel identity?, a ≠ sending channel identity?)
    (hdetach : ∀ millis, Q (.detach millis)) (hquery : Q .getStatus)
    (hend : ∀ transaction, Q (.download transaction [])) :
    (a.advance config image).Only fun c =>
      ∀ channel packet timeout, c = .inl (.transfer channel packet timeout) → Q packet := by
  -- Only transfers are restricted.
  have hother : ∀ c : (cameras.sum host).Call, kindOf c ≠ .transfer →
      ∀ channel packet timeout, c = .inl (.transfer channel packet timeout) → Q packet := by
    rintro c hc channel packet timeout rfl
    exact absurd rfl hc
  have hquiet : ∀ c : (cameras.sum host).Call, ofKinds [.clock, .log, .record] c →
      ∀ channel packet timeout, c = .inl (.transfer channel packet timeout) → Q packet := by
    rintro c hc channel packet timeout rfl
    simp at hc
  have hsent : ∀ (channel : ControlChannel) (packet : ControlPacket) (timeout : Nanos), Q packet →
      ∀ channel' packet' timeout', (.inl (.transfer channel packet timeout) : CameraCall ⊕ HostCall) =
        .inl (.transfer channel' packet' timeout') → Q packet' := by
    rintro channel packet timeout hpacket _ _ _ ⟨⟩
    exact hpacket
  cases a with
  | sending channel identity? => exact absurd rfl (ha channel identity?)
  | preparing channel identity? =>
    refine Attempt.only_bind (Attempt.only_discard (Attempt.only_of ?_)) fun _ => Attempt.only_pure _
    exact Dfu.only_prepare_of (hsent _ _ _ hquery) (fun c hc => hquiet c (ofKinds.mono (by simp) c hc))
      (hsent _ _ _ (hdetach _))
  | ending channel identity? transaction =>
    refine Attempt.only_bind (Attempt.only_of ?_) fun _ => Attempt.only_pure _
    refine Dfu.only_finish_of (fun c hc => hquiet c (ofKinds.mono (by simp) c hc))
      (hsent _ _ _ (hend _)) fun x => ?_
    exact only_tell.mpr (hquiet _ (by simp [Write.isVerdict]))
  | manifesting channel identity? =>
    have hmanifest := Dfu.only_manifest_of (hsent channel .getStatus config.transfer.requestTimeout hquery)
      fun c hc => hquiet c (ofKinds.mono (by simp) c hc)
    refine Attempt.only_bind (Attempt.only_discard (Attempt.only_of hmanifest)) fun _ => ?_
    refine Attempt.only_bind (Attempt.only_lift ((only_note (by simp) (by simp) _).mono hquiet)) fun _ => ?_
    exact Attempt.only_bind (Attempt.only_lift (only_tell.mpr (hquiet _ (by simp [Write.isVerdict])))) fun _ =>
      Attempt.only_pure _
  | _ => exact Program.Only.mono (Attempt.Only.ne_kind (only_advance _) (by simp [kinds])) hother

/-- Only the stage that sends the chunks gives a download up. -/
theorem abortless_advance (ha : ∀ channel identity?, a ≠ sending channel identity?) :
    (a.advance config image).Only fun c => ¬ Requests .abort c := by
  refine Program.Only.mono
    (only_advance_of (Q := fun packet => packet.request ≠ DfuRequest.abort.code) ha ?_ ?_ ?_) ?_
  · exact fun _ => (by decide : DfuRequest.detach.code ≠ DfuRequest.abort.code)
  · exact (by decide : DfuRequest.getStatus.code ≠ DfuRequest.abort.code)
  · exact fun _ => (by decide : DfuRequest.download.code ≠ DfuRequest.abort.code)
  · rintro c hc ⟨channel, packet, timeout, rfl, hpacket⟩
    exact hc channel packet timeout rfl hpacket

/-! ## The stage that sends the chunks -/

variable {channel : ControlChannel} {identity? : Option String}

/-- The stage comes to a call where its download does, and goes on as the download does. -/
theorem comesTo_sending {c : (cameras.sum host).Call}
    {next : (cameras.sum host).Answer c → Action (Except UpdateError Stage)}
    (hc : ((sending channel identity?).advance config image).run.ComesTo h c next) : ∃ next',
      (Dfu.download channel config.transfer true image.data heedTransfer).run.ComesTo h c next' ∧
        next = fun answer => (next' answer).bind fun r =>
          .done ((r.mapError .transfer).map (ending channel identity?)) := by
  rw [advance, Attempt.run_bind_eq, Attempt.run_of, Program.bind_assoc] at hc
  rcases comesTo_bind.mp hc with ⟨next', hc', rfl⟩ | ⟨r, h₁, h₂, rfl, -, hend⟩
  · refine ⟨next', hc', ?_⟩
    funext answer
    congr
    funext r
    cases r <;> rfl
  · cases r <;> exact absurd hend not_comesTo_done

/-- A request is heeded between two chunks, after those that are delivered; then the download is given up. -/
theorem comesTo_stop_sending {next : Bool → Action (Except UpdateError Stage)}
    (hc : ((sending channel identity?).advance config image).run.ComesTo h (.inr .stopRequested) next) :
    (next true = (Dfu.abort channel config.transfer).bind fun _ => .done (.error (.transfer .stopped))) ∧
      ∃ k < (Dfu.imagePackets config.transfer image.data).length,
        Delivered ((Dfu.imagePackets config.transfer image.data).take k) (wire channel h) := by
  obtain ⟨next', hc', rfl⟩ := comesTo_sending hc
  obtain ⟨k, x, transaction, payload, h₁, h₂, next'', image', sent, rfl, hk, hdelivered, hround, rfl⟩ :=
    Dfu.comesTo_download spares_heedTransfer (by simp) hc'
  obtain ⟨rfl, hstop⟩ := Dfu.comesTo_stop_sendChunk (heedless_setProgress _) hround
  refine ⟨?_, k, ?_, by simpa using hdelivered⟩
  · dsimp only
    rw [hstop, Program.bind_assoc, Program.bind_assoc]
    rfl
  · exact (List.getElem?_eq_some_iff.mp hk).1

theorem comesTo_abort_sending {c : (cameras.sum host).Call}
    {next : (cameras.sum host).Answer c → Action (Except UpdateError Stage)} (habort : Requests .abort c)
    (hc : ((sending channel identity?).advance config image).run.ComesTo h c next) :
    ∃ h', h = h' ++ [.looked true] := by
  obtain ⟨next', hc', rfl⟩ := comesTo_sending hc
  have hlog : kindOf c ≠ .log := by
    rw [habort.kindOf_eq]
    nofun
  obtain ⟨k, x, transaction, payload, h₁, h₂, next'', image', sent, rfl, -, -, hround, rfl⟩ :=
    Dfu.comesTo_download spares_heedTransfer hlog hc'
  have hprogress : (heedTransfer x).Only fun c => kindOf c ≠ .transfer := only_tell.mpr (by simp [Write.isVerdict])
  obtain rfl := Dfu.comesTo_abort_sendChunk habort hprogress hround
  exact ⟨h₁, rfl⟩

end Stage

end Session

end Reflash
