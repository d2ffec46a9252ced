import Reflash.Proofs.Dfu.Prepared
import Reflash.Proofs.Flash.Backup
import Reflash.Proofs.Flash.Dump
import Reflash.Proofs.Reacquire
import Reflash.Session.Update

/-!
# Reflash.Proofs.Session.Steps — what each step of an update calls

For every step its footprint, as a list of kinds of calls, and what it has called once it ended well.
-/

namespace Reflash

open Program

/-! ## Downloads -/

namespace Dfu

variable {channel : ControlChannel} {config : TransferConfig}

/-- The calls of a download: transfers on its channel, and calls on clock, log, stop request and record. -/
def Calls (channel : ControlChannel) (c : (cameras.sum host).Call) : Prop :=
  (∃ packet timeout, c = .inl (.transfer channel packet timeout)) ∨ ofKinds [.clock, .log, .stop, .record] c

@[simp] theorem calls_transfer (packet : ControlPacket) (timeout : Nanos) :
    Calls channel (.inl (.transfer channel packet timeout) : CameraCall ⊕ HostCall) := .inl ⟨packet, timeout, rfl⟩

@[simp] theorem calls_host {c : HostCall} :
    Calls channel (.inr c : CameraCall ⊕ HostCall) ↔ kindOf (.inr c) ∈ [CallKind.clock, .log, .stop, .record] := by
  simp [Calls]

/-- The calls of a download without those that tell of its progress. -/
def Traffic (channel : ControlChannel) (c : (cameras.sum host).Call) : Prop :=
  (∃ packet timeout, c = .inl (.transfer channel packet timeout)) ∨ ofKinds [.clock, .log, .stop] c

@[simp] theorem traffic_transfer (packet : ControlPacket) (timeout : Nanos) :
    Traffic channel (.inl (.transfer channel packet timeout) : CameraCall ⊕ HostCall) :=
  .inl ⟨packet, timeout, rfl⟩

@[simp] theorem traffic_host {c : HostCall} :
    Traffic channel (.inr c : CameraCall ⊕ HostCall) ↔ kindOf (.inr c) ∈ [CallKind.clock, .log, .stop] := by
  simp [Traffic]

theorem Traffic.calls (c : (cameras.sum host).Call) (hc : Traffic channel c) : Calls channel c :=
  hc.imp_right (ofKinds.mono (by simp) c)

@[simp] def downloadKinds : List CallKind := [.transfer, .clock, .log, .stop, .record]

theorem Calls.ofKinds {c : (cameras.sum host).Call} (hc : Calls channel c) : ofKinds downloadKinds c := by
  rcases hc with ⟨packet, timeout, rfl⟩ | hc
  · simp
  · exact List.mem_cons_of_mem _ hc

theorem only_prepare : Attempt.Only (Calls channel) (prepare channel config) := by
  refine Attempt.only_bind (Attempt.only_discard (Attempt.only_of (only_ask.mpr (by simp)))) fun _ => ?_
  refine Attempt.only_bind (Attempt.only_of (only_queryStatus (by simp))) fun status => ?_
  refine Attempt.only_bind (Attempt.only_lift (only_report.mpr (by simp))) fun _ => ?_
  split <;> trivial

theorem only_send (transaction : UInt16) (payload : Bytes) :
    Attempt.Only (Traffic channel) (send channel config transaction payload) :=
  Attempt.only_discard (Attempt.only_of (only_ask.mpr (by simp)))

theorem only_abort : (abort channel config).Only (Traffic channel) := by
  refine only_bind (only_ask.mpr (by simp)) fun reply => ?_
  split
  · trivial
  · exact only_report.mpr (by simp)

theorem only_wait (w : Wait) : (w.run channel).Only (Traffic channel) := by
  refine w.only_run.mono fun c hc => ?_
  rcases hc with rfl | hc
  · simp
  · exact .inr (ofKinds.mono (by simp) c hc)

theorem only_awaitChunk (transaction : UInt16) :
    Attempt.Only (Traffic channel) (awaitChunk channel config transaction) :=
  Attempt.only_bind (Attempt.only_of (only_wait _)) fun _ => Attempt.only_decided _

variable {progress : Single → Action Unit}

section Footprint

variable {P : (cameras.sum host).Call → Prop} (htraffic : ∀ c, Traffic channel c → P c)
  (hprogress : ∀ x, (progress x).Only P)

include htraffic hprogress

theorem only_sendChunks_of (heedsStop : Bool) (total : Nat) (chunks : List Chunk) (image : Bytes) (sent : Nat)
    (transaction : UInt16) :
    Attempt.Only P (sendChunks channel config heedsStop progress total chunks image sent transaction) := by
  induction chunks generalizing image sent transaction with
  | nil =>
    exact Attempt.only_bind (Attempt.only_lift (only_report.mpr (htraffic _ (by simp)))) fun _ =>
      Attempt.only_pure _
  | cons chunk chunks ih =>
    refine Attempt.only_bind (Attempt.only_lift (only_shouldStop (htraffic _ (by simp)))) fun stop => ?_
    split
    · refine Attempt.only_bind (Attempt.only_lift (only_abort.mono htraffic)) fun _ => ?_
      exact Attempt.only_throw _
    refine Attempt.only_bind (Program.Only.mono (only_send _ _) htraffic) fun _ => ?_
    refine Attempt.only_bind (Attempt.only_lift (hprogress _)) fun _ => ?_
    exact Attempt.only_bind (Program.Only.mono (only_awaitChunk _) htraffic) fun _ => ih _ _ _

theorem only_download_of (heedsStop : Bool) (image : Bytes) :
    Attempt.Only P (download channel config heedsStop image progress) := by
  unfold download
  split
  · exact Attempt.only_throw _
  · exact only_sendChunks_of htraffic hprogress _ _ _ _ _ _

end Footprint

theorem only_download (hprogress : ∀ x, (progress x).Only (Calls channel)) (heedsStop : Bool) (image : Bytes) :
    Attempt.Only (Calls channel) (download channel config heedsStop image progress) :=
  only_download_of Traffic.calls hprogress heedsStop image

theorem only_finish (hprogress : ∀ x, (progress x).Only (Calls channel)) (transaction : UInt16) :
    Attempt.Only (Calls channel) (finish channel config progress transaction) := by
  refine Attempt.only_bind (Program.Only.mono (only_send _ _) Traffic.calls) fun _ => ?_
  exact Attempt.only_bind (Attempt.only_lift (only_tell.mpr (by simp))) fun _ => Attempt.only_lift (hprogress _)

theorem only_manifest : Attempt.Only (Calls channel) (manifest channel config) := by
  refine Attempt.only_bind (Attempt.only_lift (only_report.mpr (by simp))) fun _ => ?_
  exact Attempt.only_bind (Attempt.only_of ((only_wait _).mono Traffic.calls)) fun _ => Attempt.only_decided _

end Dfu

/-! ## Steps of a session -/

namespace Session

variable {kinds : List CallKind}

theorem only_note (hlog : .log ∈ kinds) (hrecord : .record ∈ kinds) (line : String) :
    (note line).Only (ofKinds kinds) :=
  only_bind (only_tell.mpr hlog) fun _ => only_tell.mpr hrecord

theorem only_enterPhase (hlog : .log ∈ kinds) (hrecord : .record ∈ kinds) {phase : Phase}
    (hphase : phase.isTerminal = false) : (enterPhase phase).Only (ofKinds kinds) :=
  only_bind (only_tell.mpr hlog) fun _ => only_tell.mpr (by simpa [Write.isVerdict, hphase] using hrecord)

theorem only_setProgress (hrecord : .record ∈ kinds) (n : Nat) : (setProgress n).Only (ofKinds kinds) :=
  only_tell.mpr hrecord

theorem only_ensureLive (hstop : .stop ∈ kinds) : ensureLive.Only (ofKinds kinds) := by
  refine Attempt.only_bind (Attempt.only_lift (only_tell.mpr hstop)) fun stop => ?_
  split
  · exact Attempt.only_throw _
  · exact Attempt.only_pure _

@[simp] def secureKinds : List CallKind := [.openMonitor, .exchange, .files, .log, .stop, .record]

section Footprint

variable {P : (cameras.sum host).Call → Prop}

/-- What a backup asks of the camera is to read its flash. -/
theorem only_backUp_of {camera : Camera} {config : BackupConfig}
    (hquiet : ∀ c, ofKinds [.files, .log, .stop, .record] c → P c)
    (hrequest : ∀ offset size, P (.inl (.exchange camera (Monitor.flashRead offset size) config.requestTimeout)))
    (identity : String) : (backUp camera config identity).Only P := by
  have hrecord : ∀ {p : Action Unit}, p.Only (ofKinds [.log, .record]) → p.Only P := fun hp =>
    hp.mono fun c hc => hquiet c (ofKinds.mono (by simp) c hc)
  have hprogress : ∀ x, (setProgress (config.scaleProgress x)).Only P :=
    fun x => hrecord (only_setProgress (by simp) _)
  have hread := Flash.only_read_of hrequest (hquiet _ (by simp)) (fun _ => hquiet _ (by simp)) hprogress true
  refine Attempt.only_bind (Attempt.only_lift (hrecord (only_enterPhase (by simp) (by simp) rfl))) fun _ => ?_
  refine Attempt.only_bind (Attempt.only_lift (hrecord (only_setProgress (by simp) _))) fun _ => ?_
  refine Attempt.only_bind (Attempt.only_lift (hrecord (only_note (by simp) (by simp) _))) fun _ => ?_
  refine Attempt.only_bind (Attempt.only_of hread) fun flash => ?_
  refine Attempt.only_bind
    (Attempt.only_of (Flash.only_persist.mono fun c hc => hquiet c (ofKinds.mono (by simp) c hc)))
    fun path => ?_
  refine Attempt.only_bind (Attempt.only_lift (hrecord (only_note (by simp) (by simp) _))) fun _ => ?_
  exact Attempt.only_lift (hrecord (only_setProgress (by simp) _))

theorem only_secure_of {camera : Camera}
    (hquiet : ∀ c, ofKinds [.openMonitor, .files, .log, .stop, .record] c → P c)
    (hrequest : ∀ offset size timeout, P (.inl (.exchange camera (Monitor.flashRead offset size) timeout)))
    (config : UpdateConfig) (identity : String) : (secure config camera identity).Only P := by
  have hnote : ∀ line, (note line).Only (ofKinds [.log, .record]) := only_note (by simp) (by simp)
  unfold secure
  split
  · exact Attempt.only_pure _
  · refine Attempt.only_bind (Attempt.only_lift (only_ask.mpr (hquiet _ (by simp)))) fun offered => ?_
    split
    · exact only_backUp_of (fun c hc => hquiet c (ofKinds.mono (by simp) c hc)) (fun _ _ => hrequest _ _ _) _
    · exact Attempt.only_lift ((hnote _).mono fun c hc => hquiet c (ofKinds.mono (by simp) c hc))

end Footprint

theorem only_secure (config : UpdateConfig) (camera : Camera) (identity : String) :
    (secure config camera identity).Only (ofKinds secureKinds) :=
  only_secure_of (ofKinds.mono (by simp)) (by simp) config identity

theorem only_identify (camera : Camera) : (identify camera).Only (ofKinds [.stop, .identity, .log, .record]) := by
  refine Attempt.only_bind (only_ensureLive (by simp)) fun _ => ?_
  refine Attempt.only_bind (Attempt.only_of (only_identityOf (by simp) (by simp))) fun identity? => ?_
  split
  · exact Attempt.only_throw _
  · exact Attempt.only_bind (Attempt.only_lift (only_note (by simp) (by simp) _)) fun _ => Attempt.only_pure _

theorem only_switchMode (camera : Camera) :
    (switchMode camera).Only (ofKinds [.stop, .log, .record, .restart]) := by
  refine Attempt.only_bind (only_ensureLive (by simp)) fun _ => ?_
  refine Attempt.only_bind (Attempt.only_lift (only_enterPhase (by simp) (by simp) rfl)) fun _ => ?_
  refine Attempt.only_bind (Attempt.only_of (only_ask.mpr (by simp))) fun _ => ?_
  exact Attempt.only_lift (only_note (by simp) (by simp) _)

theorem only_findRecovery (config : UpdateConfig) (identity : String) :
    (findRecovery config identity).Only (ofKinds (.record :: Search.kinds)) := by
  refine Attempt.only_bind (only_ensureLive (by simp)) fun _ => ?_
  refine Attempt.only_bind (Attempt.only_lift (only_enterPhase (by simp) (by simp) rfl)) fun _ => ?_
  refine Attempt.only_bind (Attempt.only_of (Search.only_run.mono (ofKinds.mono (by simp)))) fun recovery => ?_
  refine Attempt.only_bind (Attempt.only_lift (only_note (by simp) (by simp) _)) fun _ => ?_
  exact Attempt.only_bind (Attempt.only_lift (only_setProgress (by simp) _)) fun _ => Attempt.only_pure _

theorem only_recognise (camera : Camera) : (recognise camera).Only (ofKinds [.log, .record, .identity]) := by
  refine only_bind (only_note (by simp) (by simp) _) fun _ => ?_
  refine only_bind ?_ fun identity? => only_bind (only_setProgress (by simp) _) fun _ => trivial
  refine only_bind (only_identityOf (by simp) (by simp)) fun reply => ?_
  split
  · trivial
  · exact only_bind (only_report.mpr (by simp)) fun _ => trivial

theorem only_openChannel (camera : Camera) :
    (openChannel camera).Only (ofKinds [.stop, .log, .record, .openControl]) := by
  refine Attempt.only_bind (only_ensureLive (by simp)) fun _ => ?_
  refine Attempt.only_bind (Attempt.only_lift (only_enterPhase (by simp) (by simp) rfl)) fun _ => ?_
  refine Attempt.only_bind (Attempt.only_lift (only_note (by simp) (by simp) _)) fun _ => ?_
  exact Attempt.only_of (only_ask.mpr (by simp))

theorem only_heedTransfer {channel : ControlChannel} (x : Single) : (heedTransfer x).Only (Dfu.Calls channel) :=
  only_tell.mpr (by simp [Write.isVerdict])

theorem spares_heedTransfer {channel : ControlChannel} (x : Single) : (heedTransfer x).Only (Spares channel) :=
  only_tell.mpr fun _ _ => nofun

theorem only_awaitReturn (config : UpdateConfig) (identity? : Option String) :
    (awaitReturn config identity?).Only (ofKinds (.firmware :: .record :: Search.kinds)) := by
  cases identity? with
  | none => exact Attempt.only_lift (only_note (by simp) (by simp) _)
  | some identity =>
    refine Attempt.only_bind (only_ensureLive (by simp)) fun _ => ?_
    refine Attempt.only_bind (Attempt.only_lift (only_enterPhase (by simp) (by simp) rfl)) fun _ => ?_
    refine Attempt.only_bind (Attempt.only_lift (only_note (by simp) (by simp) _)) fun _ => ?_
    refine Attempt.only_bind (Attempt.only_of (Search.only_run.mono (ofKinds.mono (by simp)))) fun camera => ?_
    refine Attempt.only_bind (Attempt.only_lift (only_ask.mpr (by simp))) fun version => ?_
    split
    · exact Attempt.only_bind (Attempt.only_lift (only_note (by simp) (by simp) _)) fun _ =>
        Attempt.only_lift (only_setProgress (by simp) _)
    · exact Attempt.only_bind (Attempt.only_lift (only_note (by simp) (by simp) _)) fun _ =>
        Attempt.only_lift (only_setProgress (by simp) _)

/-! ## Steps that come to an end -/

section Stalls

variable {P : (cameras.sum host).Call → Prop}

@[simp] theorem stallsAfter_note (line : String) : (note line).StallsAfter P :=
  stallsAfter_bind (stallsAfter_tell _) fun _ => stallsAfter_tell _

@[simp] theorem stallsAfter_enterPhase (phase : Phase) : (enterPhase phase).StallsAfter P :=
  stallsAfter_bind (stallsAfter_tell _) fun _ => stallsAfter_tell _

@[simp] theorem stallsAfter_setProgress (n : Nat) : (setProgress n).StallsAfter P := stallsAfter_tell _

@[simp] theorem stallsAfter_ensureLive : ensureLive.StallsAfter P := by
  refine Attempt.stallsAfter_bind (Attempt.stallsAfter_lift (stallsAfter_tell _)) fun stop => ?_
  split
  · exact Attempt.stallsAfter_throw _
  · exact Attempt.stallsAfter_pure _

theorem stallsAfter_identify (camera : Camera) : (identify camera).StallsAfter P := by
  refine Attempt.stallsAfter_bind stallsAfter_ensureLive fun _ => ?_
  refine Attempt.stallsAfter_bind (Attempt.stallsAfter_of stallsAfter_identityOf) fun identity? => ?_
  split
  · exact Attempt.stallsAfter_throw _
  · exact Attempt.stallsAfter_bind (Attempt.stallsAfter_lift (stallsAfter_note _)) fun _ =>
      Attempt.stallsAfter_pure _

theorem stallsAfter_backUp (camera : Camera) (config : BackupConfig) (identity : String) :
    (backUp camera config identity).StallsAfter P := by
  have hread : (Flash.read camera config (fun x => setProgress (config.scaleProgress x)) true).StallsAfter P :=
    Flash.stallsAfter_read (fun x => stallsAfter_setProgress _) true
  refine Attempt.stallsAfter_bind (Attempt.stallsAfter_lift (stallsAfter_enterPhase _)) fun _ => ?_
  refine Attempt.stallsAfter_bind (Attempt.stallsAfter_lift (stallsAfter_setProgress _)) fun _ => ?_
  refine Attempt.stallsAfter_bind (Attempt.stallsAfter_lift (stallsAfter_note _)) fun _ => ?_
  refine Attempt.stallsAfter_bind (Attempt.stallsAfter_of hread) fun flash => ?_
  refine Attempt.stallsAfter_bind (Attempt.stallsAfter_of Flash.stallsAfter_persist) fun path => ?_
  refine Attempt.stallsAfter_bind (Attempt.stallsAfter_lift (stallsAfter_note _)) fun _ => ?_
  exact Attempt.stallsAfter_lift (stallsAfter_setProgress _)

theorem stallsAfter_secure (config : UpdateConfig) (camera : Camera) (identity : String) :
    (secure config camera identity).StallsAfter P := by
  unfold secure
  split
  · exact Attempt.stallsAfter_pure _
  · refine Attempt.stallsAfter_bind (Attempt.stallsAfter_lift (stallsAfter_ask _)) fun offered => ?_
    split
    · exact stallsAfter_backUp _ _ _
    · exact Attempt.stallsAfter_lift (stallsAfter_note _)

/-- Whatever comes after a restart, a stall is after it. -/
theorem stallsAfter_switchMode_bind {camera : Camera} {α : Type} {rest : Unit → Attempt UpdateError α}
    (hP : P (.inl (.enterRecovery camera))) : (switchMode camera >>= rest).StallsAfter P := by
  simp only [switchMode, LawfulMonad.bind_assoc]
  refine Attempt.stallsAfter_bind stallsAfter_ensureLive fun _ => ?_
  refine Attempt.stallsAfter_bind (Attempt.stallsAfter_lift (stallsAfter_enterPhase _)) fun _ => ?_
  exact stallsAfter_perform_bind hP

end Stalls

/-! ## Steps that ended well -/

variable {config : UpdateConfig} {camera : Camera} {identity : String} {h : History}

theorem within_of_note {line : String} {u : Unit} (hf : (note line).Finishes h u) : Within [.log, .record] h :=
  (only_note (by simp) (by simp) line).within hf.begins

theorem within_of_enterPhase {phase : Phase} (hphase : phase.isTerminal = false) {u : Unit}
    (hf : (enterPhase phase).Finishes h u) : Within [.log, .record] h :=
  (only_enterPhase (by simp) (by simp) hphase).within hf.begins

theorem within_of_setProgress {n : Nat} {u : Unit} (hf : (setProgress n).Finishes h u) :
    Within [.log, .record] h :=
  (only_setProgress (by simp) n).within hf.begins

theorem within_of_ensureLive {r : Except UpdateError Unit} (hf : ensureLive.Finishes h r) : Within [.stop] h :=
  (only_ensureLive (by simp)).within hf.begins

/-- A step that heeds a stop before it enters its phase. -/
theorem within_of_entered {phase : Phase} (hphase : phase.isTerminal = false)
    {r : Except UpdateError Unit} {u : Unit} {h₁ h₂ : History} (hlive : ensureLive.Finishes h₁ r)
    (hf : (enterPhase phase).Finishes h₂ u) :
    Within [.stop, .log, .record] (h₁ ++ h₂) := by
  refine within_append.mpr ⟨?_, ?_⟩
  · exact (within_of_ensureLive hlive).mono (by simp)
  · exact (within_of_enterPhase hphase hf).mono (by simp)

theorem finishes_identify_ok (hf : (identify camera).Finishes h (.ok identity)) : ∃ pre own post,
    h = pre ++ (own ++ post) ∧ Within [.stop] pre ∧ (identityOf camera).Finishes own (.ok (some identity)) ∧
      Within [.log, .record] post := by
  simp only [identify, Attempt.finishes_bind_ok, Attempt.finishes_of_ok] at hf
  obtain ⟨u, pre, h', rfl, hlive, identity?, own, post, rfl, hown, hf⟩ := hf
  cases identity? with
  | none => simp at hf
  | some identity =>
    simp only [Attempt.finishes_bind_ok, Attempt.finishes_lift_ok, Attempt.finishes_pure, Except.ok.injEq] at hf
    obtain ⟨u', h₁, h₂, rfl, hnote, rfl, rfl⟩ := hf
    exact ⟨pre, own, _, rfl, within_of_ensureLive hlive, hown, by simpa using within_of_note hnote⟩

section Backup

variable {backup : BackupConfig}

theorem only_scaleProgress (x : Single) :
    (setProgress (backup.scaleProgress x)).Only fun c => kindOf c ≠ .exchange :=
  only_tell.mpr (by simp [Write.isVerdict])

/-- Before a backup reads the flash it only keeps the record. -/
theorem within_of_opening {u u₁ u₂ : Unit} {h₁ h₂ h₃ : History} {n : Nat} {line : String}
    (hphase : (enterPhase .backingUp).Finishes h₁ u) (hprogress : (setProgress n).Finishes h₂ u₁)
    (hnote : (note line).Finishes h₃ u₂) : Within [.log, .record] (h₁ ++ (h₂ ++ h₃)) := by
  refine within_append.mpr ⟨?_, within_append.mpr ⟨?_, ?_⟩⟩
  · exact within_of_enterPhase rfl hphase
  · exact within_of_setProgress hprogress
  · exact within_of_note hnote

/-- A backup that ended well has read the flash whole and kept it. -/
theorem finishes_backUp_ok (hf : (backUp camera backup identity).Finishes h (.ok ())) :
    ∃ path flash, Flash.Saved camera backup identity path flash h := by
  simp only [backUp, Attempt.finishes_bind_ok, Attempt.finishes_of_ok, Attempt.finishes_lift_ok,
    Attempt.finishes_run] at hf
  obtain ⟨u, h₁, h', rfl, hphase, u₁, h₂, h'', rfl, hstart, u₂, h₃, h₄, rfl, hnote, flash, dump, h₅, rfl,
      hread, path, kept, h₆, rfl, hkept, u₃, h₇, h₈, rfl, hsaved, hend⟩ := hf
  have hprogress : ∀ x, (setProgress (backup.scaleProgress x)).Only (ofKinds Flash.dumpKinds) := fun x =>
    only_setProgress (by simp) _
  have hdump : Within Flash.dumpKinds dump := (Flash.only_read hprogress true).within hread.begins
  have hpersist : Within [.files, .log] kept := Flash.only_persist.within hkept.begins
  have hpost : Within [.log, .record] (h₇ ++ h₈) := by
    refine within_append.mpr ⟨?_, ?_⟩
    · exact within_of_note hsaved
    · exact within_of_setProgress hend
  have hkeep : Flash.Saved camera backup identity path flash (dump ++ (kept ++ (h₇ ++ h₈))) := by
    refine ⟨(Flash.finishes_read_ok only_scaleProgress hread).congr fun i => ?_, dump, kept, h₇ ++ h₈, rfl, hkept,
      hdump.ne ?_, hpost.ne ?_⟩
    · rw [Flash.readings_append, Flash.readings_append, Flash.readings_eq_nil (hpersist.ne (by simp)),
        Flash.readings_eq_nil (hpost.ne (by simp)), List.append_nil, List.append_nil]
    · simp
    · simp
  exact ⟨path, flash, by simpa using hkeep.append_left (within_of_opening hphase hstart hnote) (by simp) (by simp)⟩

end Backup

/-- Where a backup is wanted, the camera is asked for its hardware monitor, and backed up if it has one. -/
theorem finishes_secure_ok {backup : BackupConfig} (hbackup : config.backup = some backup)
    (hf : (secure config camera identity).Finishes h (.ok ())) : ∃ offered h',
      h = .asked (.openMonitor camera) (some offered) :: h' ∧
        (offered = true ∧ (backUp camera backup identity).Finishes h' (.ok ()) ∨
          offered = false ∧ Within [.log, .record] h') := by
  simp only [secure, hbackup, Attempt.finishes_bind_ok, Attempt.finishes_lift_ok, finishes_ask] at hf
  obtain ⟨offered, h₁, h', rfl, rfl, hf⟩ := hf
  refine ⟨offered, h', rfl, ?_⟩
  cases offered with
  | true => exact .inl ⟨rfl, hf⟩
  | false => exact .inr ⟨rfl, within_of_note (Attempt.finishes_lift_ok.mp hf)⟩

theorem finishes_switchMode_ok (hf : (switchMode camera).Finishes h (.ok ())) : ∃ pre post,
    h = pre ++ .asked (.enterRecovery camera) (some (.ok ())) :: post ∧ Within [.stop, .log, .record] pre ∧
      Within [.log, .record] post := by
  simp only [switchMode, Attempt.finishes_bind_ok, Attempt.finishes_of_ok, Attempt.finishes_lift_ok,
    finishes_ask] at hf
  obtain ⟨u, h₁, h', rfl, hlive, u', h₂, h'', rfl, hphase, u'', h₃, post, rfl, rfl, hnote⟩ := hf
  exact ⟨h₁ ++ h₂, post, by simp, within_of_entered rfl hlive hphase, within_of_note hnote⟩

theorem finishes_findRecovery_ok {recovery : Camera}
    (hf : (findRecovery config identity).Finishes h (.ok recovery)) :
    ∃ pre search post, h = pre ++ (search ++ post) ∧ Within [.stop, .log, .record] pre ∧
      (searchFor config identity .recovery).Finds recovery search ∧ Within [.log, .record] post := by
  simp only [findRecovery, Attempt.finishes_bind_ok, Attempt.finishes_of_ok, Attempt.finishes_lift_ok,
    Attempt.finishes_pure, Except.ok.injEq] at hf
  obtain ⟨u, h₁, h', rfl, hlive, u', h₂, h'', rfl, hphase, found, search, h₃, rfl, hsearch, u₂, h₄, h₅,
      rfl, hnote, u₃, h₆, h₇, rfl, hprogress, rfl, rfl⟩ := hf
  refine ⟨h₁ ++ h₂, search, h₄ ++ h₆, by simp, within_of_entered rfl hlive hphase, Search.finishes_run_ok hsearch,
    within_append.mpr ⟨?_, ?_⟩⟩
  · exact within_of_note hnote
  · exact within_of_setProgress hprogress

theorem finishes_recognise {identity? : Option String} (hf : (recognise camera).Finishes h identity?) :
    ∃ pre own post reply, h = pre ++ (own ++ post) ∧ Within [.log, .record] pre ∧
      (identityOf camera).Finishes own reply ∧
      identity? = reply.toOption.join ∧ Within [.log, .record] post := by
  simp only [recognise, recoveryIdentity, bind_eq, finishes_bind] at hf
  obtain ⟨u, pre, h', rfl, hnote, found, h₁, h₂, rfl, ⟨reply, own, h₃, rfl, hown, hreply⟩, u', h₄, h₅, rfl,
      hprogress, hf⟩ := hf
  obtain ⟨rfl, rfl⟩ := finishes_done.mp hf
  have hpre : Within [.log, .record] pre := within_of_note hnote
  have hpost : Within [.log, .record] h₄ := within_of_setProgress hprogress
  cases reply with
  | ok found =>
    obtain ⟨rfl, rfl⟩ := finishes_done.mp hreply
    exact ⟨pre, own, h₄, .ok identity?, by simp, hpre, hown, rfl, hpost⟩
  | error e =>
    simp only [finishes_bind, finishes_report] at hreply
    obtain ⟨u'', h₆, h₇, rfl, hlog, hreply⟩ := hreply
    obtain ⟨rfl, rfl⟩ := finishes_done.mp hreply
    exact ⟨pre, own, h₆ ++ h₄, .error e, by simp, hpre, hown, rfl, by simp [hlog, hpost]⟩

theorem finishes_openChannel_ok {channel : ControlChannel} (hf : (openChannel camera).Finishes h (.ok channel)) :
    ∃ pre, h = pre ++ [.asked (.openControl camera) (some (.ok channel))] ∧ Within [.stop, .log, .record] pre := by
  simp only [openChannel, Attempt.finishes_bind_ok, Attempt.finishes_of_ok, Attempt.finishes_lift_ok,
    finishes_ask] at hf
  obtain ⟨u, h₁, h', rfl, hlive, u', h₂, h'', rfl, hphase, u₂, h₃, h₄, rfl, hnote, rfl⟩ := hf
  refine ⟨h₁ ++ h₂ ++ h₃, by simp, within_append.mpr ⟨within_of_entered rfl hlive hphase, ?_⟩⟩
  exact (within_of_note hnote).mono (by simp)

theorem finishes_awaitReconnect_ok (hf : (awaitReconnect config identity).Finishes h (.ok ())) :
    ∃ pre search post found, h = pre ++ (search ++ post) ∧ Within [.stop, .log, .record] pre ∧
      (searchFor config identity .normal).Finds found search ∧ Within [.firmware, .log, .record] post := by
  simp only [awaitReconnect, Attempt.finishes_bind_ok, Attempt.finishes_of_ok, Attempt.finishes_lift_ok] at hf
  obtain ⟨u, h₁, h', rfl, hlive, u', h₂, h'', rfl, hphase, u₂, h₃, h₄, rfl, hnote, found, search, post, rfl,
      hsearch, hf⟩ := hf
  refine ⟨h₁ ++ h₂ ++ h₃, search, post, found, by simp, within_append.mpr ⟨within_of_entered rfl hlive hphase, ?_⟩,
    Search.finishes_run_ok hsearch, ?_⟩
  · exact (within_of_note hnote).mono (by simp)
  · simp only [finishes_ask] at hf
    obtain ⟨version, h₅, h₆, rfl, rfl, hf⟩ := hf
    refine within_append.mpr ⟨by simp, ?_⟩
    split at hf
    all_goals
      obtain ⟨u₃, h₇, h₈, rfl, hnote', hprogress⟩ := Attempt.finishes_bind_ok.mp hf
      refine within_append.mpr ⟨?_, ?_⟩
      · exact (within_of_note (Attempt.finishes_lift_ok.mp hnote')).mono (by simp)
      · exact (within_of_setProgress (Attempt.finishes_lift_ok.mp hprogress)).mono (by simp)

end Session

end Reflash
