import Reflash.Proofs.Bounds
import Reflash.Proofs.Session.FinalRecord

/-!
# Reflash.Proofs.Session.Bounds — a session ends, and after how many calls

Where nothing dies, the clock moves and the loops pause, a session comes to its end, and its configuration
bounds the calls that it repeats: reads of the flash by the attempts at each chunk, status queries and listings
by the pauses that fit into the time of each wait.  A stage has a budget (`Stage.budget`), and the stages on the
way have their sum (`atMost_complete`).
-/

namespace Reflash

open Program

namespace Session

variable {config : UpdateConfig} {image : FirmwareImage} {camera : Camera} {identity : String}
  {counted : (cameras.sum host).Call → Bool}

namespace Stage

variable {cost : Nat → Nat} {a : Stage}

/-- The costs of the stages with `n` left, and of those after it. -/
def budget (cost : Nat → Nat) : Nat → Nat
  | 0 => 0
  | n + 1 => cost (n + 1) + budget cost n

theorem budget_mono {m n : Nat} (hmn : m ≤ n) : budget cost m ≤ budget cost n := by
  induction n with
  | zero =>
    rw [Nat.le_zero.mp hmn]
  | succ n ih =>
    rcases Nat.eq_or_lt_of_le hmn with rfl | hlt
    · exact Nat.le_refl _
    · have hle : budget cost m ≤ budget cost n := ih (by omega)
      rw [budget]
      omega

/-- No stage makes more calls than it costs, so all together make no more than their budget. -/
theorem atMost_complete (hcost : ∀ a : Stage, (a.advance config image).AtMost counted (cost a.left)) {n : Nat}
    (hn : n = a.left) :
    (a.complete config image n).AtMost counted (budget cost n) := by
  induction n generalizing a with
  | zero => exact fun t => atMost_done _
  | succ n ih =>
    intro t
    rw [complete, Attempt.run_bind, budget, hn]
    refine atMost_bind (hcost a t) fun r h _ hf => ?_
    cases r with
    | error e => exact atMost_done _
    | ok b =>
      have hleft := left_of_finishes hf
      exact ih (by omega) _

theorem left_start_le : (start camera).left ≤ 10 := by
  unfold start
  split <;> simp [left]

/-- The footprint of a stage without these calls. -/
theorem atMost_of_kind {kind : CallKind} (hcounted : CountsOnly kind counted) (ha : kind ∉ a.kinds) (n : Nat) :
    (a.advance config image).AtMost counted n :=
  (Attempt.Only.atMost (hcounted.only ha (only_advance a))).mono (Nat.zero_le n)

end Stage

/-- A session makes these calls only in its stages. -/
theorem atMost_run {cost : Nat → Nat} (hcost : ∀ a : Stage, (a.advance config image).AtMost counted (cost a.left))
    (hquiet : ∀ c, ofKinds [.log, .record, .verdict] c → counted c = false) (t : Nanos) :
    (run config image camera).AtMost counted (Stage.budget cost 10) t := by
  rw [run_eq]
  refine atMost_after (only_noteImage.mono fun c hc => hquiet c (ofKinds.mono (by simp) c hc)) fun _ _ _ _ => ?_
  refine atMost_bind (n := 0) ?_ fun result _ _ _ => ((only_conclude result).mono hquiet).atMost
  rw [attempt_eq]
  exact ((Stage.atMost_complete hcost rfl).mono (Stage.budget_mono Stage.left_start_le)) _

theorem quiet_note {kind : CallKind} (hcounted : CountsOnly kind counted) (hkind : kind ∉ [CallKind.log, .record])
    (line : String) : (note line).Only fun c => counted c = false :=
  hcounted.only hkind (only_note (by simp) (by simp) line)

/-! ## Reads of the flash -/

theorem isFlashRead_setProgress (n : Nat) : (setProgress n).Only fun c => isFlashRead c = false :=
  only_tell.mpr rfl

/-- The attempts at all chunks of a backup. -/
def readBudget (config : UpdateConfig) : Nat :=
  config.backup.elim 0 fun backup => (backup.flashSize.toNat ⌈/⌉ max backup.chunkSize.toNat 1) *
    max backup.maxAttempts.toNat 1

theorem reads_backUp {backup : BackupConfig} : (backUp camera backup identity).AtMost isFlashRead
    ((backup.flashSize.toNat ⌈/⌉ max backup.chunkSize.toNat 1) * max backup.maxAttempts.toNat 1) := by
  have hquiet : ∀ {p : Action Unit}, p.Only (ofKinds [.log, .record]) → p.Only fun c => isFlashRead c = false :=
    countsOnly_isFlashRead.only (by simp)
  have hnote : ∀ line, (note line).Only fun c => isFlashRead c = false :=
    quiet_note countsOnly_isFlashRead (by simp)
  have hread : ∀ t,
      (Flash.read camera backup (fun x => setProgress (backup.scaleProgress x)) true).AtMost isFlashRead
      (backup.count * backup.attempts.toNat) t := Flash.reads_read (fun x => isFlashRead_setProgress _) true
  have hkept : ∀ flash,
      (Flash.persist backup.dir identity flash).Only fun c => isFlashRead c = false := fun flash =>
    countsOnly_isFlashRead.only (by simp) Flash.only_persist
  rw [BackupConfig.toNat_attempts] at hread
  refine Attempt.atMost_after (Attempt.only_lift (hquiet (only_enterPhase (by simp) (by simp) rfl))) fun _ => ?_
  refine Attempt.atMost_after (Attempt.only_lift (isFlashRead_setProgress _)) fun _ => ?_
  refine Attempt.atMost_after (Attempt.only_lift (hnote _)) fun _ => ?_
  refine Attempt.atMost_before (Attempt.atMost_of hread) fun flash => ?_
  refine Attempt.only_bind (Attempt.only_of (hkept flash)) fun path => ?_
  exact Attempt.only_bind (Attempt.only_lift (hnote _)) fun _ => Attempt.only_lift (isFlashRead_setProgress _)

theorem reads_secure : (secure config camera identity).AtMost isFlashRead (readBudget config) := by
  unfold secure readBudget
  cases config.backup with
  | none => exact Attempt.Only.atMost (Attempt.only_pure _)
  | some backup =>
    refine Attempt.atMost_after (Attempt.only_lift (only_ask.mpr rfl)) fun offered => ?_
    split
    · exact reads_backUp
    · have hnote := quiet_note countsOnly_isFlashRead (by simp) "device does not support flash backup, skipping"
      exact (Attempt.Only.atMost (Attempt.only_lift hnote)).mono (Nat.zero_le _)

/-- Only the stage that secures the flash reads it. -/
def readCost (config : UpdateConfig) : Nat → Nat
  | 9 => readBudget config
  | _ => 0

theorem Stage.reads_advance (a : Stage) :
    (a.advance config image).AtMost isFlashRead (readCost config a.left) := by
  cases a with
  | securing camera identity => exact Attempt.atMost_before reads_secure fun _ => Attempt.only_pure _
  | _ => exact atMost_of_kind countsOnly_isFlashRead (by simp [kinds]) _

/-! ## Status queries -/

/-- The query before a download, those of the wait after each chunk, and those of the manifest wait. -/
def pollCost (config : UpdateConfig) (image : FirmwareImage) : Nat → Nat
  | 5 => 1
  | 4 => (image.data.length ⌈/⌉ max config.transfer.maxChunk 1) *
      (config.transfer.chunkTimeout ⌈/⌉ config.transfer.chunkPoll + 1)
  | 2 => config.transfer.manifestTimeout ⌈/⌉ config.transfer.manifestPoll + 1
  | _ => 0

theorem Stage.polls_advance (hconfig : config.Pauses) (a : Stage) :
    (a.advance config image).AtMost isPoll (pollCost config image a.left) := by
  have hheed : ∀ x, (heedTransfer x).Only fun c => isPoll c = false := fun x => only_tell.mpr rfl
  have hnote : ∀ line, (note line).Only fun c => isPoll c = false := quiet_note countsOnly_isPoll (by simp)
  cases a with
  | preparing channel identity? =>
    exact Attempt.atMost_before (Attempt.atMost_discard (Attempt.atMost_of Dfu.polls_prepare)) fun _ =>
      Attempt.only_pure _
  | sending channel identity? =>
    exact Attempt.atMost_before (Attempt.atMost_of (Dfu.polls_download hheed hconfig.chunk true)) fun _ =>
      Attempt.only_pure _
  | ending channel identity? transaction =>
    refine Attempt.Only.atMost (Attempt.only_bind (Attempt.only_of ?_) fun _ => Attempt.only_pure _)
    exact Dfu.only_finish_of (countsOnly_isPoll.of_ofKinds (by simp)) rfl hheed
  | manifesting channel identity? =>
    refine Attempt.atMost_before (Attempt.atMost_discard
      (Attempt.atMost_of (Dfu.polls_manifest hconfig.manifest))) fun _ => ?_
    refine Attempt.only_bind (Attempt.only_lift (hnote _)) fun _ => ?_
    exact Attempt.only_bind (Attempt.only_lift (only_tell.mpr rfl)) fun _ => Attempt.only_pure _
  | _ => exact atMost_of_kind countsOnly_isPoll (by simp [kinds]) _

/-! ## Listings -/

/-- The listings of the two searches. -/
def scanCost (config : UpdateConfig) : Nat → Nat
  | 7 => config.recoveryTimeout ⌈/⌉ config.scanInterval + 1
  | 1 => config.reconnectTimeout ⌈/⌉ config.scanInterval + 1
  | _ => 0

section Scans

theorem isScan_note (line : String) : (note line).Only fun c => isScan c = false :=
  quiet_note countsOnly_isScan (by simp) line

/-- A step that looks for a stop and enters a phase, before it lists the cameras. -/
theorem scans_entering {phase : Phase} (hphase : phase.isTerminal = false) {α : Type}
    {x : Attempt UpdateError α} {n : Nat} (hx : x.AtMost isScan n) :
    (do ensureLive; enterPhase phase; x : Attempt UpdateError α).AtMost isScan n := by
  have henter : (enterPhase phase).Only fun c => isScan c = false :=
    countsOnly_isScan.only (by simp : .list ∉ [CallKind.log, .record]) (only_enterPhase (by simp) (by simp) hphase)
  have hlive : ensureLive.Only fun c => isScan c = false :=
    countsOnly_isScan.only (by simp) (only_ensureLive (List.mem_singleton_self CallKind.stop))
  exact Attempt.atMost_after hlive fun _ => Attempt.atMost_after (Attempt.only_lift henter) fun _ => hx

theorem scans_findRecovery (hscan : 0 < config.scanInterval) :
    (findRecovery config identity).AtMost isScan (config.recoveryTimeout ⌈/⌉ config.scanInterval + 1) := by
  refine scans_entering rfl (Attempt.atMost_before (Attempt.atMost_of (Search.scans_run hscan)) fun recovery => ?_)
  refine Attempt.only_bind (Attempt.only_lift (isScan_note _)) fun _ => ?_
  exact Attempt.only_bind (Attempt.only_lift (only_tell.mpr rfl)) fun _ => Attempt.only_pure _

theorem scans_awaitReturn (hscan : 0 < config.scanInterval) (identity? : Option String) :
    (awaitReturn config identity?).AtMost isScan (config.reconnectTimeout ⌈/⌉ config.scanInterval + 1) := by
  cases identity? with
  | none => exact (Attempt.Only.atMost (Attempt.only_lift (isScan_note _))).mono (Nat.zero_le _)
  | some identity =>
    refine scans_entering rfl (Attempt.atMost_after (Attempt.only_lift (isScan_note _)) fun _ => ?_)
    refine Attempt.atMost_before (Attempt.atMost_of (Search.scans_run hscan)) fun found => ?_
    refine Attempt.only_bind (Attempt.only_lift (only_ask.mpr rfl)) fun version => ?_
    split
    · exact Attempt.only_bind (Attempt.only_lift (isScan_note _)) fun _ => Attempt.only_lift (only_tell.mpr rfl)
    · exact Attempt.only_bind (Attempt.only_lift (isScan_note _)) fun _ => Attempt.only_lift (only_tell.mpr rfl)

theorem Stage.scans_advance (hscan : 0 < config.scanInterval) (a : Stage) :
    (a.advance config image).AtMost isScan (scanCost config a.left) := by
  cases a with
  | finding identity => exact Attempt.atMost_before (scans_findRecovery hscan) fun _ => Attempt.only_pure _
  | returning identity? =>
    exact Attempt.atMost_before (scans_awaitReturn hscan identity?) fun _ => Attempt.only_pure _
  | _ => exact atMost_of_kind countsOnly_isScan (by simp [kinds]) _

end Scans

/-! ## Sizes of packets -/

/-- A control transfer carries no more than this. -/
def Fits (limit : Nat) (c : (cameras.sum host).Call) : Prop :=
  ∀ channel packet timeout, c = .inl (.transfer channel packet timeout) → packet.data.length ≤ limit

theorem fits_transfer {limit : Nat} {channel : ControlChannel} {packet : ControlPacket} {timeout : Nanos}
    (hpacket : packet.data.length ≤ limit) : Fits limit (.inl (.transfer channel packet timeout)) := by
  rintro channel' packet' timeout' heq
  cases heq
  exact hpacket

theorem fits_of_ofKinds {limit : Nat} {kinds : List CallKind} (hkinds : .transfer ∉ kinds)
    (c : (cameras.sum host).Call) (hc : ofKinds kinds c) : Fits limit c := by
  rintro channel packet timeout rfl
  exact absurd hc hkinds

theorem fits_sendChunks {limit : Nat} (hquery : ControlPacket.getStatus.data.length ≤ limit)
    {channel : ControlChannel} {transfer : TransferConfig} {heedsStop : Bool} {total : Nat} (chunks : List Chunk)
    (hchunks : ∀ chunk ∈ chunks, chunk.length ≤ limit) (data : Bytes) (sent : Nat) (transaction : UInt16) :
    Attempt.Only (Fits limit)
      (Dfu.sendChunks channel transfer heedsStop heedTransfer total chunks data sent transaction) := by
  have hquiet : ∀ c, ofKinds [.clock, .log, .stop, .record] c → Fits limit c := fits_of_ofKinds (by simp)
  induction chunks generalizing data sent transaction with
  | nil =>
    exact Attempt.only_bind (Attempt.only_lift (only_report.mpr (hquiet _ (by simp)))) fun _ =>
      Attempt.only_pure _
  | cons chunk chunks ih =>
    have hsize : (data.take chunk.length).length ≤ limit :=
      Nat.le_trans (List.length_take_le _ _) (hchunks chunk List.mem_cons_self)
    have hheed : ∀ x, (heedTransfer x).Only (Fits limit) :=
      fun x => only_tell.mpr (hquiet _ (by simp [Write.isVerdict]))
    rw [Dfu.sendChunks_cons]
    refine Attempt.only_bind (Attempt.only_bind (Attempt.only_lift (only_shouldStop (hquiet _ (by simp))))
      fun stop => ?_) fun _ => ih (fun chunk' hmem => hchunks chunk' (List.mem_cons_of_mem chunk hmem)) _ _ _
    split
    · refine Attempt.only_bind
        (Attempt.only_lift (Dfu.only_abort_of (fits_transfer (Nat.zero_le _)) fun _ => ?_))
        fun _ => Attempt.only_throw _
      exact hquiet _ (by simp)
    · exact Dfu.only_sendOn (fits_transfer hsize) (fits_transfer hquery)
        (fun c hc => hquiet c (ofKinds.mono (by simp) c hc)) (hheed _)

/-- A session keeps to the most that a packet may carry. -/
theorem Stage.fits_advance (hchunk : config.transfer.maxChunk ≤ ControlPacket.maxChunk) (a : Stage) :
    (a.advance config image).Only (Fits ControlPacket.maxChunk) := by
  by_cases ha : ∃ channel identity?, a = sending channel identity?
  · obtain ⟨channel, identity?, rfl⟩ := ha
    refine Attempt.only_bind (Attempt.only_of ?_) fun _ => Attempt.only_pure _
    show Attempt.Only _ (Dfu.download channel config.transfer true image.data heedTransfer)
    unfold Dfu.download
    split
    · exact Attempt.only_throw _
    refine fits_sendChunks (by decide) _ (fun chunk hmem => ?_) _ _ _
    rw [ChunkPlan.chunks_eq] at hmem
    obtain ⟨i, -, rfl⟩ := List.mem_map.mp hmem
    have hstride : max config.transfer.maxChunk 1 ≤ ControlPacket.maxChunk := Nat.max_le.mpr ⟨hchunk, by decide⟩
    exact Nat.le_trans (Nat.min_le_left _ _) hstride
  · refine only_advance_of (fun channel identity? heq => ha ⟨channel, identity?, heq⟩) (fun millis => ?_)
      ?_ fun transaction => ?_
    · exact Nat.zero_le _
    · decide
    · exact Nat.zero_le _

theorem fits_run (hchunk : config.transfer.maxChunk ≤ ControlPacket.maxChunk) :
    (run config image camera).Only (Fits ControlPacket.maxChunk) := by
  have hcomplete : ∀ n (a : Stage), (a.complete config image n).Only (Fits ControlPacket.maxChunk) := by
    intro n
    induction n with
    | zero => exact fun a => Attempt.only_pure _
    | succ n ih => exact fun a => Attempt.only_bind (Stage.fits_advance hchunk a) ih
  rw [run_eq]
  refine only_bind (only_noteImage.mono (fits_of_ofKinds (by simp))) fun _ => only_bind ?_ fun result => ?_
  · rw [attempt_eq]
    exact hcomplete _ _
  · exact (only_conclude result).mono (fits_of_ofKinds (by simp))

/-! ## The guarantee -/

/-- Where nothing dies and the clock moves, a session whose loops pause comes to its end, and its record says
how.  It reads the flash no more often than there are attempts at the chunks of a backup; it asks a loader for
its status once before a download, and then once more for each chunk, and for the manifest phase, than the
pauses that fit into the time; and it lists the cameras once more in each search than the pauses that fit.  No
packet is larger than a packet may be. -/
theorem session_ends_within_budget {σ : Type} (env : Environment (cameras.sum host) σ) (s : σ)
    (clock : MovingClock env) (hconfig : config.Pauses)
    (hchunk : config.transfer.maxChunk ≤ ControlPacket.maxChunk) {session : Action Unit}
    (hstart : start config camera image = .ok session) (hlive : (session.run env s).1 ≠ .panicked) :
    let h := session.history env s
    let chunks := image.data.length ⌈/⌉ max config.transfer.maxChunk 1
    (session.run env s).1 = .finished () ∧ (Record.initial.after h).phase.isTerminal = true ∧
    (Record.initial.after h).Ended (result env s session) ∧
    h.countP (fun e => isFlashRead e.call) ≤ config.backup.elim 0 (fun backup =>
      (backup.flashSize.toNat ⌈/⌉ max backup.chunkSize.toNat 1) * max backup.maxAttempts.toNat 1) ∧
    h.countP (fun e => isPoll e.call) ≤
      1 + chunks * (config.transfer.chunkTimeout ⌈/⌉ config.transfer.chunkPoll + 1) +
        (config.transfer.manifestTimeout ⌈/⌉ config.transfer.manifestPoll + 1) ∧
    h.countP (fun e => isScan e.call) ≤ (config.recoveryTimeout ⌈/⌉ config.scanInterval + 1) +
      (config.reconnectTimeout ⌈/⌉ config.scanInterval + 1) ∧
    ∀ e ∈ h, ∀ channel packet timeout, e.call = .inl (.transfer channel packet timeout) →
      packet.data.length ≤ ControlPacket.maxChunk := by
  intro h chunks
  obtain ⟨-, -, rfl⟩ := start_eq_ok.mp hstart
  have hb : (run config image camera).Begins h := begins_history env _ s
  have hmoves : Moves (clock.time s) h := clock.moves_history _ (Nat.le_refl _)
  obtain ⟨u, hfin⟩ := clock.finishes_of_ends (ends_run hconfig) hlive
  obtain ⟨-, -, -, r, -, -, -, hended⟩ := ended_of_finished hfin
  have hresult : result env s (run config image camera) = outcomeOf r := by
    rw [result_eq hlive, hended.outcome?, Option.getD_some]
  have hterminal : (Record.initial.after h).phase.isTerminal = true := by
    cases r with
    | ok _ => exact hended.1 ▸ rfl
    | error e => exact hended.1 ▸ rfl
  have hreads : h.countP (fun e => isFlashRead e.call) ≤ Stage.budget (readCost config) 10 :=
    atMost_run Stage.reads_advance (countsOnly_isFlashRead.of_ofKinds (by simp)) _ h hmoves hb
  have hpolls : h.countP (fun e => isPoll e.call) ≤ Stage.budget (pollCost config image) 10 :=
    atMost_run (Stage.polls_advance hconfig) (countsOnly_isPoll.of_ofKinds (by simp)) _ h hmoves hb
  have hscans : h.countP (fun e => isScan e.call) ≤ Stage.budget (scanCost config) 10 :=
    atMost_run (Stage.scans_advance hconfig.scan) (countsOnly_isScan.of_ofKinds (by simp)) _ h hmoves hb
  simp only [Stage.budget, readCost, pollCost, scanCost, Nat.add_zero, Nat.zero_add] at hreads hpolls hscans
  refine ⟨hfin, hterminal, hresult ▸ hended, hreads, ?_, hscans, fun e he => (fits_run hchunk).calls hb e he⟩
  rwa [← Nat.add_assoc] at hpolls

/-- A session in which everything goes well, on a clock that only pauses move. -/
theorem session_ends_within_budget_obliging :
    let o : Obliging := { camera := Obliging.unit }
    let session := run Obliging.config Obliging.image Obliging.unit
    let h := session.history Obliging.world.clocked (o, 0)
    (session.run Obliging.world.clocked (o, 0)).1 = .finished () ∧
      h.countP (fun e => isFlashRead e.call) ≤ 6 ∧ h.countP (fun e => isPoll e.call) ≤ 1 + 1 * 1001 + 76 ∧
      h.countP (fun e => isScan e.call) ≤ 601 + 601 := by
  intro o session h
  obtain ⟨hfin, -, -, hreads, hpolls, hscans, -⟩ := session_ends_within_budget Obliging.world.clocked (o, 0)
    Obliging.world.clockedClock ⟨by decide, by decide, by decide⟩ (by decide) start_obliging
    (answers_obliging.clocked.not_panicked _ _)
  exact ⟨hfin, Nat.le_trans hreads (by decide +kernel), Nat.le_trans hpolls (by decide +kernel),
    Nat.le_trans hscans (by decide +kernel)⟩

end Session

end Reflash
