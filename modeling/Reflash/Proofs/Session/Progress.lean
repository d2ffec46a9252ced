import Reflash.Proofs.Dfu.Callback
import Reflash.Proofs.Fractions
import Reflash.Proofs.Session.DeadTask
import Reflash.Proofs.Session.Records

/-!
# Reflash.Proofs.Session.Progress — the progress of a session only rises

The progress of a session is written in six places, through two scales.  One rule, `climb`, says which value
each of them may write, by the record before: no less than what stands there, and within the range of the phase.
Where the progress stands is known as a range (`Between`), which the other calls keep and each write moves on;
along the chunks of a backup or a download the upper end is the value of the fraction that is done, and the
fractions grow with the chunks.
-/

namespace Reflash

open Program

/-! ## Scales -/

section Scales

variable {backup : BackupConfig} {x y : Single}

theorem le_scaleProgress (backup : BackupConfig) (x : Single) :
    backup.progressStart.toNat ≤ backup.scaleProgress x :=
  Nat.le_add_right _ _

theorem span_lt (backup : BackupConfig) : backup.progressEnd.toNat - backup.progressStart.toNat < 256 := by
  have hlt := backup.progressEnd.toNat_lt
  omega

theorem scaleProgress_le (hbackup : backup.progressStart ≤ backup.progressEnd) (x : Single) :
    backup.scaleProgress x ≤ backup.progressEnd.toNat := by
  have hle := UInt8.le_iff_toNat_le.mp hbackup
  have hportion := Single.portion_le (span_lt backup) x
  unfold BackupConfig.scaleProgress
  omega

theorem scaleProgress_mono (hy : y.bits ≤ Single.one.bits) (hxy : x.bits ≤ y.bits) :
    backup.scaleProgress x ≤ backup.scaleProgress y :=
  Nat.add_le_add_left (Single.portion_mono (span_lt backup) hy hxy) _

@[simp] theorem scaleProgress_one (hbackup : backup.progressStart ≤ backup.progressEnd) :
    backup.scaleProgress .one = backup.progressEnd.toNat := by
  have hle := UInt8.le_iff_toNat_le.mp hbackup
  rw [BackupConfig.scaleProgress, Single.portion_one]
  omega

namespace Session

theorem le_transferProgress (x : Single) : 50 ≤ transferProgress x := Nat.le_add_right _ _

theorem transferProgress_le (x : Single) : transferProgress x ≤ 90 :=
  Nat.add_le_add_left (Single.portion_le (by decide) x) 50

theorem transferProgress_mono (hy : y.bits ≤ Single.one.bits) (hxy : x.bits ≤ y.bits) :
    transferProgress x ≤ transferProgress y :=
  Nat.add_le_add_left (Single.portion_mono (by decide) hy hxy) 50

@[simp] theorem transferProgress_one : transferProgress .one = 90 := by
  rw [transferProgress, Single.portion_one]
  rfl

end Session

end Scales

namespace Session

/-! ## The rule -/

/-- What a write may do to the progress of a record. -/
def Climbs (config : UpdateConfig) (r : Record) : Write → Prop
  | .progress n => r.progress ≤ n ∧ n ≤ 100 ∧
    (r.phase = .backingUp → ∃ backup, config.backup = some backup ∧ backup.progressStart.toNat ≤ n ∧
      n ≤ backup.progressEnd.toNat) ∧
    (r.phase = .transferring → 50 ≤ n ∧ n ≤ 90)
  | .finishDone => r.progress ≤ 100
  | .finishFailed _ => r.progress ≤ 90
  | .phase _ | .log _ => True

/-- Progress is written as it may be; and as long as a session makes calls of other kinds than its own notes,
there is some progress left. -/
def climb (config : UpdateConfig) : Rule (cameras.sum host) Record where
  step := Record.hear
  allows r c := (∀ w, c = .inr (.write w) → Climbs config r w) ∧
    (kindOf c ∉ [CallKind.log, .record, .verdict] → r.progress ≤ 90)

/-- A record in a phase, with its progress in a range. -/
structure Between (p : Phase) (lo hi : Nat) (r : Record) : Prop where
  phase : r.phase = p
  le_progress : lo ≤ r.progress
  progress_le : r.progress ≤ hi

/-- A record whose session may fail. -/
def Short (r : Record) : Prop := r.progress ≤ 90

section Rule

variable {config : UpdateConfig} {p q : Phase} {lo hi lo' hi' n : Nat} {r : Record} {h : History}

theorem Between.mono (hr : Between p lo hi r) (hlo : lo' ≤ lo) (hhi : hi ≤ hi') : Between p lo' hi' r :=
  ⟨hr.phase, Nat.le_trans hlo hr.le_progress, Nat.le_trans hr.progress_le hhi⟩

/-- A call that writes neither phase nor progress. -/
def Still (c : (cameras.sum host).Call) : Prop :=
  (kindOf c ≠ .record ∧ kindOf c ≠ .verdict) ∨ ∃ line, c = .inr (.write (.log line))

theorem still_of_ofKinds {kinds : List CallKind} (hrecord : .record ∉ kinds) (hverdict : .verdict ∉ kinds)
    (c : (cameras.sum host).Call) (hc : ofKinds kinds c) : Still c :=
  .inl ⟨ne_of_mem_of_not_mem hc hrecord, ne_of_mem_of_not_mem hc hverdict⟩

theorem still_of_notes {kinds : List CallKind} (hrecord : .record ∉ kinds) (hverdict : .verdict ∉ kinds)
    (c : (cameras.sum host).Call) (hc : Notes kinds c) : Still c :=
  hc.imp_left fun hkind =>
    ⟨ne_of_mem_of_not_mem hkind (by simpa using hrecord), ne_of_mem_of_not_mem hkind (by simpa using hverdict)⟩

theorem Still.hear {c : (cameras.sum host).Call} (hc : Still c) (r : Record)
    (a? : Option ((cameras.sum host).Answer c)) :
    (r.hear ⟨c, a?⟩).phase = r.phase ∧ (r.hear ⟨c, a?⟩).progress = r.progress := by
  rcases hc with hc | ⟨line, rfl⟩
  · rw [Record.hear_eq, write?_of_kind hc.1 hc.2]
    exact ⟨rfl, rfl⟩
  · cases a? <;> exact ⟨rfl, rfl⟩

theorem Still.climbs {c : (cameras.sum host).Call} (hc : Still c) (w : Write) (hw : c = .inr (.write w)) :
    Climbs config r w := by
  rcases hc with hc | ⟨line, rfl⟩
  · subst hw
    cases hverdict : w.isVerdict <;> simp [hverdict] at hc
  · cases hw
    trivial

theorem Still.between {c : (cameras.sum host).Call} (hc : Still c) (hr : Between p lo hi r)
    (a? : Option ((cameras.sum host).Answer c)) : Between p lo hi (r.hear ⟨c, a?⟩) := by
  obtain ⟨hphase, hprogress⟩ := hc.hear r a?
  exact ⟨hphase.trans hr.phase, hprogress ▸ hr.le_progress, hprogress ▸ hr.progress_le⟩

/-- While there is progress left, any still call keeps the range. -/
theorem keeps_still {c : (cameras.sum host).Call} (hc : Still c) (hhi : hi ≤ 90) :
    (climb config).Keeps (Between p lo hi) c :=
  fun _ hr => ⟨⟨hc.climbs, fun _ => Nat.le_trans hr.progress_le hhi⟩, fun _ => hc.between hr _⟩

/-- A note keeps the range, whatever is left. -/
theorem keeps_notes (c : (cameras.sum host).Call) (hc : Notes [] c) :
    (climb config).Keeps (Between p lo hi) c := by
  have hstill : Still c := still_of_notes (by simp) (by simp) c hc
  have hkind : kindOf c ∈ [CallKind.log, .record, .verdict] := by
    rcases hc with hc | ⟨line, rfl⟩
    · exact List.mem_cons.mpr (.inl (List.mem_singleton.mp hc))
    · simp [Write.isVerdict]
  exact fun _ hr => ⟨⟨hstill.climbs, fun hnot => absurd hkind hnot⟩, fun _ => hstill.between hr _⟩

/-- The values that may be written in a phase. -/
def InRange (config : UpdateConfig) (p : Phase) (n : Nat) : Prop :=
  (p = .backingUp → ∃ backup, config.backup = some backup ∧ backup.progressStart.toNat ≤ n ∧
    n ≤ backup.progressEnd.toNat) ∧
    (p = .transferring → 50 ≤ n ∧ n ≤ 90)

theorem obeys_setProgress (hr : Between p lo hi r) (hn : hi ≤ n) (hmax : n ≤ 100) (hrange : InRange config p n) :
    (setProgress n).Obeys (climb config) (fun _ => Between p n n) r := by
  refine obeys_tell.mpr ⟨⟨fun w hw => ?_, fun hkind => absurd (by simp [Write.isVerdict]) hkind⟩, fun _ => ?_⟩
  · obtain rfl : .progress n = w := by simpa using hw
    rw [← hr.phase] at hrange
    exact ⟨Nat.le_trans hr.progress_le hn, hmax, hrange⟩
  · have hmin : min n 100 = n := Nat.min_eq_left hmax
    exact ⟨hr.phase, Nat.le_of_eq hmin.symm, Nat.le_of_eq hmin⟩

theorem obeys_enterPhase_climb (hr : Between p lo hi r) (q : Phase) :
    (enterPhase q).Obeys (climb config) (fun _ => Between q lo hi) r := by
  have hlog : (tell (.log { level := .info, text := "phase: " ++ q.text, echo := true })).Only
      ((climb config).Keeps (Between p lo hi)) := only_tell.mpr (keeps_notes _ (notes_log _))
  refine obeys_bind (obeys_of_only hlog hr) fun _ r' hr' =>
    obeys_tell.mpr ⟨⟨fun w hw => ?_, fun hkind => ?_⟩, fun _ => ?_⟩
  · obtain rfl : .phase q = w := by simpa using hw
    trivial
  · cases hterminal : q.isTerminal <;> simp [Write.isVerdict, hterminal] at hkind
  · exact ⟨rfl, hr'.le_progress, hr'.progress_le⟩

theorem obeys_still {ε α : Type} {x : Attempt ε α} (hx : x.Only Still) (hhi : hi ≤ 90) (hr : Between p lo hi r) :
    x.Obeys (climb config) Short (fun _ => Between p lo hi) r :=
  Attempt.obeys_of_only (Program.Only.mono hx fun _ hc => keeps_still hc hhi)
    (fun _ hg => Nat.le_trans hg.progress_le hhi) hr

end Rule

/-! ## Steps -/

section Steps

variable {config : UpdateConfig} {image : FirmwareImage} {camera : Camera} {identity : String}
  {p : Phase} {lo hi : Nat} {r : Record} {α : Type}

theorem still_note (line : String) : (note line).Only Still :=
  (notes_note line).mono (still_of_notes (List.not_mem_nil) (List.not_mem_nil))

theorem still_ensureLive : ensureLive.Only Still :=
  Program.Only.mono (only_ensureLive (List.mem_singleton_self CallKind.stop))
    (still_of_ofKinds (by simp) (by simp))

theorem still_search {s : Search} : s.run.Only Still := Search.only_run.mono (still_of_ofKinds (by simp) (by simp))

/-- A step that looks for a stop and enters a phase. -/
theorem obeys_entering_climb {q : Phase} {x : Attempt UpdateError α} {post : α → Record → Prop} (hhi : hi ≤ 90)
    (hx : ∀ r, Between q lo hi r → x.Obeys (climb config) Short post r) (hr : Between p lo hi r) :
    (do ensureLive; enterPhase q; x : Attempt UpdateError α).Obeys (climb config) Short post r :=
  Attempt.obeys_bind (obeys_still still_ensureLive hhi hr) fun _ _ hr =>
    Attempt.obeys_bind (Attempt.obeys_lift (obeys_enterPhase_climb hr q)) fun _ _ hr => hx _ hr

theorem still_identify : (identify camera).Only Still :=
  Program.Only.mono notes_identify (still_of_notes (by simp) (by simp))

/-- A backup of a session that asks for no more progress than half of it. -/
structure Modest (backup : BackupConfig) : Prop where
  start_le : backup.progressStart ≤ backup.progressEnd
  end_le : backup.progressEnd ≤ 50

/-- The progress at which the last `left` chunks of a backup begin. -/
def rung (backup : BackupConfig) : (left : Nat) → Nat
  | 0 => backup.progressEnd.toNat
  | left + 1 => backup.scaleProgress (Single.quotient (backup.count - (left + 1)) backup.count)

theorem count_lt (backup : BackupConfig) : backup.count < 2 ^ 64 := by
  have hflash := backup.flashSize.toNat_lt
  have hchunk := backup.chunkSize.toNat_lt
  have hle : backup.count ≤ backup.flashSize.toNat + backup.stride - 1 := Nat.div_le_self _ _
  unfold BackupConfig.stride at hle
  omega

theorem rung_succ_le {backup : BackupConfig} (hbackup : Modest backup) {left : Nat}
    (hleft : left + 1 ≤ backup.count) :
    rung backup (left + 1) ≤ rung backup left := by
  cases left with
  | zero => exact scaleProgress_le hbackup.start_le _
  | succ left =>
    have hpos : 0 < backup.count := by omega
    refine scaleProgress_mono ?_ ?_
    · exact Single.quotient_le_one (by omega) hpos (count_lt backup)
    · exact Single.quotient_mono (by omega) (by omega) hpos (count_lt backup)

theorem rung_le {backup : BackupConfig} (hbackup : Modest backup) (left : Nat) :
    rung backup left ≤ backup.progressEnd.toNat := by
  cases left with
  | zero => exact Nat.le_refl _
  | succ left => exact scaleProgress_le hbackup.start_le _

section Backup

variable {backup : BackupConfig} (hconfig : config.backup = some backup) (hbackup : Modest backup)

include hbackup in
theorem progressEnd_le : backup.progressEnd.toNat ≤ 50 := UInt8.le_iff_toNat_le.mp hbackup.end_le

include hconfig in
/-- The values that a backup writes. -/
theorem inRange_backingUp {n : Nat} (hstart : backup.progressStart.toNat ≤ n)
    (hend : n ≤ backup.progressEnd.toNat) :
    InRange config .backingUp n :=
  ⟨fun _ => ⟨backup, hconfig, hstart, hend⟩, nofun⟩

include hconfig hbackup

/-- The chunks that are left raise the progress from where they begin to the end of the backup. -/
theorem obeys_readChunks (left : Nat) (hleft : left ≤ backup.count) (done : List Bytes)
    (hr : Between .backingUp backup.progressStart.toNat (rung backup left) r) :
    (Flash.readChunks camera backup (fun x => setProgress (backup.scaleProgress x)) true left done).Obeys
      (climb config)
      (Attempt.Settled Short fun _ =>
        Between .backingUp backup.progressStart.toNat backup.progressEnd.toNat) r := by
  have hend := progressEnd_le hbackup
  induction left generalizing done r with
  | zero => exact hr
  | succ left ih =>
    -- The progress is at most where these chunks begin; this is what is written now, and the
    -- next chunk begins no lower.
    have hrung : rung backup (left + 1) ≤ 90 := Nat.le_trans (rung_le hbackup _) (by omega)
    have hstop : (shouldStop true).Only Still := only_shouldStop (.inl (by simp))
    refine obeys_bind (obeys_of_only (hstop.mono fun _ hc => keeps_still hc hrung) hr) fun stop r₁ hr₁ => ?_
    split
    · exact Nat.le_trans hr₁.progress_le hrung
    have hrange : InRange config .backingUp (rung backup (left + 1)) :=
      inRange_backingUp hconfig (le_scaleProgress backup _) (rung_le hbackup _)
    have hmax : rung backup (left + 1) ≤ 100 := by omega
    refine obeys_bind (obeys_setProgress hr₁ (Nat.le_refl _) hmax hrange) fun _ r₂ hr₂ => ?_
    have hread : ∀ offset size,
        (Flash.readChunk camera backup offset size backup.attempts.toNat (.failed "no attempt made")).Only
        Still := fun _ _ => (Flash.only_readChunk _ _ _ _).mono (still_of_ofKinds (by simp) (by simp))
    refine obeys_bind (obeys_of_only ((hread _ _).mono fun _ hc => keeps_still hc hrung) hr₂) fun reply r₃ hr₃ =>
      ?_
    cases reply with
    | error e => exact Nat.le_trans hr₃.progress_le hrung
    | ok data => exact ih (by omega) _ (hr₃.mono (le_scaleProgress backup _) (rung_succ_le hbackup hleft))

theorem obeys_read (hr : Between .backingUp backup.progressStart.toNat backup.progressStart.toNat r) :
    (Flash.read camera backup (fun x => setProgress (backup.scaleProgress x)) true).Obeys (climb config)
      (Attempt.Settled Short fun _ => Between .backingUp backup.progressEnd.toNat backup.progressEnd.toNat) r := by
  have hend := progressEnd_le hbackup
  have hstart : backup.progressStart.toNat ≤ rung backup backup.count := by
    cases backup.count with
    | zero => exact UInt8.le_iff_toNat_le.mp hbackup.start_le
    | succ left => exact le_scaleProgress backup _
  have hr₀ : Between .backingUp backup.progressStart.toNat (rung backup backup.count) r :=
    hr.mono (Nat.le_refl _) hstart
  refine obeys_bind (obeys_readChunks hconfig hbackup _ (Nat.le_refl _) [] hr₀) fun result r₁ hr₁ => ?_
  cases result with
  | error e => exact hr₁
  | ok flash =>
    have hrange : InRange config .backingUp backup.progressEnd.toNat :=
      inRange_backingUp hconfig (UInt8.le_iff_toNat_le.mp hbackup.start_le) (Nat.le_refl _)
    have hone : (setProgress (backup.scaleProgress .one)).Obeys (climb config)
        (fun _ => Between .backingUp backup.progressEnd.toNat backup.progressEnd.toNat) r₁ := by
      rw [scaleProgress_one hbackup.start_le]
      exact obeys_setProgress hr₁ (Nat.le_refl _) (by omega) hrange
    refine obeys_bind hone fun _ r₂ hr₂ => ?_
    exact obeys_bind (obeys_of_only (only_report.mpr (keeps_notes _ (notes_log _))) hr₂) fun _ _ hr₃ => hr₃

theorem obeys_backUp_climb (hr : Between p 0 0 r) :
    (backUp camera backup identity).Obeys (climb config) Short (fun _ => Between .backingUp 0 50) r := by
  have hend := progressEnd_le hbackup
  have hle := UInt8.le_iff_toNat_le.mp hbackup.start_le
  have hpersist : ∀ flash, (Flash.persist backup.dir identity flash).Only Still := fun flash =>
    Program.Only.mono Flash.only_persist (still_of_ofKinds (by simp) (by simp))
  refine Attempt.obeys_bind (Attempt.obeys_lift (obeys_enterPhase_climb hr .backingUp)) fun _ r₁ hr₁ => ?_
  refine Attempt.obeys_bind (Attempt.obeys_lift (obeys_setProgress hr₁ (Nat.zero_le _) (by omega)
    (inRange_backingUp hconfig (Nat.le_refl _) hle))) fun _ r₂ hr₂ => ?_
  refine Attempt.obeys_bind (obeys_still (Attempt.only_lift (still_note _)) (by omega) hr₂) fun _ r₃ hr₃ => ?_
  refine Attempt.obeys_bind (Attempt.obeys_of (obeys_read hconfig hbackup hr₃)) fun flash r₄ hr₄ => ?_
  refine Attempt.obeys_bind (obeys_still (Attempt.only_of (hpersist flash)) (by omega) hr₄) fun path r₅ hr₅ => ?_
  refine Attempt.obeys_bind (obeys_still (Attempt.only_lift (still_note _)) (by omega) hr₅) fun _ r₆ hr₆ => ?_
  have hlast := inRange_backingUp hconfig hle (Nat.le_refl backup.progressEnd.toNat)
  exact Attempt.obeys_lift ((obeys_setProgress hr₆ (Nat.le_refl _) (by omega) hlast).mono fun _ _ hr₇ =>
    hr₇.mono (Nat.zero_le _) hend)

end Backup

/-- After the step in which a camera may be backed up, half of the progress is left. -/
theorem obeys_secure_climb (hmodest : ∀ backup, config.backup = some backup → Modest backup)
    (hr : Between p 0 0 r) :
    (secure config camera identity).Obeys (climb config) Short (fun _ r => ∃ p, Between p 0 50 r) r := by
  unfold secure
  split
  · exact Attempt.obeys_pure ⟨p, hr.mono (Nat.le_refl _) (Nat.zero_le _)⟩
  rename_i backup hconfig
  have hask : (ask (.openMonitor camera)).Only Still := only_ask.mpr (.inl (by simp))
  refine Attempt.obeys_bind (obeys_still (Attempt.only_lift hask) (Nat.zero_le _) hr) fun offered r₁ hr₁ => ?_
  split
  · exact (obeys_backUp_climb hconfig (hmodest backup hconfig) hr₁).mono fun _ _ hr₂ => ⟨_, hr₂⟩
  · exact (obeys_still (Attempt.only_lift (still_note _)) (Nat.zero_le _) hr₁).mono fun _ _ hr₂ =>
      ⟨p, hr₂.mono (Nat.le_refl _) (Nat.zero_le _)⟩

theorem inRange_of_ne {n : Nat} (hbackup : p ≠ .backingUp) (htransfer : p ≠ .transferring) : InRange config p n :=
  ⟨fun hp => absurd hp hbackup, fun hp => absurd hp htransfer⟩

theorem inRange_transferring {n : Nat} (hlo : 50 ≤ n) (hhi : n ≤ 90) : InRange config .transferring n :=
  ⟨nofun, fun _ => ⟨hlo, hhi⟩⟩

theorem obeys_switchMode_climb (hr : Between p 0 50 r) :
    (switchMode camera).Obeys (climb config) Short (fun _ => Between .enteringRecovery 0 50) r := by
  refine obeys_entering_climb (by decide) (fun r₁ hr₁ => obeys_still ?_ (by decide) hr₁) hr
  exact Attempt.only_bind (Attempt.only_of (only_ask.mpr (.inl (by simp)))) fun _ =>
    Attempt.only_lift (still_note _)

theorem obeys_findRecovery_climb (hr : Between p 0 50 r) :
    (findRecovery config identity).Obeys (climb config) Short (fun _ => Between .waitingForRecovery 50 50) r := by
  refine obeys_entering_climb (by decide) (fun r₁ hr₁ => ?_) hr
  refine Attempt.obeys_bind (obeys_still (Attempt.only_of still_search) (by decide) hr₁) fun recovery r₂ hr₂ => ?_
  refine Attempt.obeys_bind (obeys_still (Attempt.only_lift (still_note _)) (by decide) hr₂) fun _ r₃ hr₃ => ?_
  refine Attempt.obeys_bind (Attempt.obeys_lift (obeys_setProgress hr₃ (Nat.le_refl _) (by decide)
    (inRange_of_ne (by decide) (by decide)))) fun _ r₄ hr₄ => ?_
  exact Attempt.obeys_pure hr₄

theorem obeys_recognise_climb (hr : Between .idle 0 0 r) :
    (recognise camera).Obeys (climb config) (fun _ => Between .idle 50 50) r := by
  have hidentity : (recoveryIdentity camera).Only Still :=
    notes_recoveryIdentity.mono (still_of_notes (by simp) (by simp))
  refine obeys_bind (obeys_of_only ((still_note _).mono fun _ hc => keeps_still hc (Nat.zero_le _)) hr)
    fun _ r₁ hr₁ => ?_
  refine obeys_bind (obeys_of_only (hidentity.mono fun _ hc => keeps_still hc (Nat.zero_le _)) hr₁)
    fun _ r₂ hr₂ => ?_
  exact obeys_bind (obeys_setProgress hr₂ (Nat.zero_le _) (by decide) (inRange_of_ne (by decide) (by decide)))
    fun _ _ hr₃ => hr₃

/-- The progress of a download of which so much is sent. -/
def Sending (total n : Nat) (r : Record) : Prop :=
  Between .transferring 50 (transferProgress (Single.quotient n total)) r

section Download

variable {channel : ControlChannel} {transfer : TransferConfig} {total n : Nat}
  {transaction : UInt16} {payload : Bytes}

theorem still_of_quiet {c : (cameras.sum host).Call} (hc : Dfu.Quiet c) : Still c := by
  have hown : CallKind.record ∉ Dfu.ownKinds ∧ CallKind.verdict ∉ Dfu.ownKinds := by decide
  exact .inl ⟨ne_of_mem_of_not_mem hc.1 hown.1, ne_of_mem_of_not_mem hc.1 hown.2⟩

theorem still_send : Attempt.Only Still (Dfu.send channel transfer transaction payload) :=
  Attempt.only_discard (Attempt.only_of (only_ask.mpr (.inl (by simp))))

theorem obeys_round_climb (hsize : total < 2 ^ 64) (hr : Sending total n r) (hpayload : payload ≠ [])
    (hn : n + payload.length ≤ total) :
    (do Dfu.send channel transfer transaction payload; heedTransfer (Single.quotient (n + payload.length) total) :
      Attempt TransferError Unit).Obeys (climb config) Short (fun _ => Sending total (n + payload.length)) r := by
  have hpos : 0 < payload.length := List.length_pos_iff.mpr hpayload
  have hle : transferProgress (Single.quotient n total) ≤
      transferProgress (Single.quotient (n + payload.length) total) :=
    transferProgress_mono (Single.quotient_le_one hn (by omega) hsize)
      (Single.quotient_mono (by omega) hn (by omega) hsize)
  have hmax := transferProgress_le (Single.quotient (n + payload.length) total)
  refine Attempt.obeys_bind (obeys_still still_send (transferProgress_le _) hr) fun _ r₁ hr₁ =>
    Attempt.obeys_lift ?_
  refine (obeys_setProgress hr₁ hle (by omega) (inRange_transferring (le_transferProgress _) hmax)).mono
    fun _ r₂ hr₂ => ?_
  exact hr₂.mono (le_transferProgress _) (Nat.le_refl _)

theorem obeys_transfer_climb {image : Bytes} (hsize : image.length < 2 ^ 64) (hr : Between .transferring 50 50 r) :
    (Dfu.transfer channel transfer true image heedTransfer).Obeys (climb config) Short
      (fun _ => Between .transferring 90 90) r := by
  have hquiet : ∀ n c, Dfu.Quiet c → (climb config).Keeps (Sending image.length n) c := fun n c hc =>
    keeps_still (still_of_quiet hc) (transferProgress_le _)
  have hshort : ∀ n r, Sending image.length n r → Short r :=
    fun n r hr => Nat.le_trans hr.progress_le (transferProgress_le _)
  have hstart : Sending image.length 0 r := hr.mono (Nat.le_refl _) (le_transferProgress _)
  refine Attempt.obeys_bind (Dfu.obeys_download hquiet hshort
    (fun n transaction payload g hg hpayload hn => obeys_round_climb hsize hg hpayload hn) hstart rfl)
    fun next r₁ hr₁ => ?_
  have hfinish : (Dfu.finish channel transfer heedTransfer next).Obeys (climb config) Short
      (fun _ => Between .transferring 90 90) r₁ := by
    refine Attempt.obeys_bind (obeys_still still_send (transferProgress_le _) hr₁) fun _ r₂ hr₂ => ?_
    refine Attempt.obeys_bind (obeys_still (Attempt.only_lift (only_tell.mpr (.inl (by simp))))
      (transferProgress_le _) hr₂) fun _ r₃ hr₃ => Attempt.obeys_lift ?_
    rw [heedTransfer, transferProgress_one]
    exact obeys_setProgress hr₃ (transferProgress_le _) (by decide)
      (inRange_transferring (by decide) (Nat.le_refl _))
  refine Attempt.obeys_bind hfinish fun _ r₂ hr₂ => obeys_still ?_ (Nat.le_refl _) hr₂
  exact Attempt.only_discard (Program.Only.mono Dfu.quiet_manifest fun _ => still_of_quiet)

end Download

theorem obeys_flash_climb (hsize : image.data.length < 2 ^ 64) (hr : Between p 50 50 r) :
    (flash config image camera).Obeys (climb config) Short (fun _ => Between .transferring 90 90) r := by
  have hopen : (openChannel camera).Obeys (climb config) Short (fun _ => Between .transferring 50 50) r := by
    refine obeys_entering_climb (by decide) (fun r₁ hr₁ => obeys_still ?_ (by decide) hr₁) hr
    exact Attempt.only_bind (Attempt.only_lift (still_note _)) fun _ =>
      Attempt.only_of (only_ask.mpr (.inl (by simp)))
  have hprepare : ∀ channel,
      (discard (Attempt.of UpdateError.transfer (Dfu.prepare channel config.transfer).run)).Only Still :=
    fun channel => Attempt.only_discard (Attempt.only_of
      (Dfu.only_prepare_of (.inl (by simp)) (still_of_ofKinds (by simp) (by simp)) (.inl (by simp))))
  refine Attempt.obeys_bind hopen fun channel r₁ hr₁ => ?_
  refine Attempt.obeys_bind (obeys_still (hprepare channel) (by decide) hr₁) fun _ r₂ hr₂ => ?_
  refine Attempt.obeys_bind (Attempt.obeys_of (obeys_transfer_climb hsize hr₂)) fun _ r₃ hr₃ => ?_
  refine Attempt.obeys_bind (obeys_still (Attempt.only_lift (still_note _)) (Nat.le_refl _) hr₃) fun _ r₄ hr₄ => ?_
  exact Attempt.obeys_lift (obeys_setProgress hr₄ (Nat.le_refl _) (by decide)
    (inRange_transferring (by decide) (Nat.le_refl _)))

/-- The record of an update that went well. -/
def Climbed (r : Record) : Prop := ∃ p, Between p 90 100 r

theorem obeys_awaitReconnect_climb (hr : Between p 90 90 r) :
    (awaitReconnect config identity).Obeys (climb config) Short (fun _ => Climbed) r := by
  have hnote : ∀ line r, Between .waitingForReconnect 90 90 r →
      (do note line; setProgress 100 : Attempt UpdateError Unit).Obeys
      (climb config) Short (fun _ => Climbed) r := by
    intro line r hr
    refine Attempt.obeys_bind (obeys_still (Attempt.only_lift (still_note line)) (Nat.le_refl _) hr)
      fun _ r₁ hr₁ => ?_
    have hrange : InRange config .waitingForReconnect 100 := inRange_of_ne (by decide) (by decide)
    exact Attempt.obeys_lift ((obeys_setProgress hr₁ (by decide) (Nat.le_refl _) hrange).mono fun _ r₂ hr₂ =>
      ⟨_, hr₂.mono (by decide) (Nat.le_refl _)⟩)
  have hask : ∀ found, (ask (.firmware found)).Only Still := fun found => only_ask.mpr (.inl (by simp))
  refine obeys_entering_climb (Nat.le_refl _) (fun r₁ hr₁ => ?_) hr
  refine Attempt.obeys_bind (obeys_still (Attempt.only_lift (still_note _)) (Nat.le_refl _) hr₁) fun _ r₂ hr₂ => ?_
  refine Attempt.obeys_bind (obeys_still (Attempt.only_of still_search) (Nat.le_refl _) hr₂) fun found r₃ hr₃ => ?_
  refine Attempt.obeys_bind (obeys_still (Attempt.only_lift (hask found)) (Nat.le_refl _) hr₃)
    fun version r₄ hr₄ => ?_
  split
  · exact hnote _ r₄ hr₄
  · exact hnote _ r₄ hr₄

theorem obeys_attempt_climb (hsize : image.data.length < 2 ^ 64)
    (hmodest : ∀ backup, config.backup = some backup → Modest backup) (hr : Between .idle 0 0 r) :
    (attempt config image camera).Obeys (climb config) Short (fun _ => Climbed) r := by
  unfold attempt
  split
  · refine Attempt.obeys_bind (Attempt.obeys_lift (obeys_recognise_climb hr)) fun identity? r₁ hr₁ => ?_
    refine Attempt.obeys_bind (obeys_flash_climb hsize hr₁) fun _ r₂ hr₂ => ?_
    cases identity? with
    | none =>
      refine (obeys_still (Attempt.only_lift (still_note _)) (Nat.le_refl _) hr₂).mono fun _ r₃ hr₃ => ?_
      exact ⟨_, hr₃.mono (Nat.le_refl _) (by decide)⟩
    | some identity => exact obeys_awaitReconnect_climb hr₂
  · refine Attempt.obeys_bind (obeys_still still_identify (Nat.zero_le _) hr) fun identity r₁ hr₁ => ?_
    refine Attempt.obeys_bind (obeys_secure_climb hmodest hr₁) fun _ r₂ ⟨p, hr₂⟩ => ?_
    refine Attempt.obeys_bind (obeys_switchMode_climb hr₂) fun _ r₃ hr₃ => ?_
    refine Attempt.obeys_bind (obeys_findRecovery_climb hr₃) fun recovery r₄ hr₄ => ?_
    refine Attempt.obeys_bind (obeys_flash_climb hsize hr₄) fun _ r₅ hr₅ => ?_
    exact obeys_awaitReconnect_climb hr₅

/-- The record of a session that has ended, with all of the progress or less. -/
def Final (r : Record) : Prop :=
  (r.phase = .done ∧ r.progress = 100) ∨ ((∃ reason, r.phase = .failed reason) ∧ r.progress ≤ 90)

theorem obeys_conclude_climb {result : Except UpdateError Unit}
    (hr : Attempt.Settled Short (fun _ => Climbed) result r) :
    (conclude result).Obeys (climb config) (fun _ => Final) r := by
  rw [conclude_eq]
  cases result with
  | ok u =>
    obtain ⟨p, hr⟩ := hr
    refine obeys_bind (obeys_of_only ((notes_noteEnd _).mono keeps_notes) hr) fun _ r₁ hr₁ =>
      obeys_tell.mpr ⟨⟨fun w hw => ?_, fun hkind => ?_⟩, fun _ => ?_⟩
    · obtain rfl : .finishDone = w := by simpa [verdict] using hw
      exact hr₁.progress_le
    · simp [verdict, Write.isVerdict] at hkind
    · exact .inl ⟨rfl, rfl⟩
  | error e =>
    have hshort : Between r.phase 0 90 r := ⟨rfl, Nat.zero_le _, hr⟩
    refine obeys_bind (obeys_of_only ((notes_noteEnd _).mono keeps_notes) hshort) fun _ r₁ hr₁ =>
      obeys_tell.mpr ⟨⟨fun w hw => ?_, fun hkind => ?_⟩, fun _ => ?_⟩
    · obtain rfl : .finishFailed e.reason = w := by simpa [verdict] using hw
      exact hr₁.progress_le
    · simp [verdict, Write.isVerdict] at hkind
    · exact .inr ⟨⟨e.reason, rfl⟩, hr₁.progress_le⟩

/-- A session climbs. -/
theorem obeys_run_climb (hsize : image.data.length < 2 ^ 64)
    (hmodest : ∀ backup, config.backup = some backup → Modest backup) :
    (run config image camera).Obeys (climb config) (fun _ => Final) .initial := by
  have hinitial : Between .idle 0 0 Record.initial := ⟨rfl, Nat.le_refl _, Nat.le_refl _⟩
  rw [run_eq]
  refine obeys_bind (obeys_of_only (notes_noteImage.mono keeps_notes) hinitial) fun _ r hr => ?_
  exact obeys_bind (obeys_attempt_climb hsize hmodest hr) fun result r' hr' => obeys_conclude_climb hr'

end Steps

/-! ## The guarantee -/

section Guarantee

variable {config : UpdateConfig} {image : FirmwareImage} {camera : Camera} {h : History}

theorem progress_le_hundred (h : History) : (Record.initial.after h).progress ≤ 100 := by
  refine Record.after_keeps (P := fun r => r.progress ≤ 100) (Nat.zero_le _) fun e _ w _ r hr => ?_
  cases w with
  | progress n => exact Nat.min_le_right n 100
  | finishDone => exact Nat.le_refl _
  | _ => exact hr

/-- A write that climbs does not lower the progress. -/
theorem Climbs.le {r : Record} {w : Write} (hw : Climbs config r w) : r.progress ≤ (r.apply w).progress := by
  cases w with
  | progress n => exact Nat.le_min.mpr ⟨hw.1, Nat.le_trans hw.1 hw.2.1⟩
  | finishDone => exact hw
  | _ => exact Nat.le_refl _

/-- Whatever climbs shows records whose progress does not go back. -/
theorem pairwise_records (hh : (climb config).Permits .initial h) :
    (records h).Pairwise fun r r' => r.progress ≤ r'.progress := by
  have hchain : (records h).IsChain fun r r' => r.progress ≤ r'.progress :=
    isChain_records fun before w after heq =>
    ((hh before _ after heq).1 w rfl).le
  have htrans : Trans (fun r r' : Record => r.progress ≤ r'.progress)
      (fun r r' : Record => r.progress ≤ r'.progress)
      (fun r r' : Record => r.progress ≤ r'.progress) := ⟨Nat.le_trans⟩
  exact List.isChain_iff_pairwise.mp hchain

/-- All of the progress, and a good outcome. -/
theorem Final.progress_iff {r : Record} (hr : Final r) (reason : String) :
    r.progress = 100 ↔ r.outcome?.getD (.failed reason) = .done := by
  rcases hr with ⟨hphase, hprogress⟩ | ⟨⟨reason', hphase⟩, hprogress⟩
  · simp [Record.outcome?, hphase, hprogress]
  · have hne : r.progress ≠ 100 := by omega
    simp [Record.outcome?, hphase, hne]

/-- A session whose backup takes no more than half of the progress never lets it go back, whatever image it
sends (the size of an image is a word of 64 bits): each value that it writes is no less than what stands in its
record, at most 100, between start and end of the backup while it backs up, and between 50 and 90 while it
transfers.  It has all of the progress in the end if those who wait for it are told that it is done, and only
then, even if its task died in a call other than its own notes.  A transfer of the session, for whomever hears
of its progress, calls back at once for each download that the channel took, and for the empty one after the
pause with one, and no more. -/
theorem progress_only_rises {σ : Type} (env : Environment (cameras.sum host) σ) (s : σ)
    (hsize : image.data.length < 2 ^ 64) (hmodest : ∀ backup, config.backup = some backup → Modest backup)
    {session : Action Unit} (hstart : start config camera image = .ok session) :
    let h := session.history env s
    let ending := (session.run env s).1
    (∀ before n u? after, h = before ++ .told (.write (.progress n)) u? :: after →
      (Record.initial.after before).progress ≤ n ∧ n ≤ 100 ∧
      InRange config (Record.initial.after before).phase n) ∧
    ((records h).Pairwise fun r r' => r.progress ≤ r'.progress) ∧ (∀ r ∈ records h, r.progress ≤ 100) ∧
    ((ending = .finished () ∨ ∃ before c, h = before ++ [⟨c, none⟩] ∧
      kindOf c ∉ [CallKind.log, .record, .verdict]) →
      ((settled ending (Record.initial.after h)).progress = 100 ↔ result env s session = .done)) ∧
    ∀ (channel : ControlChannel) (heedsStop : Bool) (mark : Single → HostCall),
      (∀ x, kindOf (.inr (mark x)) ∉ Dfu.ownKinds) →
      let transfer := (Dfu.transfer channel config.transfer heedsStop image.data (Dfu.callback mark)).run
      Dfu.CallsBack mark config.transfer.settleDelay image.data.length (transfer.history env s) ∧
        ∀ r, (transfer.run env s).1 = .finished r →
          Dfu.callbacks (transfer.history env s) = (Dfu.taken (transfer.history env s)).length := by
  intro h ending
  obtain ⟨-, -, rfl⟩ := start_eq_ok.mp hstart
  have hrun : (run config image camera).Obeys (climb config) (fun _ => Final) .initial :=
    obeys_run_climb hsize hmodest
  have hh : (climb config).Permits .initial h := hrun.permits (begins_history env _ s)
  refine ⟨fun before n u? after heq => (hh before _ after heq).1 _ rfl, pairwise_records hh,
    fun r hr => ?_, fun hend => ?_, fun channel heedsStop mark hmark => Dfu.transfer_calls_back env s hmark⟩
  · obtain ⟨before, -, rfl⟩ := mem_records.mp hr
    exact progress_le_hundred before
  rcases hend with hfin | ⟨before, c, heq, hc⟩
  · have hfinal : Final (Record.initial.after h) := hrun.of_finishes (finishes_history hfin)
    have hsettled : settled ending (Record.initial.after h) = Record.initial.after h := by
      rw [hfin]
      rfl
    rw [result, outcome_eq]
    show _ ↔ (settled ending (Record.initial.after h)).outcome?.getD _ = _
    rw [hsettled]
    exact hfinal.progress_iff _
  · have hpanicked : ending = .panicked := panicked_of_history heq
    have hshort : (Record.initial.after before).progress ≤ 90 := (hh before ⟨c, none⟩ [] heq).2 hc
    have hleft : Record.initial.after h = Record.initial.after before := by
      rw [heq, Record.after_append]
      cases c with
      | inl c => rfl
      | inr c => cases c <;> rfl
    rw [result, outcome_eq]
    show _ ↔ (settled ending (Record.initial.after h)).outcome?.getD _ = _
    rw [hpanicked, hleft]
    refine ⟨fun hall => ?_, fun hdone => absurd hdone (by simp [settled])⟩
    have hprogress : (Record.initial.after before).progress = 100 := hall
    omega

/-- A session in which everything goes well, and a transfer whose callback tells the host. -/
theorem progress_only_rises_obliging :
    let o : Obliging := { camera := Obliging.unit }
    let session := run Obliging.config Obliging.image Obliging.unit
    let h := session.history Obliging.world o
    let transfer := (Dfu.transfer ⟨0⟩ {} true Obliging.image.data (Dfu.callback .progress)).run
    let calls := transfer.history Obliging.world o
    ((records h).Pairwise fun r r' => r.progress ≤ r'.progress) ∧ (Record.initial.after h).progress = 100 ∧
      Dfu.CallsBack .progress (Nanos.ofMillis 100) Obliging.image.data.length calls ∧
      Dfu.callbacks calls = (Dfu.taken calls).length := by
  intro o session h transfer calls
  have hmodest : ∀ backup, Obliging.config.backup = some backup → Modest backup := by
    rintro _ ⟨rfl⟩
    exact ⟨by decide, by decide⟩
  have hmark : ∀ x, kindOf (.inr (.progress x)) ∉ Dfu.ownKinds :=
    fun x => (by decide : CallKind.progress ∉ Dfu.ownKinds)
  obtain ⟨-, hrises, -, hend, htransfer⟩ :=
    progress_only_rises Obliging.world o (by decide +kernel) hmodest start_obliging
  have hfin : (session.run Obliging.world o).1 = .finished () := by decide +kernel
  have hdone : result Obliging.world o session = .done := by decide +kernel
  have hall := (hend (.inl hfin)).mpr hdone
  rw [hfin] at hall
  obtain ⟨hback, hcount⟩ := htransfer ⟨0⟩ true .progress hmark
  exact ⟨hrises, hall, hback, hcount (.ok ()) (by decide +kernel)⟩

end Guarantee

end Session

end Reflash
