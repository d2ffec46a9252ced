import Reflash.Proofs.Dfu.Verdict
import Reflash.Proofs.Firmware.Catalog
import Reflash.Proofs.Session.Truncation

/-!
# Reflash.Proofs.Session.Start — inputs are checked before a session starts

A session is refused for the first `Fault` of its image and its camera, in the order of `faults`, and it is
started if there is none (`start_eq_error_iff`, `start_eq_ok_iff`).  What was checked holds for all of the
session: since its image is not empty, no part of it fails as if it were (`avoids_attempt`), and nobody who
waits for it is told so.
-/

namespace Reflash

open Program

/-! ## Revisions -/

theorem Bytes.word32At?_eq_none_iff {bytes : Bytes} {start : Nat} :
    bytes.word32At? start = none ↔ bytes.length < start + 4 := by
  simp [word32At?]

/-- An image has no version if it is too short for its word, or if the word is zero. -/
theorem FirmwareImage.version?_eq_none_iff {image : FirmwareImage} {offset : Nat}
    (hoffset : image.line.versionOffset? = some offset) :
    image.version? = none ↔ image.data.length < offset + 4 ∨ image.data.slice offset 4 = littleEndian 4 0 := by
  have hzero : image.data.word32At? offset = some 0 ↔ image.data.slice offset 4 = littleEndian 4 0 :=
    Bytes.word32At?_eq_some_iff
  rw [version?, hoffset, ← Bytes.word32At?_eq_none_iff, ← hzero]
  cases hword : image.data.word32At? offset <;> simp [hword]

/-! ## The reason of a failure -/

theorem String.append_ne_of_not_prefix {s t u : String} (h : ¬ s.toList <+: u.toList) : s ++ t ≠ u := by
  rintro rfl
  exact h (String.toList_append ▸ List.prefix_append s.toList t.toList)

theorem String.not_prefix_append {s t u : String} (h : ¬ s.toList <+: u.toList) :
    ¬ (s ++ t).toList <+: u.toList := by
  rw [String.toList_append]
  exact fun hp => h ((List.prefix_append s.toList t.toList).trans hp)

/-- No other failure of a transfer reads like that of an empty image; most begin otherwise. -/
theorem TransferError.message_ne_empty_image {e : TransferError} (he : e ≠ .emptyImage) :
    e.message ≠ TransferError.emptyImage.message := by
  cases e with
  | emptyImage => exact absurd rfl he
  | manifestErrorState | stopped => decide +kernel
  | unexpectedState _ | errorState _ | manifestTimeout _ | link _ =>
    exact String.append_ne_of_not_prefix (by decide +kernel)
  | corruptedImage transaction =>
    exact String.append_ne_of_not_prefix (String.not_prefix_append (by decide +kernel))
  | chunkTimeout _ _ | manifestStatus _ =>
    exact String.append_ne_of_not_prefix (String.not_prefix_append (String.not_prefix_append (by decide +kernel)))
  | device code transaction =>
    have hname : ¬ code.name.toList <+: TransferError.emptyImage.message.toList := by
      cases code <;> decide +kernel
    exact String.append_ne_of_not_prefix
      (String.not_prefix_append (String.not_prefix_append (String.not_prefix_append hname)))

theorem UpdateError.message_ne_empty_image {e : UpdateError} (he : e ≠ .transfer .emptyImage) :
    e.message ≠ (UpdateError.transfer .emptyImage).message := by
  cases e with
  | transfer e =>
    have hne : e ≠ .emptyImage := fun heq => he (congrArg _ heq)
    exact fun h => TransferError.message_ne_empty_image hne ((String.append_right_inj _).mp h)
  | noIdentity | recoveryTimeout | reconnectTimeout | stopped => decide +kernel
  | recoveryIdentityUnsupported line => cases line <;> decide +kernel
  | image _ | backup _ | link _ | spawn _ => exact String.append_ne_of_not_prefix (by decide +kernel)

/-- The reason in the record tells an empty image from every other failure. -/
theorem UpdateError.reason_eq_empty_image {e : UpdateError} :
    e.reason = (UpdateError.transfer .emptyImage).reason ↔ e = .transfer .emptyImage := by
  refine ⟨fun hreason => ?_, fun heq => congrArg reason heq⟩
  by_contra hne
  unfold reason at hreason
  split at hreason
  · revert hreason
    decide +kernel
  · exact message_ne_empty_image hne hreason

/-! ## Failures that do not occur -/

namespace Attempt

variable {δ ε α β : Type} {e : ε}

/-- No run fails in this way. -/
def Avoids (e : ε) (x : Attempt ε α) : Prop := ∀ h, ¬ x.Finishes h (.error e)

theorem avoids_pure (a : α) : (pure a : Attempt ε α).Avoids e := fun _ hf => nomatch (finishes_pure.mp hf).2

theorem avoids_lift (p : Action α) : (liftM p : Attempt ε α).Avoids e := fun _ => not_finishes_lift_error

theorem avoids_throw {e' : ε} (hne : e' ≠ e) : (throw e' : Attempt ε α).Avoids e :=
  fun _ hf => hne (Except.error.inj (finishes_throw.mp hf).2).symm

theorem avoids_decided {x : Except ε α} (hx : x ≠ .error e) : (Attempt.decided x).Avoids e :=
  fun _ hf => hx (finishes_decided.mp hf).2.symm

theorem avoids_bind {x : Attempt ε α} {f : α → Attempt ε β} (hx : x.Avoids e) (hf : ∀ a, (f a).Avoids e) :
    (x >>= f).Avoids e := by
  intro h hfin
  rcases finishes_bind_error.mp hfin with hfin | ⟨a, h₁, h₂, rfl, -, hfin⟩
  · exact hx h hfin
  · exact hf a h₂ hfin

theorem avoids_discard {x : Attempt ε α} (hx : x.Avoids e) : (discard x).Avoids e :=
  fun h hf => hx h (finishes_discard_error.mp hf)

/-- No failure is worded in this way. -/
theorem avoids_of {f : δ → ε} {x : Action (Except δ α)} (hf : ∀ d, f d ≠ e) : (Attempt.of f x).Avoids e := by
  intro h hfin
  obtain ⟨d, -, heq⟩ := finishes_of_error.mp hfin
  exact hf d heq.symm

/-- The failure that is worded in this way does not occur. -/
theorem avoids_of_injective {f : δ → ε} {x : Attempt δ α} {d : δ} (hx : x.Avoids d) (hf : Function.Injective f) :
    (Attempt.of f x.run).Avoids (f d) := by
  intro h hfin
  obtain ⟨d', hd', heq⟩ := finishes_of_error.mp hfin
  obtain rfl := hf heq
  exact hx h hd'

end Attempt

namespace Dfu

variable {channel : ControlChannel} {config : TransferConfig} {heedsStop : Bool} {progress : Single → Action Unit}
  {image : Bytes}

theorem avoids_prepare : (prepare channel config).Avoids .emptyImage := by
  refine Attempt.avoids_bind (Attempt.avoids_discard (Attempt.avoids_of nofun)) fun _ => ?_
  refine Attempt.avoids_bind (Attempt.avoids_of nofun) fun status => ?_
  refine Attempt.avoids_bind (Attempt.avoids_lift _) fun _ => ?_
  split
  · exact Attempt.avoids_pure _
  · exact Attempt.avoids_pure _
  · exact Attempt.avoids_throw nofun

theorem avoids_send {transaction : UInt16} {payload : Bytes} :
    (send channel config transaction payload).Avoids .emptyImage :=
  Attempt.avoids_discard (Attempt.avoids_of nofun)

theorem avoids_awaitChunk {transaction : UInt16} : (awaitChunk channel config transaction).Avoids .emptyImage := by
  refine Attempt.avoids_bind (Attempt.avoids_of fun e => ?_) fun status => Attempt.avoids_decided fun h => ?_
  · cases e <;> exact nofun
  · unfold chunkVerdict at h
    split_ifs at h <;> cases h

theorem avoids_manifest : (manifest channel config).Avoids .emptyImage := by
  refine Attempt.avoids_bind (Attempt.avoids_lift _) fun _ => ?_
  refine Attempt.avoids_bind (Attempt.avoids_of fun e => ?_) fun status => Attempt.avoids_decided fun h => ?_
  · cases e <;> exact nofun
  · unfold manifestVerdict at h
    split_ifs at h <;> cases h

theorem avoids_sendChunks (total : Nat) (chunks : List Chunk) (rest : Bytes) (sent : Nat) (transaction : UInt16) :
    (sendChunks channel config heedsStop progress total chunks rest sent transaction).Avoids .emptyImage := by
  induction chunks generalizing rest sent transaction with
  | nil => exact Attempt.avoids_bind (Attempt.avoids_lift _) fun _ => Attempt.avoids_pure _
  | cons chunk chunks ih =>
    have hgo : (send channel config transaction (rest.take chunk.length) >>= fun _ =>
        liftM (progress (Single.quotient (sent + chunk.length) total)) >>= fun _ =>
          awaitChunk channel config transaction >>= fun _ =>
        sendChunks channel config heedsStop progress total chunks (rest.drop chunk.length) (sent + chunk.length)
          (transaction + 1)).Avoids .emptyImage :=
      Attempt.avoids_bind avoids_send fun _ => Attempt.avoids_bind (Attempt.avoids_lift _) fun _ =>
        Attempt.avoids_bind avoids_awaitChunk fun _ => ih _ _ _
    refine Attempt.avoids_bind (Attempt.avoids_lift _) fun stop => ?_
    cases stop with
    | true =>
      exact Attempt.avoids_bind (Attempt.avoids_lift _) fun _ =>
        Attempt.avoids_bind (Attempt.avoids_throw nofun) fun _ => hgo
    | false => exact hgo

/-- The transfer of some bytes does not fail for want of bytes. -/
theorem avoids_transfer (himage : image ≠ []) :
    (transfer channel config heedsStop image progress).Avoids .emptyImage := by
  refine Attempt.avoids_bind (download_of_ne_nil himage ▸ avoids_sendChunks _ _ _ _ _) fun transaction => ?_
  refine Attempt.avoids_bind ?_ fun _ => Attempt.avoids_discard avoids_manifest
  exact Attempt.avoids_bind avoids_send fun _ => Attempt.avoids_bind (Attempt.avoids_lift _) fun _ =>
    Attempt.avoids_lift _

end Dfu

namespace Session

/-! ## Faults -/

/-- What is wrong with an image for a class of cameras, by the error that says so. -/
inductive Fault (image : FirmwareImage) (c : DeviceClass) : UpdateError → Prop
  | empty : image.data = [] → Fault image c (.image .empty)
  | line : image.line ≠ c.line → Fault image c (.image (.lineMismatch image.line c.line))
  | revision {offset : Nat} : image.line.versionOffset? = some offset →
    image.data.length < offset + 4 ∨ image.data.slice offset 4 = littleEndian 4 0 →
    Fault image c (.image .corrupted)
  | identity : c.mode ≠ .recovery → c.line.reportsIdentityInRecovery = false →
    Fault image c (.recoveryIdentityUnsupported c.line)

/-- The errors that an image and a class of cameras may have, in the order in which they are looked for. -/
def faults (image : FirmwareImage) (c : DeviceClass) : List UpdateError :=
  [.image .empty, .image (.lineMismatch image.line c.line), .image .corrupted, .recoveryIdentityUnsupported c.line]

/-- The first of the faults that there are. -/
def FirstFault (image : FirmwareImage) (c : DeviceClass) (e : UpdateError) : Prop :=
  ∃ before after, faults image c = before ++ e :: after ∧ Fault image c e ∧ ∀ e' ∈ before, ¬ Fault image c e'

/-- What an image must be for a class of cameras. -/
structure Suits (image : FirmwareImage) (c : DeviceClass) : Prop where
  nonempty : image.data ≠ []
  line : image.line = c.line
  revision : ∀ offset, image.line.versionOffset? = some offset → offset + 4 ≤ image.data.length ∧
    ∃ word : UInt32, image.data.slice offset 4 = littleEndian 4 word.toNat ∧ word ≠ 0
  identity : c.mode = .recovery ∨ c.line.reportsIdentityInRecovery = true

variable {config : UpdateConfig} {image : FirmwareImage} {camera : Camera} {c : DeviceClass} {e : UpdateError}

theorem fault_empty_iff : Fault image c (.image .empty) ↔ image.data = [] := ⟨fun | .empty h => h, .empty⟩

theorem fault_line_iff : Fault image c (.image (.lineMismatch image.line c.line)) ↔ c.line ≠ image.line :=
  ⟨fun | .line h => h.symm, fun h => .line h.symm⟩

theorem fault_revision_iff :
    Fault image c (.image .corrupted) ↔ (image.line.versionOffset?.isSome && image.version?.isNone) = true := by
  rw [Bool.and_eq_true, Option.isSome_iff_exists, Option.isNone_iff_eq_none]
  constructor
  · rintro (_ | _ | ⟨hoffset, hword⟩)
    exact ⟨⟨_, hoffset⟩, (FirmwareImage.version?_eq_none_iff hoffset).mpr hword⟩
  · rintro ⟨⟨offset, hoffset⟩, hnone⟩
    exact .revision hoffset ((FirmwareImage.version?_eq_none_iff hoffset).mp hnone)

theorem fault_identity_iff : Fault image c (.recoveryIdentityUnsupported c.line) ↔
    (!c.isRecovery && !c.line.reportsIdentityInRecovery) = true := by
  have hmode : c.isRecovery = false ↔ c.mode ≠ .recovery := by simp [DeviceClass.isRecovery]
  rw [Bool.and_eq_true, Bool.not_eq_true', Bool.not_eq_true', hmode]
  exact ⟨fun | .identity hm hl => ⟨hm, hl⟩, fun h => .identity h.1 h.2⟩

theorem not_fault_revision_iff : ¬ Fault image c (.image .corrupted) ↔
    ∀ offset, image.line.versionOffset? = some offset → offset + 4 ≤ image.data.length ∧
      ∃ word : UInt32, image.data.slice offset 4 = littleEndian 4 word.toNat ∧ word ≠ 0 := by
  cases hoffset : image.line.versionOffset? with
  | none => simp [fault_revision_iff, hoffset]
  | some offset =>
    have hfault : Fault image c (.image .corrupted) ↔ image.version? = none := by
      rw [fault_revision_iff, hoffset]
      simp
    simp only [hfault, Option.some.injEq, forall_eq']
    constructor
    · intro hsome
      obtain ⟨v, hv⟩ := Option.ne_none_iff_exists'.mp hsome
      obtain ⟨word, ⟨offset', hoffset', hword⟩, hne, -⟩ := FirmwareImage.version?_eq_some_iff.mp hv
      obtain rfl := Option.some.inj (hoffset.symm.trans hoffset')
      rw [FirmwareImage.version?_eq_none_iff hoffset, not_or] at hsome
      exact ⟨Nat.not_lt.mp hsome.1, word, hword, hne⟩
    · rintro ⟨-, word, hword, hne⟩ hnone
      have hv := FirmwareImage.version?_eq_some_iff.mpr ⟨word, ⟨offset, hoffset, hword⟩, hne, rfl⟩
      rw [hnone] at hv
      cases hv

/-- An image suits a class exactly if it has no fault. -/
theorem suits_iff : Suits image c ↔ ∀ e ∈ faults image c, ¬ Fault image c e := by
  have hidentity : ¬ Fault image c (.recoveryIdentityUnsupported c.line) ↔
      (c.mode = .recovery ∨ c.line.reportsIdentityInRecovery = true) := by
    rw [fault_identity_iff]
    cases c.line.reportsIdentityInRecovery <;> simp [DeviceClass.isRecovery]
  simp only [faults, List.forall_mem_cons, fault_empty_iff, fault_line_iff, not_fault_revision_iff, hidentity]
  constructor
  · exact fun h => ⟨h.nonempty, fun hne => hne h.line.symm, h.revision, h.identity, nofun⟩
  · exact fun ⟨hempty, hline, hrevision, hidentity, _⟩ =>
      ⟨hempty, (Decidable.not_not.mp hline).symm, hrevision, hidentity⟩

/-! ## Starts -/

open Classical in
/-- A session is refused for the first of its faults. -/
theorem start_eq (config : UpdateConfig) (camera : Camera) (image : FirmwareImage) : start config camera image =
    match (faults image camera.kind).find? fun e => decide (Fault image camera.kind e) with
    | some e => .error e
    | none => .ok (run config image camera) := by
  unfold start FirmwareImage.validate
  simp only [faults, List.find?, fault_empty_iff, fault_line_iff, fault_revision_iff, fault_identity_iff]
  by_cases hempty : image.data = []
  · simp [hempty]
  by_cases hline : camera.kind.line ≠ image.line
  · simp [hempty, hline]
  by_cases hrevision : (image.line.versionOffset?.isSome && image.version?.isNone) = true
  · simp [hempty, hline, hrevision]
  by_cases hidentity : (!camera.kind.isRecovery && !camera.kind.line.reportsIdentityInRecovery) = true
  · simp [hempty, hline, hrevision, hidentity]
  · simp [hempty, hline, hrevision, hidentity]

theorem start_eq_error_iff : start config camera image = .error e ↔ FirstFault image camera.kind e := by
  classical
  have hfirst : (faults image camera.kind).find? (fun e => decide (Fault image camera.kind e)) = some e ↔
      FirstFault image camera.kind e := by
    rw [List.find?_eq_some_iff_append]
    simp only [FirstFault, decide_eq_true_eq, Bool.not_eq_true', decide_eq_false_iff_not]
    exact ⟨fun ⟨he, before, after, heq, hbefore⟩ => ⟨before, after, heq, he, hbefore⟩,
      fun ⟨before, after, heq, he, hbefore⟩ => ⟨he, before, after, heq, hbefore⟩⟩
  rw [← hfirst, start_eq]
  cases (faults image camera.kind).find? (fun e => decide (Fault image camera.kind e)) <;> simp

theorem start_eq_ok_iff {session : Action Unit} :
    start config camera image = .ok session ↔ Suits image camera.kind ∧ session = run config image camera := by
  classical
  have hnone : (faults image camera.kind).find? (fun e => decide (Fault image camera.kind e)) = none ↔
      Suits image camera.kind := by
    simp [List.find?_eq_none, suits_iff]
  rw [← hnone, start_eq]
  cases (faults image camera.kind).find? (fun e => decide (Fault image camera.kind e)) <;> simp [eq_comm]

/-! ## Sessions that were started -/

section Steps

variable {identity : String} {cause : TransferError}

theorem avoids_ensureLive : ensureLive.Avoids (.transfer cause) := by
  refine Attempt.avoids_bind (Attempt.avoids_lift _) fun stop => ?_
  split
  · exact Attempt.avoids_throw nofun
  · exact Attempt.avoids_pure _

theorem avoids_search {late : UpdateError} (hlate : late ≠ .transfer cause) (search : Search) :
    (Attempt.of (UpdateError.ofSearch late) search.run).Avoids (.transfer cause) := by
  refine Attempt.avoids_of fun e => ?_
  cases e with
  | timedOut identity after => exact hlate
  | stopped => exact nofun

theorem avoids_identify : (identify camera).Avoids (.transfer cause) := by
  refine Attempt.avoids_bind avoids_ensureLive fun _ =>
    Attempt.avoids_bind (Attempt.avoids_of nofun) fun identity? => ?_
  cases identity? with
  | none => exact Attempt.avoids_throw nofun
  | some identity => exact Attempt.avoids_bind (Attempt.avoids_lift _) fun _ => Attempt.avoids_pure _

theorem avoids_secure : (secure config camera identity).Avoids (.transfer cause) := by
  unfold secure
  split
  · exact Attempt.avoids_pure _
  refine Attempt.avoids_bind (Attempt.avoids_lift _) fun offered => ?_
  split
  · refine Attempt.avoids_bind (Attempt.avoids_lift _) fun _ =>
      Attempt.avoids_bind (Attempt.avoids_lift _) fun _ => ?_
    refine Attempt.avoids_bind (Attempt.avoids_lift _) fun _ =>
      Attempt.avoids_bind (Attempt.avoids_of nofun) fun flash => ?_
    refine Attempt.avoids_bind (Attempt.avoids_of nofun) fun path => ?_
    exact Attempt.avoids_bind (Attempt.avoids_lift _) fun _ => Attempt.avoids_lift _
  · exact Attempt.avoids_lift _

theorem avoids_switchMode : (switchMode camera).Avoids (.transfer cause) :=
  Attempt.avoids_bind avoids_ensureLive fun _ => Attempt.avoids_bind (Attempt.avoids_lift _) fun _ =>
    Attempt.avoids_bind (Attempt.avoids_of nofun) fun _ => Attempt.avoids_lift _

theorem avoids_findRecovery : (findRecovery config identity).Avoids (.transfer cause) :=
  Attempt.avoids_bind avoids_ensureLive fun _ => Attempt.avoids_bind (Attempt.avoids_lift _) fun _ =>
    Attempt.avoids_bind (avoids_search (by simp) _) fun _ => Attempt.avoids_bind (Attempt.avoids_lift _) fun _ =>
      Attempt.avoids_bind (Attempt.avoids_lift _) fun _ => Attempt.avoids_pure _

theorem avoids_openChannel : (openChannel camera).Avoids (.transfer cause) :=
  Attempt.avoids_bind avoids_ensureLive fun _ => Attempt.avoids_bind (Attempt.avoids_lift _) fun _ =>
    Attempt.avoids_bind (Attempt.avoids_lift _) fun _ => Attempt.avoids_of nofun

theorem avoids_awaitReturn (identity? : Option String) :
    (awaitReturn config identity?).Avoids (.transfer cause) := by
  cases identity? with
  | none => exact Attempt.avoids_lift _
  | some identity =>
    refine Attempt.avoids_bind avoids_ensureLive fun _ => Attempt.avoids_bind (Attempt.avoids_lift _) fun _ => ?_
    refine Attempt.avoids_bind (Attempt.avoids_lift _) fun _ =>
      Attempt.avoids_bind (avoids_search (by simp) _) fun found => ?_
    refine Attempt.avoids_bind (Attempt.avoids_lift _) fun version => ?_
    split
    · exact Attempt.avoids_bind (Attempt.avoids_lift _) fun _ => Attempt.avoids_lift _
    · exact Attempt.avoids_bind (Attempt.avoids_lift _) fun _ => Attempt.avoids_lift _

end Steps

theorem avoids_flash (himage : image.data ≠ []) : (flash config image camera).Avoids (.transfer .emptyImage) := by
  have hinjective : Function.Injective UpdateError.transfer := fun _ _ => UpdateError.transfer.inj
  refine Attempt.avoids_bind avoids_openChannel fun channel => ?_
  refine Attempt.avoids_bind (Attempt.avoids_discard (Attempt.avoids_of_injective Dfu.avoids_prepare hinjective))
    fun _ => ?_
  refine Attempt.avoids_bind (Attempt.avoids_of_injective (Dfu.avoids_transfer himage) hinjective) fun _ => ?_
  exact Attempt.avoids_bind (Attempt.avoids_lift _) fun _ => Attempt.avoids_lift _

/-- No update with some bytes fails for want of bytes. -/
theorem avoids_attempt (himage : image.data ≠ []) :
    (attempt config image camera).Avoids (.transfer .emptyImage) := by
  unfold attempt
  split
  · exact Attempt.avoids_bind (Attempt.avoids_lift _) fun identity? =>
      Attempt.avoids_bind (avoids_flash himage) fun _ => avoids_awaitReturn identity?
  · exact Attempt.avoids_bind avoids_identify fun identity => Attempt.avoids_bind avoids_secure fun _ =>
      Attempt.avoids_bind avoids_switchMode fun _ => Attempt.avoids_bind avoids_findRecovery fun recovery =>
        Attempt.avoids_bind (avoids_flash himage) fun _ => avoids_awaitReturn (some identity)

/-- Nobody who waits for a session with some bytes is told that it failed for want of bytes. -/
theorem result_ne_empty_image (himage : image.data ≠ []) {σ : Type}
    (env : Environment (cameras.sum host) σ) (s : σ) :
    result env s (run config image camera) ≠ .failed (UpdateError.transfer .emptyImage).reason := by
  intro hresult
  by_cases hlive : ((run config image camera).run env s).1 = .panicked
  · unfold result outcome at hresult
    rw [hlive] at hresult
    have hreason := Outcome.failed.inj hresult
    revert hreason
    decide +kernel
  rw [result_eq hlive] at hresult
  cases ho : (Record.initial.after ((run config image camera).history env s)).outcome? with
  | none =>
    rw [ho, Option.getD_none] at hresult
    have hreason := Outcome.failed.inj hresult
    revert hreason
    decide +kernel
  | some o =>
    rw [ho, Option.getD_some] at hresult
    obtain ⟨h₀, h₁, h₂, e, -, hatt, hreason⟩ := failed_of_outcome? (begins_history env _ s) (hresult ▸ ho)
    obtain rfl := UpdateError.reason_eq_empty_image.mp hreason.symm
    exact avoids_attempt himage h₁ hatt

/-- Full sessions run on images of the only line that reports its identity in recovery mode. -/
theorem line_of_normal (hsuits : Suits image c) (hmode : c.mode = .normal) : image.line = .d400 := by
  have hidentity : c.line.reportsIdentityInRecovery = true := by
    rcases hsuits.identity with h | h
    · rw [hmode] at h
      cases h
    · exact h
  rw [hsuits.line]
  cases hline : c.line with
  | d400 => rfl
  | sr300 =>
    rw [hline] at hidentity
    cases hidentity

/-- A session starts exactly if its image suits its camera; otherwise the first fault is the answer,
which the class of the camera decides, and nothing is called, whatever the session was for.  So no
session fails for want of bytes, and one that begins in normal mode flashes an image of the line D400
with a revision other than zero. -/
theorem inputs_are_checked_first (config : UpdateConfig) (camera : Camera) (image : FirmwareImage) :
    (∀ session, start config camera image = .ok session ↔
      Suits image camera.kind ∧ session = run config image camera) ∧
    (∀ e, start config camera image = .error e ↔ FirstFault image camera.kind e) ∧
    (∀ e, start config camera image = .error e → ∀ {σ α : Type} (env : Environment (cameras.sum host) σ) (s : σ)
      (next : Action Unit → Attempt UpdateError α),
      (Attempt.decided (start config camera image) >>= next).run.history env s = [] ∧
        (Attempt.decided (start config camera image) >>= next).run.run env s = (.finished (.error e), s)) ∧
    ∀ session, start config camera image = .ok session →
      (attempt config image camera).Avoids (.transfer .emptyImage) ∧
      (∀ {σ : Type} (env : Environment (cameras.sum host) σ) (s : σ),
        result env s session ≠ .failed (UpdateError.transfer .emptyImage).reason) ∧
      (camera.kind.mode = .normal → image.line = .d400 ∧ ∃ word, image.Embeds word ∧ word ≠ 0) := by
  refine ⟨fun session => start_eq_ok_iff, fun e => start_eq_error_iff, fun e hrefused => ?_,
    fun session hstart => ?_⟩
  · rw [hrefused]
    exact fun env s next => ⟨rfl, rfl⟩
  · obtain ⟨hsuits, rfl⟩ := start_eq_ok_iff.mp hstart
    refine ⟨avoids_attempt hsuits.nonempty, fun env s => result_ne_empty_image hsuits.nonempty env s,
      fun hmode => ?_⟩
    have hline := line_of_normal hsuits hmode
    have hoffset : image.line.versionOffset? = some 0x18E := by rw [hline]; rfl
    obtain ⟨-, word, hword, hne⟩ := hsuits.revision _ hoffset
    exact ⟨hline, word, ⟨_, hoffset, hword⟩, hne⟩

/-- An image one byte too short, an empty image that is for another line too, and an image that suits. -/
theorem inputs_are_checked_first_unit :
    let refuse (image : FirmwareImage) : Attempt UpdateError Unit :=
      Attempt.decided (start Obliging.config Obliging.unit image) >>= fun session => liftM session
    let o : Obliging := { camera := Obliging.unit }
    (refuse ⟨List.replicate 401 1, .d400⟩).run.run Obliging.world o = (.finished (.error (.image .corrupted)), o) ∧
      (refuse ⟨[], .sr300⟩).run.run Obliging.world o = (.finished (.error (.image .empty)), o) ∧
      (attempt Obliging.config Obliging.image Obliging.unit).Avoids (.transfer .emptyImage) ∧
      ∃ word, Obliging.image.Embeds word ∧ word ≠ 0 := by
  intro refuse o
  have hshort : FirstFault ⟨List.replicate 401 1, .d400⟩ Obliging.unit.kind (.image .corrupted) := by
    refine ⟨[.image .empty, .image (.lineMismatch .d400 .d400)], [.recoveryIdentityUnsupported .d400], rfl,
      .revision rfl (.inl ?_), ?_⟩
    · rw [List.length_replicate]
      decide
    have hline : ¬ Fault ⟨List.replicate 401 1, .d400⟩ Obliging.unit.kind (.image (.lineMismatch .d400 .d400)) :=
      mt fault_line_iff.mp (not_not_intro rfl)
    exact List.forall_mem_cons.mpr ⟨fun h => List.cons_ne_nil _ _ (fault_empty_iff.mp h),
      List.forall_mem_singleton.mpr hline⟩
  have hempty : FirstFault ⟨[], .sr300⟩ Obliging.unit.kind (.image .empty) := ⟨[], _, rfl, .empty rfl, nofun⟩
  have hsuits : Suits Obliging.image Obliging.unit.kind := (start_eq_ok_iff.mp start_obliging).1
  obtain ⟨-, hrefuses, hnothing, -⟩ :=
    inputs_are_checked_first Obliging.config Obliging.unit ⟨List.replicate 401 1, .d400⟩
  obtain ⟨-, hrefuses', hnothing', -⟩ := inputs_are_checked_first Obliging.config Obliging.unit ⟨[], .sr300⟩
  obtain ⟨hstarts, -, -, hstarted⟩ := inputs_are_checked_first Obliging.config Obliging.unit Obliging.image
  obtain ⟨havoids, -, hfull⟩ := hstarted _ ((hstarts _).mpr ⟨hsuits, rfl⟩)
  exact ⟨(hnothing _ ((hrefuses _).mpr hshort) Obliging.world o fun session => liftM session).2,
    (hnothing' _ ((hrefuses' _).mpr hempty) Obliging.world o fun session => liftM session).2,
    havoids, (hfull rfl).2⟩

end Session

end Reflash
