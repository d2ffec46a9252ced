import Reflash.Proofs.Session.Outcome
import Reflash.Proofs.Session.Stopping

/-!
# Reflash.Proofs.Session.Sent — the bytes that a session sends

`sent h` is all data that the calls `h` download, on whatever channel.  `x.Sends data` says that an
attempt sends a first part of these bytes and nothing else, and all of them where it ends well.  It is
composed as the attempt is: what the steps of an update send, one after the other, is the image and no
other byte (`sends_attempt`).
-/

namespace Reflash

open Program

/-! ## Sent bytes -/

/-- The data of a download. -/
def carried : Event (cameras.sum host) → Bytes
  | ⟨.inl (.transfer _ packet _), _⟩ => if packet.request = DfuRequest.download.code then packet.payload else []
  | _ => []

/-- The data of all downloads, in order. -/
def sent (h : History) : Bytes := h.flatMap carried

section Sent

variable {h h₁ h₂ : History} {channel : ControlChannel}

@[simp] theorem sent_nil : sent [] = [] := rfl

@[simp] theorem sent_append : sent (h₁ ++ h₂) = sent h₁ ++ sent h₂ := List.flatMap_append

theorem carried_of_not_requests {e : Event (cameras.sum host)} (he : ¬ Requests .download e.call) :
    carried e = [] := by
  unfold carried
  split
  · exact if_neg (mt requests_transfer.mpr he)
  · rfl

theorem sent_eq_nil (hh : ∀ e ∈ h, ¬ Requests .download e.call) : sent h = [] :=
  List.flatMap_eq_nil_iff.mpr fun e he => carried_of_not_requests (hh e he)

theorem sent_of_within {kinds : List CallKind} (hh : Within kinds h) (hkinds : .transfer ∉ kinds) : sent h = [] :=
  sent_eq_nil fun e he => not_requests_of_ofKinds (hh e he) hkinds

/-- Where all transfers are on one channel, they are what is on its wire. -/
theorem sent_eq_wire (hh : ∀ e ∈ h, Dfu.Calls channel e.call) :
    sent h = (downloads (wire channel h)).flatMap (·.payload) := by
  induction h with
  | nil => rfl
  | cons e h ih =>
    obtain ⟨he, hh⟩ := List.forall_mem_cons.mp hh
    have hone : carried e = (downloads (wire channel [e])).flatMap (·.payload) := by
      rcases e with ⟨c, a?⟩
      rcases he with ⟨packet, timeout, rfl⟩ | he
      · by_cases hpacket : packet.request = DfuRequest.download.code <;>
          simp [carried, downloads, Exchange.isDownload, hpacket]
      · have hne : kindOf c ≠ .transfer := fun heq => by
          rw [ofKinds, heq] at he
          simp at he
        have hquiet : wire channel [⟨c, a?⟩] = [] := by
          refine wire_eq_nil fun e' he' packet timeout hcall => hne ?_
          obtain rfl := List.mem_singleton.mp he'
          exact congrArg kindOf hcall
        rw [hquiet, carried_of_not_requests (not_requests_of_ne hne)]
        rfl
    have hcons : sent (e :: h) = carried e ++ sent h := List.flatMap_cons
    rw [hcons, hone, ih hh, ← List.flatMap_append, ← downloads_append, ← wire_append, List.singleton_append]

end Sent

/-! ## Attempts that send some bytes -/

namespace Attempt

variable {δ ε α β : Type} {data data' : Bytes}

/-- A run sends a first part of the data, and all of it if it ends well. -/
structure Sends (data : Bytes) (x : Attempt ε α) : Prop where
  part : ∀ h, x.Begins h → sent h <+: data
  whole : ∀ h a, x.Finishes h (.ok a) → sent h = data

theorem Sends.run {σ : Type} {x : Attempt ε α} (hx : x.Sends data)
    (env : Environment (cameras.sum host) σ) (s : σ) :
    sent (x.run.history env s) <+: data ∧
      ∀ a, (x.run.run env s).1 = .finished (.ok a) → sent (x.run.history env s) = data :=
  ⟨hx.part _ (begins_history env x.run s), fun a ha => hx.whole _ a (finishes_history ha)⟩

theorem sends_of_only {x : Attempt ε α} (hx : x.Only fun c => ¬ Requests .download c) : x.Sends [] where
  part _ hb := by rw [sent_eq_nil (Program.Only.calls hx hb)]
  whole _ _ hf := sent_eq_nil (Program.Only.calls hx hf.begins)

theorem sends_of_kinds {x : Attempt ε α} {kinds : List CallKind} (hx : x.Only (ofKinds kinds))
    (hkinds : .transfer ∉ kinds) : x.Sends [] :=
  sends_of_only (Program.Only.mono hx fun _ hc => not_requests_of_ofKinds hc hkinds)

theorem sends_tell (c : HostCall) : (liftM (tell c) : Attempt ε c.Answer).Sends [] := by
  have hc : ¬ Requests .download (.inr c) := nofun
  exact sends_of_only (only_lift (only_tell.mpr hc))

theorem sends_throw (e : ε) : (throw e : Attempt ε α).Sends data where
  part h hb := by
    rw [begins_throw.mp hb]
    exact List.nil_prefix
  whole h a hf := by cases (finishes_throw.mp hf).2

theorem sends_bind {x : Attempt ε α} {f : α → Attempt ε β} (hx : x.Sends data) (hf : ∀ a, (f a).Sends data') :
    (x >>= f).Sends (data ++ data') where
  part h hb := by
    rcases begins_bind.mp hb with hb | ⟨a, h₁, h₂, rfl, hfin, hb⟩
    · exact (hx.part h hb).trans (List.prefix_append ..)
    · rw [sent_append, hx.whole h₁ a hfin]
      exact (List.prefix_append_right_inj data).mpr ((hf a).part h₂ hb)
  whole h b hfin := by
    obtain ⟨a, h₁, h₂, rfl, hx', hf'⟩ := finishes_bind_ok.mp hfin
    rw [sent_append, hx.whole h₁ a hx', (hf a).whole h₂ b hf']

/-- Nothing is sent by what comes before. -/
theorem sends_after {x : Attempt ε α} {f : α → Attempt ε β} (hx : x.Sends []) (hf : ∀ a, (f a).Sends data) :
    (x >>= f).Sends data := sends_bind hx hf

/-- Nothing is sent by what comes behind. -/
theorem sends_before {x : Attempt ε α} {f : α → Attempt ε β} (hx : x.Sends data) (hf : ∀ a, (f a).Sends []) :
    (x >>= f).Sends data := by
  simpa using sends_bind hx hf

theorem sends_of {f : δ → ε} {x : Attempt δ α} (hx : x.Sends data) : (Attempt.of f x.run).Sends data where
  part h hb := hx.part h (begins_of.mp hb)
  whole h a hfin := hx.whole h a (finishes_of_ok.mp hfin)

end Attempt

/-! ## Transfers and updates -/

namespace Dfu

variable {channel : ControlChannel} {config : TransferConfig} {heedsStop : Bool} {image : Bytes}
  {progress : Single → Action Unit}

theorem only_transfer (hprogress : ∀ x, (progress x).Only (Calls channel)) :
    (transfer channel config heedsStop image progress).Only (Calls channel) :=
  Attempt.only_bind (only_download hprogress heedsStop image) fun _ =>
    Attempt.only_bind (only_finish hprogress _) fun _ => Attempt.only_discard only_manifest

/-- A transfer sends its image. -/
theorem sends_transfer (hmax : config.maxChunk ≤ ControlPacket.maxChunk)
    (hprogress : ∀ x, (progress x).Only (Calls channel)) (hspares : ∀ x, (progress x).Only (Spares channel)) :
    (transfer channel config heedsStop image progress).Sends image := by
  have hall : (imagePackets config image ++ [endPacket config image]).flatMap (·.payload) = image := by
    rw [List.flatMap_append, flatMap_payload_imagePackets hmax]
    exact List.append_nil image
  constructor
  · intro h hb
    have hlockstep := lockstep_of_transfer hspares hb
    have hpackets := hlockstep.downloads_prefix fun p hp => by
      rcases List.mem_append.mp hp with hp | hp
      · exact isDownload_of_mem_imagePackets p hp
      · exact List.mem_singleton.mp hp ▸ isDownload_endPacket
    obtain ⟨rest, hrest⟩ := hpackets
    rw [sent_eq_wire (Program.Only.calls (only_transfer hprogress) hb)]
    refine ⟨rest.flatMap (·.payload), ?_⟩
    rw [← List.flatMap_append, hrest, hall]
  · intro h a hf
    rw [sent_eq_wire (Program.Only.calls (only_transfer hprogress) hf.begins),
      downloads_of_transfer_ok hspares hf, hall]

end Dfu

namespace Session

variable {config : UpdateConfig} {image : FirmwareImage} {camera : Camera}

theorem sends_flash (hmax : config.transfer.maxChunk ≤ ControlPacket.maxChunk) :
    (flash config image camera).Sends image.data := by
  have hnote (line : String) : (liftM (note line) : Attempt UpdateError Unit).Sends [] := by
    have honly : (note line).Only (ofKinds [.log, .record]) := only_note (by simp) (by simp) line
    exact Attempt.sends_of_kinds (Attempt.only_lift honly) (by simp)
  have hprogress : (liftM (setProgress progressTransferred) : Attempt UpdateError Unit).Sends [] :=
    Attempt.sends_of_kinds (Attempt.only_lift (only_setProgress (List.mem_singleton_self CallKind.record) _))
      (by simp)
  refine Attempt.sends_after (Attempt.sends_of_kinds (only_openChannel camera) (by simp)) fun channel => ?_
  refine Attempt.sends_after (Attempt.sends_of_only
    (Attempt.only_discard (Attempt.only_of Dfu.not_requests_prepare))) fun _ => ?_
  refine Attempt.sends_before (Attempt.sends_of (Dfu.sends_transfer hmax only_heedTransfer spares_heedTransfer))
    fun _ => ?_
  exact Attempt.sends_after (hnote _) fun _ => hprogress

/-- An update sends its image. -/
theorem sends_attempt (hmax : config.transfer.maxChunk ≤ ControlPacket.maxChunk) :
    (attempt config image camera).Sends image.data := by
  have hreturn (identity? : Option String) : (awaitReturn config identity?).Sends [] :=
    Attempt.sends_of_kinds (only_awaitReturn config identity?) (by simp)
  unfold attempt
  split
  · refine Attempt.sends_after (Attempt.sends_of_kinds (Attempt.only_lift (only_recognise camera)) (by simp))
      fun identity? => ?_
    exact Attempt.sends_before (sends_flash hmax) fun _ => hreturn identity?
  · refine Attempt.sends_after (Attempt.sends_of_kinds (only_identify camera) (by simp)) fun identity => ?_
    refine Attempt.sends_after (Attempt.sends_of_kinds (only_secure config camera identity) (by simp)) fun _ => ?_
    refine Attempt.sends_after (Attempt.sends_of_kinds (only_switchMode camera) (by simp)) fun _ => ?_
    refine Attempt.sends_after (Attempt.sends_of_kinds (only_findRecovery config identity) (by simp))
      fun recovery => ?_
    exact Attempt.sends_before (sends_flash hmax) fun _ => hreturn (some identity)

variable {h : History}

/-- A session sends a first part of its image, and all of it once its record says that it is done. -/
theorem sent_of_begins (hmax : config.transfer.maxChunk ≤ ControlPacket.maxChunk)
    (hb : (run config image camera).Begins h) :
    sent h <+: image.data ∧ ((Record.initial.after h).outcome? = some .done → sent h = image.data) := by
  constructor
  · obtain ⟨h₀, h₁, h₂, rfl, hnote, hatt, hend⟩ := parts_of_begins hb
    simpa [sent_of_within hnote, sent_of_within hend] using (sends_attempt hmax).part h₁ hatt
  · intro hdone
    obtain ⟨-, h₀, h₁, h₂, rfl, hnote, hatt, hend⟩ := finishes_of_outcome?_done hb hdone
    have hquiet := sent_of_within (only_noteImage.within hnote.begins) (by simp)
    have hover := sent_of_within ((only_conclude _).within hend.begins) (by simp)
    rw [sent_append, sent_append, hquiet, hover, (sends_attempt hmax).whole h₁ () hatt]
    exact List.append_nil _

end Session

end Reflash
