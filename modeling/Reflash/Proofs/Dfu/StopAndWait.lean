import Reflash.Proofs.Dfu.Lockstep
import Reflash.Proofs.Firmware.ChunkPlan
import Reflash.Proofs.Obliging

/-!
# Reflash.Proofs.Dfu.StopAndWait — a transfer never runs ahead of the loader

`Dfu.sendChunks` keeps the packets of an image in lockstep, and so does the whole transfer, whose plan ends with
the empty download (`wire_of_begins_transfer`).  So the loader cannot be told that the image is complete before
it has acknowledged every chunk of it (`transfer_is_stop_and_wait`).
-/

namespace Reflash

open Program

/-! ## Sending a chunk -/

namespace Dfu

variable {channel : ControlChannel} {config : TransferConfig} {h : History}

@[simp] theorem finishes_send_ok {transaction : UInt16} {payload : Bytes} {u : Unit} :
    (send channel config transaction payload).Finishes h (.ok u) ↔ ∃ reply,
      h = [.asked (.transfer channel (.download transaction payload) config.requestTimeout)
        (some (.ok reply))] := by
  simp [send, -bind_pure_comp]

theorem begins_send {transaction : UInt16} {payload : Bytes} :
    (send channel config transaction payload).Begins h ↔ h = [] ∨ ∃ reply?,
      h = [.asked (.transfer channel (.download transaction payload) config.requestTimeout) reply?] := by
  simp [send]

/-- Giving up sends nothing but ABORT. -/
theorem packet_of_begins_abort (hb : (abort channel config).Begins h) :
    ∀ x ∈ wire channel h, x.packet = .abort := by
  have honly : (abort channel config).Only fun c : (cameras.sum host).Call =>
      c = .inl (.transfer channel .abort config.requestTimeout) ∨ ofKinds [.log] c := by
    refine only_bind (only_ask.mpr (.inl rfl)) fun reply => ?_
    split
    · trivial
    · exact only_report.mpr (.inr (by simp))
  refine packet_of_mem_wire (P := fun packet => packet = .abort) fun e he packet timeout hcall => ?_
  rcases Only.calls honly hb e he with hc | hc
  · rw [hcall] at hc
    cases hc
    rfl
  · rw [hcall] at hc
    simp at hc

theorem wire_of_begins_abort (hb : (abort channel config).Begins h) : ∀ x ∈ wire channel h, !x.isDownload := by
  intro x hx
  rw [Exchange.isDownload, packet_of_begins_abort hb x hx]
  rfl

theorem chunkVerdict_eq_ok {transaction : UInt16} {status : DeviceStatus} :
    chunkVerdict transaction status = .ok () ↔ status.code = .ok ∧ status.state ≠ .error := by
  unfold chunkVerdict DeviceStatus.isOk DeviceStatus.isError
  split_ifs <;> simp_all

/-- A chunk is acknowledged by the last query of its wait. -/
theorem wire_of_awaitChunk_ok {transaction : UInt16}
    (hf : (awaitChunk channel config transaction).Finishes h (.ok ())) :
    ∃ polls x, wire channel h = polls ++ [x] ∧ (∀ y ∈ polls, y.LeavesOpen (chunkWait config).accepted) ∧
      x.Acknowledges := by
  simp only [awaitChunk, Attempt.finishes_bind_ok, Attempt.finishes_of_ok, Attempt.finishes_decided] at hf
  obtain ⟨status, h₁, h₂, rfl, hwait, rfl, hverdict⟩ := hf
  obtain ⟨polls, x, hwire, hpolls, hx, hs⟩ := Wait.finishes_run_ok hwait
  obtain ⟨hcode, hstate⟩ := chunkVerdict_eq_ok.mp hverdict.symm
  refine ⟨polls, x, by simpa using hwire, hpolls, status, hx, ?_, hcode⟩
  simpa [chunkWait, hstate] using hs

theorem wire_of_begins_awaitChunk {transaction : UInt16} (hb : (awaitChunk channel config transaction).Begins h) :
    ∀ x ∈ wire channel h, !x.isDownload := by
  simp only [awaitChunk, Attempt.begins_bind, Attempt.begins_of, Attempt.begins_decided] at hb
  have hwait : ((chunkWait config).run channel).Begins h := by
    rcases hb with hb | ⟨status, h₁, h₂, rfl, hf, rfl⟩
    · exact hb
    · simpa using hf.begins
  exact Wait.not_isDownload_of_begins hwait

/-! ## Sending all chunks -/

/-- The downloads that carry an image, cut into these chunks and numbered from `transaction`. -/
def packets : List Chunk → Bytes → UInt16 → List ControlPacket
  | [], _, _ => []
  | chunk :: chunks, image, transaction =>
    .download transaction (image.take chunk.length) :: packets chunks (image.drop chunk.length) (transaction + 1)

variable {heedsStop : Bool} {progress : Single → Action Unit} {total : Nat} {chunks : List Chunk} {image : Bytes}
  {sent : Nat} {transaction : UInt16}

/-- A chunk that was taken and waited for well is delivered. -/
theorem delivered_chunk (payload : Bytes) (reply : ControlPacket)
    (hprogress : ∀ x, (progress x).Only (Spares channel)) {x : Single} {u : Unit} {h' : History}
    (hprog : Program.Finishes (progress x) h u)
    (hwait : (awaitChunk channel config transaction).Finishes h' (.ok ())) :
    Delivered [.download transaction payload] (wire channel
      ([.asked (.transfer channel (.download transaction payload) config.requestTimeout) (some (.ok reply))] ++
        (h ++ h'))) := by
  have hw : wire channel h = [] := wire_eq_nil_of_spares (hprogress x) hprog.begins
  obtain ⟨polls, y, hw', -, hy⟩ := wire_of_awaitChunk_ok hwait
  have hquiet : ∀ z ∈ polls ++ [y], !z.isDownload :=
    fun z hz => wire_of_begins_awaitChunk hwait.begins z (hw' ▸ hz)
  have hpolls : ∀ z ∈ polls, !z.isDownload := fun z hz => hquiet z (by simp [hz])
  have hone : Delivered [.download transaction payload]
      (⟨.download transaction payload, some (.ok reply)⟩ :: polls ++ [y]) :=
        .cons hpolls (hquiet y (by simp)) hy .nil
  simpa [hw, hw'] using hone

/-- Once every chunk is sent, all of them are delivered. -/
theorem delivered_of_sendChunks (hprogress : ∀ x, (progress x).Only (Spares channel)) {next : UInt16}
    (hf : (sendChunks channel config heedsStop progress total chunks image sent transaction).Finishes h
      (.ok next)) :
    Delivered (packets chunks image transaction) (wire channel h) ∧
    next = transaction + UInt16.ofNat chunks.length := by
  induction chunks generalizing image sent transaction h with
  | nil =>
    simp only [sendChunks, Attempt.finishes_bind_ok, Attempt.finishes_lift_ok, finishes_report,
      Attempt.finishes_pure] at hf
    obtain ⟨u, h₁, h₂, rfl, rfl, rfl, hnext⟩ := hf
    cases hnext
    exact ⟨.nil, by simp⟩
  | cons chunk chunks ih =>
    simp only [sendChunks, Attempt.finishes_bind_ok, Attempt.finishes_lift_ok] at hf
    obtain ⟨stop, h₁, h₂, rfl, hstop, hf⟩ := hf
    have hw₁ : wire channel h₁ = [] :=
      wire_eq_nil_of_only (only_shouldStop (P := ofKinds [.stop]) (by simp)) (by decide) hstop.begins
    split at hf
    · simp at hf
    simp only [Attempt.finishes_bind_ok, Attempt.finishes_lift_ok, finishes_send_ok] at hf
    obtain ⟨u, h₃, h₄, rfl, ⟨reply, rfl⟩, u', h₅, h₆, rfl, hprog, u'', h₇, h₈, rfl, hwait, hf⟩ := hf
    obtain ⟨hrest, rfl⟩ := ih hf
    refine ⟨?_, ?_⟩
    · have := (delivered_chunk (image.take chunk.length) reply hprogress hprog hwait).append hrest
      simpa [packets, hw₁] using this
    · rw [List.length_cons, UInt16.ofNat_add, UInt16.add_comm (UInt16.ofNat _), ← UInt16.add_assoc]
      rfl

theorem lockstep_of_sendChunks (hprogress : ∀ x, (progress x).Only (Spares channel))
    (hb : (sendChunks channel config heedsStop progress total chunks image sent transaction).Begins h) :
    Lockstep (packets chunks image transaction) (wire channel h) := by
  induction chunks generalizing image sent transaction h with
  | nil =>
    have hlog : (sendChunks channel config heedsStop progress total [] image sent transaction).Only
        (ofKinds [.log]) :=
      Attempt.only_bind (Attempt.only_lift (only_report.mpr (by simp))) fun _ => Attempt.only_pure _
    rw [wire_eq_nil_of_only hlog (by decide) hb]
    exact .quiet (by simp)
  | cons chunk chunks ih =>
    simp only [sendChunks, Attempt.begins_bind, Attempt.begins_lift, Attempt.finishes_lift_ok] at hb
    have hstops : (shouldStop heedsStop).Only (ofKinds [.stop]) := only_shouldStop (by simp)
    rcases hb with hb | ⟨stop, h₁, h₂, rfl, hstop, hb⟩
    · rw [wire_eq_nil_of_only hstops (by decide) hb]
      exact .quiet (by simp)
    have hw₁ : wire channel h₁ = [] := wire_eq_nil_of_only hstops (by decide) hstop.begins
    rw [wire_append, hw₁, List.nil_append]
    split at hb
    · simp only [Attempt.throw_bind, Attempt.begins_bind, Attempt.begins_lift, Attempt.finishes_lift_ok,
        Attempt.begins_throw] at hb
      refine .quiet ?_
      rcases hb with hb | ⟨u, h₃, h₄, rfl, hf, rfl⟩
      · exact wire_of_begins_abort hb
      · simpa using wire_of_begins_abort hf.begins
    -- The chunk itself: not sent yet, sent and waited for, or delivered with the rest under way.
    simp only [Attempt.begins_bind, begins_send, Attempt.begins_lift, finishes_send_ok,
      Attempt.finishes_lift_ok] at hb
    rcases hb with (rfl | ⟨reply?, rfl⟩) | ⟨u, h₃, h₄, rfl, ⟨reply, rfl⟩, hb⟩
    · exact .quiet (by simp)
    · simpa [packets] using Lockstep.sent (w := []) (by simp)
    rcases hb with hb | ⟨u', h₅, h₆, rfl, hprog, hb⟩
    · have hw₄ : wire channel h₄ = [] := wire_eq_nil_of_spares (hprogress _) hb
      simpa [packets, hw₄] using Lockstep.sent (w := []) (by simp)
    have hw₅ : wire channel h₅ = [] := wire_eq_nil_of_spares (hprogress _) hprog.begins
    rcases hb with hb | ⟨u'', h₇, h₈, rfl, hwait, hb⟩
    · simpa [packets, hw₅] using Lockstep.sent (wire_of_begins_awaitChunk hb)
    · have := (delivered_chunk (image.take chunk.length) reply hprogress hprog hwait).append_lockstep
        (ih hb)
      simpa [packets] using this

/-! ## The packets of an image -/

/-- The downloads that carry a whole image. -/
def imagePackets (config : TransferConfig) (image : Bytes) : List ControlPacket :=
  packets (⟨image.length, config.maxChunk⟩ : ChunkPlan).chunks image 0

/-- The download that ends an image. -/
def endPacket (config : TransferConfig) (image : Bytes) : ControlPacket :=
  .download (UInt16.ofNat (⟨image.length, config.maxChunk⟩ : ChunkPlan).count) []

/-- From chunk `i` on, the transaction number is the number of the chunk. -/
theorem packets_range' {plan : ChunkPlan} (himage : image.length = plan.total) (i n : Nat) :
    packets ((List.range' i n).map plan.chunk) (image.drop (i * plan.stride)) (UInt16.ofNat i) =
      (List.range' i n).map fun k => .download (UInt16.ofNat k) (plan.piece image k) := by
  induction n generalizing i with
  | zero => rfl
  | succ n ih =>
    rw [List.range'_succ, List.map_cons, List.map_cons, packets, ChunkPlan.drop_piece himage,
      ← ih (i + 1), UInt16.ofNat_add]
    rfl

theorem imagePackets_eq : imagePackets config image =
    (List.range (⟨image.length, config.maxChunk⟩ : ChunkPlan).count).map fun k =>
      .download (UInt16.ofNat k) ((⟨image.length, config.maxChunk⟩ : ChunkPlan).piece image k) := by
  have htotal : image.length = (⟨image.length, config.maxChunk⟩ : ChunkPlan).total := rfl
  have h := packets_range' htotal 0 (⟨image.length, config.maxChunk⟩ : ChunkPlan).count
  rw [imagePackets, ChunkPlan.chunks_eq, List.range_eq_range']
  simpa using h

theorem isDownload_of_mem_imagePackets : ∀ p ∈ imagePackets config image, p.IsDownload := by
  intro p hp
  rw [imagePackets_eq] at hp
  obtain ⟨k, -, rfl⟩ := List.mem_map.mp hp
  rfl

theorem isDownload_endPacket : (endPacket config image).IsDownload := rfl

theorem payload_download {payload : Bytes} (hpayload : payload.length ≤ ControlPacket.maxChunk) :
    (ControlPacket.download transaction payload).payload = payload := by
  have hlen : (UInt16.ofNat payload.length).toNat = payload.length := by
    rw [UInt16.toNat_ofNat_of_lt']
    exact Nat.lt_of_le_of_lt hpayload (by decide)
  rw [ControlPacket.payload, ControlPacket.download, ControlPacket.toDevice]
  dsimp only
  rw [hlen, List.take_length]

theorem length_piece_le (hmax : config.maxChunk ≤ ControlPacket.maxChunk) (k : Nat) :
    ((⟨image.length, config.maxChunk⟩ : ChunkPlan).piece image k).length ≤ ControlPacket.maxChunk := by
  rw [ChunkPlan.length_piece rfl]
  simp only [ChunkPlan.chunk, ChunkPlan.stride]
  have : 1 ≤ ControlPacket.maxChunk := by decide
  omega

theorem payload_ne_nil_of_mem_imagePackets (hmax : config.maxChunk ≤ ControlPacket.maxChunk) :
    ∀ p ∈ imagePackets config image, p.payload ≠ [] := by
  intro p hp
  rw [imagePackets_eq] at hp
  obtain ⟨k, hk, rfl⟩ := List.mem_map.mp hp
  rw [payload_download (length_piece_le hmax k), ← List.length_pos_iff, ChunkPlan.length_piece rfl]
  exact ChunkPlan.chunk_length_pos _ (List.mem_range.mp hk)

theorem numbered_imagePackets (hmax : config.maxChunk ≤ ControlPacket.maxChunk) :
    (imagePackets config image).map (fun p => (p.value.toNat, p.payload)) =
      (List.range (⟨image.length, config.maxChunk⟩ : ChunkPlan).count).map fun k =>
        (k % 2 ^ 16, (⟨image.length, config.maxChunk⟩ : ChunkPlan).piece image k) := by
  rw [imagePackets_eq, List.map_map]
  refine List.map_congr_left fun k _ => ?_
  rw [Function.comp_apply, payload_download (length_piece_le hmax k)]
  rfl

/-- The packets of an image carry all of it. -/
theorem flatMap_payload_imagePackets (hmax : config.maxChunk ≤ ControlPacket.maxChunk) :
    (imagePackets config image).flatMap (·.payload) = image := by
  rw [imagePackets_eq, List.flatMap_map]
  simp only [payload_download (length_piece_le hmax _)]
  exact ChunkPlan.flatMap_piece rfl

/-! ## The whole transfer -/

theorem delivered_of_download (hprogress : ∀ x, (progress x).Only (Spares channel)) {next : UInt16}
    (hf : (download channel config heedsStop image progress).Finishes h (.ok next)) :
    Delivered (imagePackets config image) (wire channel h) ∧ .download next [] = endPacket config image := by
  unfold download at hf
  split at hf
  · simp at hf
  obtain ⟨hw, rfl⟩ := delivered_of_sendChunks hprogress hf
  exact ⟨hw, by simp [endPacket, ChunkPlan.chunks, ChunkPlan.take]⟩

theorem lockstep_of_download (hprogress : ∀ x, (progress x).Only (Spares channel))
    (hb : (download channel config heedsStop image progress).Begins h) :
    Lockstep (imagePackets config image) (wire channel h) := by
  unfold download at hb
  split at hb
  · simp only [Attempt.throw_bind, Attempt.begins_throw] at hb
    subst hb
    exact .quiet (by simp)
  · exact lockstep_of_sendChunks hprogress hb

theorem wire_of_finish_ok (hprogress : ∀ x, (progress x).Only (Spares channel))
    (hf : (finish channel config progress transaction).Finishes h (.ok ())) :
    ∃ reply, wire channel h = [⟨.download transaction [], some (.ok reply)⟩] := by
  simp only [finish, Attempt.finishes_bind_ok, Attempt.finishes_lift_ok, finishes_send_ok, finishes_tell] at hf
  obtain ⟨u, h₁, h₂, rfl, ⟨reply, rfl⟩, u', h₃, h₄, rfl, rfl, hprog⟩ := hf
  have hw₄ : wire channel h₄ = [] := wire_eq_nil_of_spares (hprogress _) hprog.begins
  exact ⟨reply, by simp [hw₄]⟩

theorem wire_of_begins_finish (hprogress : ∀ x, (progress x).Only (Spares channel))
    (hb : (finish channel config progress transaction).Begins h) :
    wire channel h = [] ∨ ∃ reply?, wire channel h = [⟨.download transaction [], reply?⟩] := by
  simp only [finish, Attempt.begins_bind, begins_send, Attempt.begins_lift, finishes_send_ok,
    Attempt.finishes_lift_ok, begins_tell, finishes_tell] at hb
  rcases hb with (rfl | ⟨reply?, rfl⟩) | ⟨u, h₁, h₂, rfl, ⟨reply, rfl⟩, (rfl | ⟨a?, rfl⟩) |
    ⟨u', h₃, h₄, rfl, rfl, hb⟩⟩
  · exact .inl rfl
  · exact .inr ⟨reply?, by simp⟩
  · exact .inr ⟨some (.ok reply), by simp⟩
  · exact .inr ⟨some (.ok reply), by simp⟩
  · have hw₄ : wire channel h₄ = [] := wire_eq_nil_of_spares (hprogress _) hb
    exact .inr ⟨some (.ok reply), by simp [hw₄]⟩

theorem manifestVerdict_eq_ok {status result : DeviceStatus} :
    manifestVerdict status = .ok result ↔ result = status ∧ status.code = .ok ∧
    status.state = .manifestWaitReset := by
  unfold manifestVerdict DeviceStatus.isOk
  by_cases hcode : status.code = .ok
  · by_cases hstate : status.state = .manifestWaitReset
    · simp only [hcode, hstate]
      exact ⟨fun h => ⟨(Except.ok.inj h).symm, trivial, trivial⟩, fun h => h.1 ▸ rfl⟩
    · simp [hcode, hstate]
  · simp [hcode]

theorem wire_of_manifest_ok {status : DeviceStatus} (hf : (manifest channel config).Finishes h (.ok status)) :
    ∃ polls x, wire channel h = polls ++ [x] ∧ (∀ y ∈ polls, y.LeavesOpen (manifestWait config).accepted) ∧
      x.Reports status ∧ status.state = .manifestWaitReset ∧ status.code = .ok := by
  simp only [manifest, Attempt.finishes_bind_ok, Attempt.finishes_lift_ok, finishes_report, Attempt.finishes_of_ok,
    Attempt.finishes_decided] at hf
  obtain ⟨u, h₁, h₂, rfl, rfl, seen, h₃, h₄, rfl, hwait, rfl, hverdict⟩ := hf
  obtain ⟨rfl, hcode, hstate⟩ := manifestVerdict_eq_ok.mp hverdict.symm
  obtain ⟨polls, x, hwire, hpolls, hx, -⟩ := Wait.finishes_run_ok hwait
  exact ⟨polls, x, by simpa using hwire, hpolls, hx, hstate, hcode⟩

theorem wire_of_begins_manifest (hb : (manifest channel config).Begins h) :
    ∀ x ∈ wire channel h, !x.isDownload := by
  simp only [manifest, Attempt.begins_bind, Attempt.begins_lift, begins_tell, report, Attempt.finishes_lift_ok,
    finishes_tell, Attempt.begins_of, Attempt.finishes_of_ok, Attempt.begins_decided] at hb
  rcases hb with (rfl | ⟨a?, rfl⟩) | ⟨u, h₁, h₂, rfl, rfl, hb | ⟨status, h₃, h₄, rfl, hf, rfl⟩⟩
  · simp
  · simp
  · simpa using Wait.not_isDownload_of_begins hb
  · simpa using Wait.not_isDownload_of_begins hf.begins

/-- What a transfer has on the wire: its chunks in lockstep, or all of them delivered and then
the end of the image. -/
theorem wire_of_begins_transfer (hprogress : ∀ x, (progress x).Only (Spares channel))
    (hb : (transfer channel config heedsStop image progress).Begins h) :
    Lockstep (imagePackets config image) (wire channel h) ∨ ∃ w reply? rest,
      wire channel h = w ++ ⟨endPacket config image, reply?⟩ :: rest ∧ Delivered (imagePackets config image) w ∧
        ∀ x ∈ rest, !x.isDownload := by
  simp only [transfer, Attempt.begins_bind, Attempt.begins_discard] at hb
  rcases hb with hb | ⟨next, h₁, h₂, rfl, hdown, hb⟩
  · exact .inl (lockstep_of_download hprogress hb)
  obtain ⟨hw₁, hend⟩ := delivered_of_download hprogress hdown
  rcases hb with hb | ⟨u, h₃, h₄, rfl, hfin, hb⟩
  · rcases wire_of_begins_finish hprogress hb with hw | ⟨reply?, hw⟩
    · refine .inl ?_
      have hnone : Lockstep [] [] := .quiet (by simp)
      simpa [hw] using hw₁.append_lockstep hnone
    · exact .inr ⟨_, reply?, [], by rw [wire_append, hw, hend], hw₁, by simp⟩
  · obtain ⟨reply, hw⟩ := wire_of_finish_ok hprogress hfin
    exact .inr ⟨_, some (.ok reply), wire channel h₄, by simp [hw, hend], hw₁, wire_of_begins_manifest hb⟩

/-- What a transfer that ended well had on the wire. -/
theorem wire_of_transfer_ok (hprogress : ∀ x, (progress x).Only (Spares channel))
    (hf : (transfer channel config heedsStop image progress).Finishes h (.ok ())) :
    ∃ w reply polls last status, wire channel h = w ++ ⟨endPacket config image, some (.ok reply)⟩ :: polls ++
      [last] ∧
      Delivered (imagePackets config image) w ∧ (∀ y ∈ polls, y.LeavesOpen (manifestWait config).accepted) ∧
      last.Reports status ∧ status.state = .manifestWaitReset ∧ status.code = .ok := by
  simp only [transfer, Attempt.finishes_bind_ok, Attempt.finishes_discard_ok] at hf
  obtain ⟨next, h₁, h₂, rfl, hdown, u, h₃, h₄, rfl, hfin, status, hman⟩ := hf
  obtain ⟨hw₁, hend⟩ := delivered_of_download hprogress hdown
  obtain ⟨reply, hw₃⟩ := wire_of_finish_ok hprogress hfin
  obtain ⟨polls, last, hw₄, hpolls, hlast, hstate, hcode⟩ := wire_of_manifest_ok hman
  exact ⟨_, reply, polls, last, status, by simp [hw₃, hw₄, hend], hw₁, hpolls, hlast, hstate, hcode⟩

/-- A transfer that ended well sent every packet of the image and then the end. -/
theorem downloads_of_transfer_ok (hprogress : ∀ x, (progress x).Only (Spares channel))
    (hf : (transfer channel config heedsStop image progress).Finishes h (.ok ())) :
    downloads (wire channel h) = imagePackets config image ++ [endPacket config image] := by
  obtain ⟨w, reply, polls, last, status, hwire, hw, hpolls, hlast, -, -⟩ := wire_of_transfer_ok hprogress hf
  have hquiet : ∀ x ∈ polls ++ [last], !x.isDownload := by
    simp only [List.mem_append, List.mem_singleton]
    rintro x (hx | rfl)
    · simp [Exchange.not_isDownload_of_getStatus (hpolls x hx).1]
    · simp [Exchange.not_isDownload_of_getStatus hlast.1]
  have hend : (⟨endPacket config image, some (.ok reply)⟩ : Exchange).isDownload :=
    Exchange.isDownload_iff.mpr isDownload_endPacket
  rw [hwire, List.append_assoc, List.cons_append, downloads_append, downloads_cons hend, downloads_eq_nil hquiet,
    hw.downloads_eq isDownload_of_mem_imagePackets]

theorem lockstep_of_transfer (hprogress : ∀ x, (progress x).Only (Spares channel))
    (hb : (transfer channel config heedsStop image progress).Begins h) :
    Lockstep (imagePackets config image ++ [endPacket config image]) (wire channel h) := by
  rcases wire_of_begins_transfer hprogress hb with hw | ⟨w, reply?, rest, hwire, hw, hrest⟩
  · exact hw.mono
  · rw [hwire]
    exact hw.append_lockstep (.sent hrest)

/-- When the end of the image is sent, every chunk has been delivered. -/
theorem delivered_of_end (hprogress : ∀ x, (progress x).Only (Spares channel))
    (hmax : config.maxChunk ≤ ControlPacket.maxChunk)
    (hb : (transfer channel config heedsStop image progress).Begins h) {before rest : List Exchange} {x : Exchange}
    (heq : wire channel h = before ++ x :: rest) (hx : x.isDownload) (hempty : x.packet.payload = []) :
    Delivered (imagePackets config image) before := by
  have hnot : x.packet ∉ imagePackets config image := fun hmem =>
    payload_ne_nil_of_mem_imagePackets hmax _ hmem hempty
  rcases wire_of_begins_transfer hprogress hb with hw | ⟨w, reply?, quiet, hwire, hw, hquiet⟩
  · have hmem : x.packet ∈ downloads (wire channel h) := mem_downloads (by simp [heq]) hx
    exact absurd ((hw.downloads_prefix isDownload_of_mem_imagePackets).subset hmem) hnot
  · rw [hwire] at heq
    rcases List.append_eq_append_iff.mp heq with ⟨left, rfl, hleft⟩ | ⟨left, rfl, hleft⟩
    · cases left with
      | nil => simpa using hw
      | cons y left =>
        have hmem : x ∈ quiet := by
          rw [List.cons_append, List.cons.injEq] at hleft
          simp [hleft.2]
        have := hquiet x hmem
        simp [hx] at this
    · cases left with
      | nil => simpa using hw
      | cons y left =>
        have hmem : x ∈ before ++ y :: left := by
          rw [List.cons_append, List.cons.injEq] at hleft
          simp [hleft.1]
        have := mem_downloads hmem hx
        rw [hw.downloads_eq isDownload_of_mem_imagePackets] at this
        exact absurd this hnot

/-- Whatever the channel answers, whenever a stop is requested and whatever the clock shows: the downloads of a
transfer are first packets of the image's chunks and the empty packet after them, numbered modulo `2 ^ 16`; each
is sent only after the one before it is acknowledged; and a transfer that ends well has sent all of them.  The
channel is the transfer's own while it lasts, so `progress` makes no transfer on it. -/
theorem transfer_is_stop_and_wait {σ : Type} (env : Environment (cameras.sum host) σ) (s : σ)
    (channel : ControlChannel) (config : TransferConfig) (hmax : config.maxChunk ≤ ControlPacket.maxChunk)
    (heedsStop : Bool) (image : Bytes) (progress : Single → Action Unit)
    (hprogress : ∀ x, (progress x).Only (Spares channel)) :
    let m := max config.maxChunk 1
    let n := (image.length + m - 1) / m
    let plan : ChunkPlan := ⟨image.length, config.maxChunk⟩
    let program := (transfer channel config heedsStop image progress).run
    let w := wire channel (program.history env s)
    (downloads w).map (fun p => (p.value.toNat, p.payload)) <+:
        (List.range n).map (fun k => (k % 2 ^ 16, image.extract (k * m) (min image.length ((k + 1) * m)))) ++
          [(n % 2 ^ 16, [])] ∧
      plan.chunks.map (fun c => (c.transaction.toNat, image.extract c.offset (c.offset + c.length))) =
        (List.range n).map (fun k => (k % 2 ^ 16, image.extract (k * m) (min image.length ((k + 1) * m)))) ∧
      EachAcknowledged w ∧
      (∀ before x rest, w = before ++ x :: rest → x.isDownload → x.packet.payload = [] →
        (downloads before).length = n ∧
          ∀ earlier y later, before = earlier ++ y :: later → y.isDownload → ∃ z ∈ later, z.Acknowledges) ∧
      ((program.run env s).1 = .finished (.ok ()) →
        (downloads w).flatMap (·.payload) = image ∧ (downloads w).length = n + 1) := by
  intro m n plan program w
  have hb : (transfer channel config heedsStop image progress).Begins (program.history env s) :=
    begins_history env program s
  have hlock : Lockstep (imagePackets config image ++ [endPacket config image]) w :=
    lockstep_of_transfer hprogress hb
  have hdownloads : ∀ p ∈ imagePackets config image ++ [endPacket config image], p.IsDownload := by
    simp only [List.mem_append, List.mem_singleton]
    rintro p (hp | rfl)
    exacts [isDownload_of_mem_imagePackets p hp, isDownload_endPacket]
  have hpieces : ∀ k ∈ List.range n, image.extract (k * m) (min image.length ((k + 1) * m)) = plan.piece image k :=
    fun k hk => (ChunkPlan.piece_eq_extract (show k < plan.count from List.mem_range.mp hk)).symm
  have hnumbered :
      (List.range n).map (fun k => (k % 2 ^ 16, image.extract (k * m) (min image.length ((k + 1) * m)))) =
      (List.range n).map fun k => (k % 2 ^ 16, plan.piece image k) :=
    List.map_congr_left fun k hk => by rw [hpieces k hk]
  rw [hnumbered]
  refine ⟨?_, ?_, hlock.eachAcknowledged, ?_, ?_⟩
  · have := (hlock.downloads_prefix hdownloads).map fun p => (p.value.toNat, p.payload)
    rwa [List.map_append, numbered_imagePackets hmax] at this
  · rw [ChunkPlan.chunks_eq, List.map_map]
    exact List.map_congr_left fun k _ => by rw [Function.comp_apply, ← ChunkPlan.piece_eq_extract_chunk]; rfl
  · intro before x rest heq hx hempty
    have hbefore := delivered_of_end hprogress hmax hb heq hx hempty
    refine ⟨?_, fun earlier y later hsplit hy => hbefore.acknowledged hsplit hy⟩
    rw [hbefore.downloads_eq isDownload_of_mem_imagePackets, imagePackets_eq, List.length_map, List.length_range]
    rfl
  · intro hrun
    have hall := downloads_of_transfer_ok hprogress (finishes_history hrun)
    rw [hall]
    refine ⟨?_, ?_⟩
    · rw [List.flatMap_append, flatMap_payload_imagePackets hmax]
      exact List.append_nil image
    · rw [List.length_append, imagePackets_eq, List.length_map, List.length_range]
      rfl

/-- A transfer of three bytes, two to a packet, to a loader that takes them. -/
theorem transfer_is_stop_and_wait_obliging :
    let o : Obliging := { camera := ⟨1, ⟨.d400, .recovery⟩, "unit"⟩ }
    let program := (transfer ⟨0⟩ { maxChunk := 2 } true [1, 2, 3] fun x => tell (.progress x)).run
    (program.run Obliging.world o).1 = .finished (.ok ()) ∧
      (downloads (wire ⟨0⟩ (program.history Obliging.world o))).flatMap (·.payload) = [1, 2, 3] ∧
      (downloads (wire ⟨0⟩ (program.history Obliging.world o))).length = 3 := by
  intro o program
  have hrun : (program.run Obliging.world o).1 = .finished (.ok ()) := by decide +kernel
  have h := transfer_is_stop_and_wait Obliging.world o ⟨0⟩ { maxChunk := 2 } (by decide) true [1, 2, 3]
    (fun x => tell (.progress x)) fun x => only_tell.mpr fun packet timeout => nofun
  exact ⟨hrun, h.2.2.2.2 hrun⟩

end Dfu

end Reflash
