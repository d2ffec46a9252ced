import Reflash.Proofs.Dfu.StopAndWait
import Reflash.Proofs.Stops

/-!
# Reflash.Proofs.Dfu.Rounds — a download, chunk by chunk

A round of a download looks for a request to stop, sends one chunk and waits for its acknowledgement.  A
download that comes to a call is in some round, and the rounds before it delivered their chunks
(`comesTo_sendChunks`).  So a request is found between two chunks only (`comesTo_stop_sendChunk`), an ABORT is
sent where one was found (`comesTo_abort_sendChunk`), and a chunk that was taken is waited for
(`comesTo_download_sendChunk`).
-/

namespace Reflash

open Program

/-- A control transfer with a DFU request, on whatever channel. -/
def Requests (request : DfuRequest) (c : (cameras.sum host).Call) : Prop :=
  ∃ channel packet timeout, c = .inl (.transfer channel packet timeout) ∧ packet.request = request.code

section Requests

variable {request request' : DfuRequest} {c : (cameras.sum host).Call}

@[simp] theorem requests_transfer {channel : ControlChannel} {packet : ControlPacket} {timeout : Nanos} :
    Requests request (.inl (.transfer channel packet timeout) : CameraCall ⊕ HostCall) ↔
      packet.request = request.code := by
  constructor
  · rintro ⟨_, _, _, heq, hpacket⟩
    cases heq
    exact hpacket
  · exact fun hpacket => ⟨channel, packet, timeout, rfl, hpacket⟩

theorem Requests.kindOf_eq (hc : Requests request c) : kindOf c = .transfer := by
  obtain ⟨channel, packet, timeout, rfl, -⟩ := hc
  rfl

theorem not_requests_of_ne (hc : kindOf c ≠ .transfer) : ¬ Requests request c := fun hreq => hc hreq.kindOf_eq

theorem not_requests_of_ofKinds {kinds : List CallKind} (hc : ofKinds kinds c) (hkinds : .transfer ∉ kinds) :
    ¬ Requests request c := fun hreq => hkinds (hreq.kindOf_eq ▸ hc)

end Requests

namespace Dfu

variable (channel : ControlChannel) (config : TransferConfig)

/-- One round of a download; `x` is the fraction that is sent after it. -/
def sendChunk (heedsStop : Bool) (progress : Single → Action Unit) (x : Single) (transaction : UInt16)
    (payload : Bytes) :
    Attempt TransferError Unit := do
  if ← shouldStop heedsStop then
    abort channel config
    throw .stopped
  send channel config transaction payload
  progress x
  awaitChunk channel config transaction

theorem sendChunks_cons (heedsStop : Bool) (progress : Single → Action Unit) (total : Nat) (chunk : Chunk)
    (chunks : List Chunk) (image : Bytes) (sent : Nat) (transaction : UInt16) :
    sendChunks channel config heedsStop progress total (chunk :: chunks) image sent transaction = (do
      sendChunk channel config heedsStop progress (Single.quotient (sent + chunk.length) total) transaction
        (image.take chunk.length)
      sendChunks channel config heedsStop progress total chunks (image.drop chunk.length) (sent + chunk.length)
        (transaction + 1)) := by
  simp only [sendChunks, sendChunk, LawfulMonad.bind_assoc]
  congr
  funext stop
  cases stop <;> simp [LawfulMonad.bind_assoc]

variable {channel config} {heedsStop : Bool} {progress : Single → Action Unit} {total sent : Nat}
  {chunks : List Chunk} {image payload : Bytes} {transaction : UInt16} {x : Single} {h : History}

/-! ## The parts of a round -/

theorem run_send_bind {α : Type} (f : Unit → Attempt TransferError α) :
    (send channel config transaction payload >>= f).run =
      .call (.inl (.transfer channel (.download transaction payload) config.requestTimeout)) fun
        | .ok _ => (f ()).run
        | .error e => .done (.error (.link e)) := by
  show Program.call _ _ = _
  congr
  funext reply
  cases reply <;> rfl

theorem run_abort_bind {α : Type} (f : Unit → Action α) : (abort channel config).bind f =
    .call (.inl (.transfer channel .abort config.requestTimeout)) fun
      | .ok _ => f ()
      | .error e => (report .warn ("DFU abort failed: " ++ e.message)).bind f := by
  show Program.call _ _ = _
  congr
  funext reply
  cases reply <;> rfl

/-- A round that heeds requests looks first, and then gives up or sends its chunk. -/
theorem run_sendChunk : (sendChunk channel config true progress x transaction payload).run =
    (tell .stopRequested).bind fun stop =>
      if stop then (abort channel config).bind fun _ => .done (.error .stopped)
      else (send channel config transaction payload >>= fun _ => do
        progress x
        awaitChunk channel config transaction).run := by
  show Program.bind (Program.bind (tell .stopRequested) _) _ = _
  rw [Program.bind_assoc]
  congr
  funext stop
  cases stop with
  | false => rfl
  | true =>
    show Program.bind (Program.bind (abort channel config) _) _ = _
    rw [Program.bind_assoc]
    rfl

theorem delivered_of_sendChunk (hprogress : ∀ x, (progress x).Only (Spares channel))
    (hf : (sendChunk channel config heedsStop progress x transaction payload).Finishes h (.ok ())) :
    Delivered [.download transaction payload] (wire channel h) := by
  simp only [sendChunk, Attempt.finishes_bind_ok, Attempt.finishes_lift_ok] at hf
  obtain ⟨stop, h₁, h₂, rfl, hstop, hf⟩ := hf
  have hw₁ : wire channel h₁ = [] :=
    wire_eq_nil_of_only (only_shouldStop (P := ofKinds [.stop]) (by simp)) (by decide) hstop.begins
  split at hf
  · simp at hf
  simp only [Attempt.finishes_bind_ok, Attempt.finishes_lift_ok, finishes_send_ok] at hf
  obtain ⟨u, h₃, h₄, rfl, ⟨reply, rfl⟩, u', h₅, h₆, rfl, hprog, hwait⟩ := hf
  have := delivered_chunk payload reply hprogress hprog hwait
  simpa [hw₁] using this

theorem only_abort_of {P : (cameras.sum host).Call → Prop}
    (habort : P (.inl (.transfer channel .abort config.requestTimeout))) (hlog : ∀ r, P (.inr (.log r))) :
    (abort channel config).Only P := by
  refine only_bind (only_ask.mpr habort) fun reply => ?_
  split
  · trivial
  · exact only_report.mpr (hlog _)

theorem stallsAfter_abort {P : (cameras.sum host).Call → Prop} : (abort channel config).StallsAfter P := by
  refine stallsAfter_bind (stallsAfter_ask _) fun reply => ?_
  split
  · trivial
  · exact stallsAfter_report _ _

theorem only_awaitChunk_of {P : (cameras.sum host).Call → Prop}
    (hquery : P (.inl (.transfer channel .getStatus config.requestTimeout)))
    (hquiet : ∀ c, ofKinds [.clock, .log] c → P c) :
    Attempt.Only P (awaitChunk channel config transaction) := by
  refine Attempt.only_bind (Attempt.only_of ?_) fun _ => Attempt.only_decided _
  refine (Wait.only_run_of_deaf (w := chunkWait config) rfl).mono fun c hc => ?_
  rcases hc with rfl | hc
  · exact hquery
  · exact hquiet c hc

/-- What a round does once it has not found a request. -/
theorem only_sendOn {P : (cameras.sum host).Call → Prop}
    (hsend : P (.inl (.transfer channel (.download transaction payload) config.requestTimeout)))
    (hquery : P (.inl (.transfer channel .getStatus config.requestTimeout)))
    (hquiet : ∀ c, ofKinds [.clock, .log] c → P c) (hprogress : (progress x).Only P) :
    Attempt.Only P (send channel config transaction payload >>= fun _ => do
      progress x
      awaitChunk channel config transaction) := by
  refine Attempt.only_bind (Attempt.only_discard (Attempt.only_of (only_ask.mpr hsend))) fun _ => ?_
  exact Attempt.only_bind (Attempt.only_lift hprogress) fun _ => only_awaitChunk_of hquery hquiet

/-! ## What a round comes to -/

/-- A request to stop is found before the chunk is sent, and then the download is given up. -/
theorem comesTo_stop_sendChunk (hprogress : (progress x).Only fun c => kindOf c ≠ .stop)
    {next : Bool → Action (Except TransferError Unit)}
    (hc : (sendChunk channel config true progress x transaction payload).run.ComesTo h
      (.inr .stopRequested) next) :
    h = [] ∧ next true = (abort channel config).bind fun _ => .done (.error .stopped) := by
  rw [run_sendChunk] at hc
  rcases comesTo_look hc with ⟨rfl, rfl⟩ | ⟨stop, h', rfl, hrest⟩
  · exact ⟨rfl, rfl⟩
  · cases stop with
    | true =>
      have honly : (abort channel config).Only fun c => kindOf c ≠ .stop := only_abort_of (by simp) (by simp)
      exact absurd rfl (hrest.only (only_bind honly fun _ => trivial))
    | false =>
      have hquiet : ∀ c, ofKinds [.clock, .log] c → kindOf c ≠ .stop := by
        rintro c hc hstop
        rw [ofKinds, hstop] at hc
        simp at hc
      exact absurd rfl (hrest.only (only_sendOn (by simp) (by simp) hquiet hprogress))

/-- An ABORT is sent where a request to stop was found. -/
theorem comesTo_abort_sendChunk {c : (cameras.sum host).Call}
    {next : (cameras.sum host).Answer c → Action (Except TransferError Unit)} (habort : Requests .abort c)
    (hprogress : (progress x).Only fun c => kindOf c ≠ .transfer)
    (hc : (sendChunk channel config true progress x transaction payload).run.ComesTo h c next) :
    h = [.looked true] := by
  have hne : c ≠ .inr .stopRequested := by
    rintro rfl
    cases habort.kindOf_eq
  rw [run_sendChunk] at hc
  obtain ⟨stop, h', rfl, hrest⟩ := comesTo_after_look hc hne
  cases stop with
  | true =>
    rw [if_pos rfl, run_abort_bind] at hrest
    cases hrest with
    | here => rfl
    | @later _ _ _ _ reply _ hrest =>
      exfalso
      cases reply with
      | ok p => exact not_comesTo_done hrest
      | error e =>
        have hlog : (report .warn ("DFU abort failed: " ++ e.message)).Only (ofKinds [.log]) :=
          only_report.mpr (by simp)
        exact not_requests_of_ofKinds (hrest.only (only_bind hlog fun _ => trivial)) (by simp) habort
  | false =>
    refine absurd habort (hrest.only (only_sendOn (P := fun c => ¬ Requests .abort c) ?_ ?_ (fun c hc => ?_) ?_))
    · rw [requests_transfer]
      exact (by decide : DfuRequest.download.code ≠ DfuRequest.abort.code)
    · rw [requests_transfer]
      exact (by decide : DfuRequest.getStatus.code ≠ DfuRequest.abort.code)
    · exact not_requests_of_ofKinds hc (by simp)
    · exact hprogress.mono fun c hc => not_requests_of_ne hc

/-- A round sends one download, and waits for its acknowledgement once the channel has taken it. -/
theorem comesTo_download_sendChunk {ch : ControlChannel} {packet : ControlPacket} {timeout : Nanos}
    {next : Except LinkError ControlPacket → Action (Except TransferError Unit)} (hpacket : packet.IsDownload)
    (hprogress : (progress x).Only fun c => kindOf c ≠ .transfer)
    (hc : (sendChunk channel config true progress x transaction payload).run.ComesTo h
      (.inl (.transfer ch packet timeout)) next) :
    h = [.looked false] ∧ ch = channel ∧ packet = .download transaction payload ∧
      ∀ reply, next (.ok reply) = (progress x).bind fun _ => (awaitChunk channel config transaction).run := by
  have hdownload : Requests .download (.inl (.transfer ch packet timeout) : CameraCall ⊕ HostCall) :=
    requests_transfer.mpr hpacket
  rw [run_sendChunk] at hc
  obtain ⟨stop, h', rfl, hrest⟩ := comesTo_after_look hc nofun
  cases stop with
  | true =>
    have honly : (abort channel config).Only fun c => ¬ Requests .download c := by
      refine only_abort_of ?_ fun r => not_requests_of_ne (by simp)
      rw [requests_transfer]
      exact (by decide : DfuRequest.abort.code ≠ DfuRequest.download.code)
    exact absurd hdownload (hrest.only (only_bind honly fun _ => trivial))
  | false =>
    rw [if_neg (by simp), run_send_bind] at hrest
    cases hrest with
    | here => exact ⟨rfl, rfl, rfl, fun reply => Attempt.run_lift_bind _ _⟩
    | @later _ _ _ _ reply _ hrest =>
      exfalso
      cases reply with
      | error e => exact not_comesTo_done hrest
      | ok p =>
        have hwait : Attempt.Only (fun c => ¬ Requests .download c) (do
            progress x
            awaitChunk channel config transaction) := by
          refine Attempt.only_bind (Attempt.only_lift (hprogress.mono fun c hc => not_requests_of_ne hc))
            fun _ => ?_
          refine only_awaitChunk_of ?_ fun c hc => not_requests_of_ofKinds hc (by simp)
          rw [requests_transfer]
          exact (by decide : DfuRequest.getStatus.code ≠ DfuRequest.download.code)
        exact absurd hdownload (ComesTo.only hrest hwait)

/-! ## The rounds of a download -/

/-- A download that comes to a call is in the round of some chunk, has delivered the chunks before it, and goes
on with the chunks after it. -/
theorem comesTo_sendChunks {c : (cameras.sum host).Call}
    {next : (cameras.sum host).Answer c → Action (Except TransferError UInt16)}
    (hprogress : ∀ x, (progress x).Only (Spares channel)) (hlog : kindOf c ≠ .log)
    (hc : (sendChunks channel config heedsStop progress total chunks image sent transaction).run.ComesTo h c
      next) :
    ∃ k x transaction' payload h₁ h₂ next' image' sent', h = h₁ ++ h₂ ∧
      (packets chunks image transaction)[k]? = some (.download transaction' payload) ∧
      Delivered ((packets chunks image transaction).take k) (wire channel h₁) ∧
      (sendChunk channel config heedsStop progress x transaction' payload).run.ComesTo h₂ c next' ∧
      next = fun answer => (next' answer).bind (Attempt.andThen fun _ =>
        sendChunks channel config heedsStop progress total (chunks.drop (k + 1)) image' sent'
          (transaction + UInt16.ofNat (k + 1))) := by
  induction chunks generalizing image sent transaction h with
  | nil =>
    have hend : Attempt.Only (ofKinds [.log])
        (sendChunks channel config heedsStop progress total [] image sent transaction) :=
      Attempt.only_bind (Attempt.only_lift (only_report.mpr (by simp))) fun _ => Attempt.only_pure _
    exact absurd (hc.only hend) (by simpa using hlog)
  | cons chunk chunks ih =>
    rw [sendChunks_cons] at hc
    rcases Attempt.comesTo_bind.mp hc with ⟨next', hc', rfl⟩ | ⟨u, h₁, h₂, rfl, hf, hc'⟩
    · exact ⟨0, _, transaction, image.take chunk.length, [], h, next', _, _, rfl, rfl, .nil, hc', rfl⟩
    · obtain ⟨k, x, transaction', payload, h₃, h₄, next', image', sent', rfl, hk, hdelivered, hround, hnext⟩ :=
        ih hc'
      have hnumber : transaction + UInt16.ofNat (k + 1 + 1) = transaction + 1 + UInt16.ofNat (k + 1) := by
        rw [UInt16.ofNat_add (k + 1) 1, UInt16.add_comm (UInt16.ofNat (k + 1)), ← UInt16.add_assoc]
        rfl
      refine ⟨k + 1, x, transaction', payload, h₁ ++ h₃, h₄, next', image', sent', by simp, hk, ?_, hround, ?_⟩
      · rw [wire_append]
        exact (delivered_of_sendChunk hprogress hf).append hdelivered
      · rw [hnumber]
        exact hnext

theorem length_packets (chunks : List Chunk) (image : Bytes) (transaction : UInt16) :
    (packets chunks image transaction).length = chunks.length := by
  induction chunks generalizing image transaction with
  | nil => rfl
  | cons chunk chunks ih => rw [packets, List.length_cons, List.length_cons, ih]

/-- What is left of a download after the round of chunk `k`; nothing but a note where it was the last one. -/
def afterRound (channel : ControlChannel) (config : TransferConfig) (image : Bytes)
    (progress : Single → Action Unit) (k : Nat) (image' : Bytes) (sent : Nat) : Attempt TransferError UInt16 :=
  sendChunks channel config true progress image.length
    ((⟨image.length, config.maxChunk⟩ : ChunkPlan).chunks.drop (k + 1)) image' sent (UInt16.ofNat (k + 1))

/-- After the round of the last chunk only the end of the image is left to send. -/
theorem afterRound_last {k sent : Nat} {image' : Bytes} (hk : k + 1 = (imagePackets config image).length) :
    ∃ text transaction, afterRound channel config image progress k image' sent = (do
      report .info text
      return transaction) ∧ .download transaction [] = endPacket config image := by
  have hcount : k + 1 = (⟨image.length, config.maxChunk⟩ : ChunkPlan).count := by
    rw [hk, imagePackets, length_packets, ChunkPlan.length_chunks]
  have hnil : (⟨image.length, config.maxChunk⟩ : ChunkPlan).chunks.drop (k + 1) = [] := by
    rw [hcount, ← ChunkPlan.length_chunks]
    exact List.drop_length
  refine ⟨"sent " ++ Text.decimal sent ++ " bytes in " ++ Text.decimal (UInt16.ofNat (k + 1)).toNat ++
    " transactions", UInt16.ofNat (k + 1), ?_, ?_⟩
  · rw [afterRound, hnil]
    rfl
  · rw [endPacket, hcount]

theorem comesTo_download {c : (cameras.sum host).Call}
    {next : (cameras.sum host).Answer c → Action (Except TransferError UInt16)}
    (hprogress : ∀ x, (progress x).Only (Spares channel)) (hlog : kindOf c ≠ .log)
    (hc : (download channel config true image progress).run.ComesTo h c next) :
    ∃ k x transaction payload h₁ h₂ next' image' sent, h = h₁ ++ h₂ ∧
      (imagePackets config image)[k]? = some (.download transaction payload) ∧
      Delivered ((imagePackets config image).take k) (wire channel h₁) ∧
      (sendChunk channel config true progress x transaction payload).run.ComesTo h₂ c next' ∧
      next = fun answer =>
        (next' answer).bind (Attempt.andThen fun _ => afterRound channel config image progress k image' sent) := by
  unfold download at hc
  split at hc
  · exact absurd hc not_comesTo_done
  · obtain ⟨k, x, transaction, payload, h₁, h₂, next', image', sent, rfl, hk, hdelivered, hround, rfl⟩ :=
      comesTo_sendChunks hprogress hlog hc
    refine ⟨k, x, transaction, payload, h₁, h₂, next', image', sent, rfl, hk, hdelivered, hround, ?_⟩
    rw [afterRound, UInt16.zero_add]

end Dfu

end Reflash
