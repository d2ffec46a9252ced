import Reflash.Proofs.Dfu.Polling
import Reflash.Proofs.Dfu.StatusReply
import Reflash.Proofs.Dfu.StopAndWait
import Reflash.Proofs.Session.Stopping

/-!
# Reflash.Proofs.Dfu.Verdict — the verdict of a transfer is the loader's

`Verdict channel config plan h r` reads the result of a transfer off its calls: each packet of the plan is taken
by the channel or refused, and what the wait after it hears acknowledges the packet or fails the transfer, in
the words of `ChunkFault`; after the last packet what is heard confirms the image or not (`ManifestFault`).  The
calls leave no choice (`Verdict.unique`), and a transfer that nobody stops ends as they say
(`verdict_of_transfer`).
-/

namespace Reflash

open Program

/-! ## Replies that cannot be read -/

/-- A status query that was answered by fewer than six bytes, or with a byte that names no state. -/
def Exchange.IsUnreadable (x : Exchange) : Prop :=
  x.packet = .getStatus ∧ ∃ p, x.reply? = some (.ok p) ∧
    (p.payload.length < 6 ∨ ∃ state, p.payload[4]? = some state ∧ 10 < state.toNat)

theorem DeviceStatus.state_decode_of_unreadable {reply : Bytes}
    (hreply : reply.length < 6 ∨ ∃ state, reply[4]? = some state ∧ 10 < state.toNat) :
    (decode reply).state = .error := by
  have hread := readFrom_decode reply
  by_cases hshort : reply.length < 6
  · exact hread.stateOfShort hshort
  · obtain ⟨state, hstate, hlarge⟩ := hreply.resolve_left hshort
    exact (hread.state (Nat.le_of_not_lt hshort) state hstate).2 (UInt8.lt_iff_toNat_lt.mpr hlarge)

/-- Such a reply counts as the error state. -/
theorem Exchange.IsUnreadable.reports {x : Exchange} (hx : x.IsUnreadable) :
    ∃ status, x.Reports status ∧ status.state = .error := by
  obtain ⟨hpacket, p, hreply, hbad⟩ := hx
  exact ⟨_, ⟨hpacket, p, hreply, rfl⟩, DeviceStatus.state_decode_of_unreadable hbad⟩

theorem Exchange.IsUnreadable.not_acknowledges {x : Exchange} (hx : x.IsUnreadable) : ¬ x.Acknowledges := by
  rintro ⟨status, hreports, hidle, -⟩
  obtain ⟨status', hreports', herror⟩ := hx.reports
  rw [hreports.unique hreports', herror] at hidle
  cases hidle

/-! ## Verdicts -/

/-- The transfer waited in vain. -/
def TransferError.isTimeout : TransferError → Bool
  | .chunkTimeout _ _ | .manifestTimeout _ => true
  | _ => false

/-- An image is refused for good that is empty or that the loader called corrupted. -/
theorem TransferError.isRetryable_eq_false {e : TransferError} : e.isRetryable = false ↔
    e = .emptyImage ∨ (∃ transaction, e = .corruptedImage transaction) ∨ e = .manifestStatus .file := by
  constructor
  · intro h
    cases e with
    | emptyImage => exact .inl rfl
    | corruptedImage transaction => exact .inr (.inl ⟨transaction, rfl⟩)
    | manifestStatus code =>
      cases code with
      | file => exact .inr (.inr rfl)
      | _ => cases h
    | _ => cases h
  · rintro (rfl | ⟨transaction, rfl⟩ | rfl) <;> rfl

namespace Dfu

/-- How what was heard after a packet fails the transfer. -/
inductive ChunkFault (transaction : UInt16) : Except WaitError DeviceStatus → TransferError → Prop
  | corrupted {status : DeviceStatus} : status.code = .file →
    ChunkFault transaction (.ok status) (.corruptedImage transaction)
  | device {status : DeviceStatus} : status.code ≠ .ok → status.code ≠ .file →
    ChunkFault transaction (.ok status) (.device status.code transaction)
  | errorState {status : DeviceStatus} : status.code = .ok → status.state = .error →
    ChunkFault transaction (.ok status) (.errorState transaction)
  | late {after : Nanos} {expected : List DfuState} {last : Option DeviceStatus} :
    ChunkFault transaction (.error (.timeout after expected last)) (.chunkTimeout transaction after)
  | link {e : LinkError} : ChunkFault transaction (.error (.link e)) (.link e)

/-- How what was heard after the end of the image fails the transfer. -/
inductive ManifestFault : Except WaitError DeviceStatus → TransferError → Prop
  | status {status : DeviceStatus} : status.code ≠ .ok → ManifestFault (.ok status) (.manifestStatus status.code)
  | errorState {status : DeviceStatus} : status.code = .ok → status.state = .error →
    ManifestFault (.ok status) .manifestErrorState
  | late {after : Nanos} {expected : List DfuState} {last : Option DeviceStatus} :
    ManifestFault (.error (.timeout after expected last)) (.manifestTimeout after)
  | link {e : LinkError} : ManifestFault (.error (.link e)) (.link e)

/-- The last of these calls sent a packet over the channel; the others made no transfer on it. -/
def Sent (channel : ControlChannel) (config : TransferConfig) (packet : ControlPacket)
    (reply : Except LinkError ControlPacket) (h : History) : Prop :=
  ∃ quiet, h = quiet ++ [.asked (.transfer channel packet config.requestTimeout) (some reply)] ∧
    wire channel quiet = []

/-- The last of these calls are a wait; those before it made no transfer on the channel. -/
def Waited (w : Wait) (channel : ControlChannel) (heard : Except WaitError DeviceStatus) (h : History) : Prop :=
  ∃ quiet start polls, h = quiet ++ .told .now (some start) :: polls ∧ wire channel quiet = [] ∧
    w.Hears channel start none polls heard

/-- What the calls of a transfer say about it, as long as these packets are left to send; the
last one ends the image. -/
inductive Verdict (channel : ControlChannel) (config : TransferConfig) :
    List ControlPacket → History → Except TransferError Unit → Prop
  | refused {packet : ControlPacket} (plan : List ControlPacket) {e : LinkError} {h quiet : History} :
    Sent channel config packet (.error e) h → wire channel quiet = [] →
    Verdict channel config (packet :: plan) (h ++ quiet) (.error (.link e))
  | failed {packet reply : ControlPacket} {plan : List ControlPacket} {heard : Except WaitError DeviceStatus}
      {e : TransferError} {h₁ h₂ quiet : History} : plan ≠ [] → Sent channel config packet (.ok reply) h₁ →
    Waited (chunkWait config) channel heard h₂ → ChunkFault packet.value heard e → wire channel quiet = [] →
    Verdict channel config (packet :: plan) (h₁ ++ (h₂ ++ quiet)) (.error e)
  | acknowledged {packet reply : ControlPacket} {plan : List ControlPacket} {status : DeviceStatus}
      {r : Except TransferError Unit} {h₁ h₂ h₃ : History} : plan ≠ [] →
      Sent channel config packet (.ok reply) h₁ →
    Waited (chunkWait config) channel (.ok status) h₂ → status.state = .downloadIdle → status.code = .ok →
    Verdict channel config plan h₃ r → Verdict channel config (packet :: plan) (h₁ ++ (h₂ ++ h₃)) r
  | unconfirmed {packet reply : ControlPacket} {heard : Except WaitError DeviceStatus} {e : TransferError}
      {h₁ h₂ quiet : History} : Sent channel config packet (.ok reply) h₁ →
    Waited (manifestWait config) channel heard h₂ → ManifestFault heard e → wire channel quiet = [] →
    Verdict channel config [packet] (h₁ ++ (h₂ ++ quiet)) (.error e)
  | confirmed {packet reply : ControlPacket} {status : DeviceStatus} {h₁ h₂ quiet : History} :
    Sent channel config packet (.ok reply) h₁ → Waited (manifestWait config) channel (.ok status) h₂ →
    status.state = .manifestWaitReset → status.code = .ok → wire channel quiet = [] →
    Verdict channel config [packet] (h₁ ++ (h₂ ++ quiet)) (.ok ())

/-- What the calls of a transfer say about an image: an empty one is refused without a call. -/
def ImageVerdict (channel : ControlChannel) (config : TransferConfig) (image : Bytes) (h : History)
    (r : Except TransferError Unit) : Prop :=
  image = [] ∧ h = [] ∧ r = .error .emptyImage ∨
    image ≠ [] ∧ Verdict channel config (imagePackets config image ++ [endPacket config image]) h r

variable {channel : ControlChannel} {config : TransferConfig} {packet packet' : ControlPacket}
  {plan : List ControlPacket} {reply reply' : Except LinkError ControlPacket} {w : Wait}
  {heard heard' : Except WaitError DeviceStatus} {transaction : UInt16} {e e' : TransferError}
  {r r' : Except TransferError Unit} {h h' h₁ h₂ t t' quiet : History}

/-! ## The calls leave no choice -/

theorem exchange?_eq_none (hq : wire channel quiet = []) : ∀ e ∈ quiet, exchange? channel e = none :=
  List.filterMap_eq_nil_iff.mp hq

theorem exchange?_transfer {timeout : Nanos} :
    ¬ exchange? channel (.asked (.transfer channel packet timeout) (some reply)) = none := by
  simp [exchange?]

theorem Sent.unique (hs : Sent channel config packet reply h) (hs' : Sent channel config packet' reply' h')
    (heq : h ++ t = h' ++ t') : packet = packet' ∧ reply = reply' ∧ t = t' := by
  obtain ⟨quiet, rfl, hq⟩ := hs
  obtain ⟨quiet', rfl, hq'⟩ := hs'
  rw [List.append_assoc, List.append_assoc] at heq
  obtain ⟨-, hcall, ht⟩ := append_cons_inj (exchange?_eq_none hq) (exchange?_eq_none hq') exchange?_transfer
    exchange?_transfer heq
  cases hcall
  exact ⟨rfl, rfl, ht⟩

theorem wire_append_now (hq : wire channel quiet = []) (start : Nanos) :
    wire channel (quiet ++ [.told .now (some start)]) = [] := by
  rw [wire_append, hq]
  rfl

/-- The wait began with the last look at the clock before its first query. -/
theorem Waited.unique (hdeaf : w.heedsStop = false) (hw : Waited w channel heard h)
    (hw' : Waited w channel heard' h') (heq : h ++ t = h' ++ t') : heard = heard' ∧ t = t' := by
  obtain ⟨quiet, start, polls, rfl, hq, hpolls⟩ := hw
  obtain ⟨quiet', start', polls', rfl, hq', hpolls'⟩ := hw'
  obtain ⟨reply, rest, hhead⟩ := hpolls.head hdeaf
  obtain ⟨reply', rest', hhead'⟩ := hpolls'.head hdeaf
  have hnow : (quiet ++ [.told .now (some start)]) ++ (polls ++ t) =
      (quiet' ++ [.told .now (some start')]) ++ (polls' ++ t') := by
    simpa using heq
  have hfirst := hnow
  rw [hhead, hhead', List.cons_append, List.cons_append] at hfirst
  obtain ⟨hbefore, -, -⟩ := append_cons_inj (exchange?_eq_none (wire_append_now hq start))
    (exchange?_eq_none (wire_append_now hq' start')) exchange?_transfer exchange?_transfer hfirst
  obtain ⟨-, hstart⟩ := List.append_inj' hbefore rfl
  cases hstart
  rw [hbefore] at hnow
  exact hpolls.unique hpolls' (List.append_cancel_left hnow)

theorem ChunkFault.unique (hf : ChunkFault transaction heard e) (hf' : ChunkFault transaction heard e') :
    e = e' := by
  cases hf <;> cases hf' <;> simp_all

theorem ChunkFault.not_acknowledged {status : DeviceStatus} (hf : ChunkFault transaction (.ok status) e)
    (hstate : status.state = .downloadIdle) (hcode : status.code = .ok) : False := by
  cases hf <;> simp_all

theorem ManifestFault.unique (hf : ManifestFault heard e) (hf' : ManifestFault heard e') : e = e' := by
  cases hf <;> cases hf' <;> simp_all

theorem ManifestFault.not_confirmed {status : DeviceStatus} (hf : ManifestFault (.ok status) e)
    (hstate : status.state = .manifestWaitReset) (hcode : status.code = .ok) : False := by
  cases hf <;> simp_all

/-- There is one verdict for the calls of a transfer. -/
theorem Verdict.unique (hv : Verdict channel config plan h r)
    (hv' : Verdict channel config plan h' r') (heq : h = h') :
    r = r' := by
  induction hv generalizing h' with
  | refused _ hs _ =>
    cases hv' with
    | refused _ hs' _ =>
      obtain ⟨-, hreply, -⟩ := hs.unique hs' heq
      cases hreply
      rfl
    | failed _ hs' | acknowledged _ hs' | unconfirmed hs' | confirmed hs' =>
      obtain ⟨-, hreply, -⟩ := hs.unique hs' heq
      cases hreply
  | failed hplan hs hw hfault _ =>
    cases hv' with
    | refused _ hs' _ =>
      obtain ⟨-, hreply, -⟩ := hs.unique hs' heq
      cases hreply
    | failed _ hs' hw' hfault' _ =>
      obtain ⟨-, -, hrest⟩ := hs.unique hs' heq
      obtain ⟨rfl, -⟩ := hw.unique rfl hw' hrest
      rw [hfault.unique hfault']
    | acknowledged _ hs' hw' hstate hcode _ =>
      obtain ⟨-, -, hrest⟩ := hs.unique hs' heq
      obtain ⟨rfl, -⟩ := hw.unique rfl hw' hrest
      exact (hfault.not_acknowledged hstate hcode).elim
    | unconfirmed | confirmed => exact absurd rfl hplan
  | acknowledged hplan hs hw hstate hcode _ ih =>
    cases hv' with
    | refused _ hs' _ =>
      obtain ⟨-, hreply, -⟩ := hs.unique hs' heq
      cases hreply
    | failed _ hs' hw' hfault' _ =>
      obtain ⟨-, -, hrest⟩ := hs.unique hs' heq
      obtain ⟨rfl, -⟩ := hw.unique rfl hw' hrest
      exact (hfault'.not_acknowledged hstate hcode).elim
    | acknowledged _ hs' hw' _ _ hv' =>
      obtain ⟨-, -, hrest⟩ := hs.unique hs' heq
      obtain ⟨-, hrest⟩ := hw.unique rfl hw' hrest
      exact ih hv' hrest
    | unconfirmed | confirmed => exact absurd rfl hplan
  | unconfirmed hs hw hfault _ =>
    cases hv' with
    | refused _ hs' _ =>
      obtain ⟨-, hreply, -⟩ := hs.unique hs' heq
      cases hreply
    | failed hplan | acknowledged hplan => exact absurd rfl hplan
    | unconfirmed hs' hw' hfault' _ =>
      obtain ⟨-, -, hrest⟩ := hs.unique hs' heq
      obtain ⟨rfl, -⟩ := hw.unique rfl hw' hrest
      rw [hfault.unique hfault']
    | confirmed hs' hw' hstate hcode _ =>
      obtain ⟨-, -, hrest⟩ := hs.unique hs' heq
      obtain ⟨rfl, -⟩ := hw.unique rfl hw' hrest
      exact (hfault.not_confirmed hstate hcode).elim
  | confirmed hs hw hstate hcode _ =>
    cases hv' with
    | refused _ hs' _ =>
      obtain ⟨-, hreply, -⟩ := hs.unique hs' heq
      cases hreply
    | failed hplan | acknowledged hplan => exact absurd rfl hplan
    | unconfirmed hs' hw' hfault' _ =>
      obtain ⟨-, -, hrest⟩ := hs.unique hs' heq
      obtain ⟨rfl, -⟩ := hw.unique rfl hw' hrest
      exact (hfault'.not_confirmed hstate hcode).elim
    | confirmed => rfl

theorem ImageVerdict.unique {image : Bytes} (hv : ImageVerdict channel config image h r)
    (hv' : ImageVerdict channel config image h r') : r = r' := by
  rcases hv with ⟨hempty, -, rfl⟩ | ⟨hne, hv⟩
  · rcases hv' with ⟨-, -, rfl⟩ | ⟨hne, -⟩
    · rfl
    · exact absurd hempty hne
  · rcases hv' with ⟨hempty, -⟩ | ⟨-, hv'⟩
    · exact absurd hempty hne
    · exact hv.unique hv' rfl

/-! ## Runs end as their calls say -/

section Runs

variable {payload : Bytes} {status : DeviceStatus} {heedsStop : Bool} {progress : Single → Action Unit}
  {total sent : Nat} {chunks : List Chunk} {image : Bytes} {next : UInt16} {last : ControlPacket}

theorem finishes_send_error :
    (send channel config transaction payload).Finishes h (.error e) ↔ ∃ cause : LinkError,
    h = [.asked (.transfer channel (.download transaction payload) config.requestTimeout) (some (.error cause))] ∧
      e = .link cause := by
  simp [send, -bind_pure_comp]

theorem sent_of_quiet (channel : ControlChannel) (config : TransferConfig) (packet : ControlPacket)
    (reply : Except LinkError ControlPacket) (hq : wire channel quiet = []) :
    Sent channel config packet reply (quiet ++
      [.asked (.transfer channel packet config.requestTimeout) (some reply)]) :=
  ⟨quiet, rfl, hq⟩

theorem Sent.after (hq : wire channel quiet = []) (hs : Sent channel config packet reply h) :
    Sent channel config packet reply (quiet ++ h) := by
  obtain ⟨quiet', rfl, hq'⟩ := hs
  exact ⟨quiet ++ quiet', by simp, by rw [wire_append, hq, hq', List.nil_append]⟩

theorem Waited.after (hq : wire channel quiet = []) (hw : Waited w channel heard h) :
    Waited w channel heard (quiet ++ h) := by
  obtain ⟨quiet', start, polls, rfl, hq', hpolls⟩ := hw
  exact ⟨quiet ++ quiet', start, polls, by simp, by rw [wire_append, hq, hq', List.nil_append], hpolls⟩

theorem Verdict.after (hq : wire channel quiet = []) (hv : Verdict channel config plan h r) :
    Verdict channel config plan (quiet ++ h) r := by
  cases hv with
  | refused plan hs hend =>
    rw [← List.append_assoc]
    exact .refused plan (hs.after hq) hend
  | failed hplan hs hw hfault hend =>
    rw [← List.append_assoc]
    exact .failed hplan (hs.after hq) hw hfault hend
  | acknowledged hplan hs hw hstate hcode hv =>
    rw [← List.append_assoc]
    exact .acknowledged hplan (hs.after hq) hw hstate hcode hv
  | unconfirmed hs hw hfault hend =>
    rw [← List.append_assoc]
    exact .unconfirmed (hs.after hq) hw hfault hend
  | confirmed hs hw hstate hcode hend =>
    rw [← List.append_assoc]
    exact .confirmed (hs.after hq) hw hstate hcode hend

/-- A wait that heeds no request to stop is not stopped. -/
theorem ne_stopped_of_deaf (hdeaf : w.heedsStop = false) (hf : (w.run channel).Finishes h heard) :
    heard ≠ .error .stopped := by
  refine Wait.unstopped_run h heard hf fun hlook => ?_
  rcases Only.calls (Wait.only_run_of_deaf hdeaf) hf.begins _ hlook with hcall | hkind
  · cases hcall
  · simp at hkind

theorem waited_of_finishes (hdeaf : w.heedsStop = false) (hf : (w.run channel).Finishes h heard) :
    ∃ h₁ h₂, h = h₁ ++ h₂ ∧ Waited w channel heard h₁ ∧ wire channel h₂ = [] := by
  obtain ⟨start, polls, notes, rfl, hnotes, hpolls⟩ := Wait.hears_of_finishes (ne_stopped_of_deaf hdeaf hf) hf
  exact ⟨.told .now (some start) :: polls, notes, rfl, ⟨[], start, polls, rfl, rfl, hpolls⟩,
    Wait.wire_notes hnotes⟩

theorem waited_of_awaitChunk_ok (hf : (awaitChunk channel config transaction).Finishes h (.ok ())) :
    ∃ status h₁ h₂, h = h₁ ++ h₂ ∧ Waited (chunkWait config) channel (.ok status) h₁ ∧ wire channel h₂ = [] ∧
      status.state = .downloadIdle ∧ status.code = .ok := by
  simp only [awaitChunk, Attempt.finishes_bind_ok, Attempt.finishes_of_ok, Attempt.finishes_decided] at hf
  obtain ⟨status, h₁, h₂, rfl, hwait, rfl, hverdict⟩ := hf
  obtain ⟨hcode, hstate⟩ := chunkVerdict_eq_ok.mp hverdict.symm
  obtain ⟨polls, x, -, -, -, hmem⟩ := Wait.finishes_run_ok hwait
  obtain ⟨h₃, h₄, rfl, hw, hq⟩ := waited_of_finishes rfl hwait
  exact ⟨status, h₃, h₄, by simp, hw, hq, by simpa [chunkWait, hstate] using hmem, hcode⟩

theorem chunkFault_of_verdict (hv : chunkVerdict transaction status = .error e) :
    ChunkFault transaction (.ok status) e := by
  unfold chunkVerdict DeviceStatus.isOk DeviceStatus.isError at hv
  split_ifs at hv with hfile hcode hstate
  · cases hv
    exact .corrupted hfile
  · cases hv
    exact .device (by simpa using hcode) hfile
  · cases hv
    exact .errorState (by simpa using hcode) (by simpa using hstate)

theorem waited_of_awaitChunk_error (hf : (awaitChunk channel config transaction).Finishes h (.error e)) :
    ∃ heard h₁ h₂, h = h₁ ++ h₂ ∧ Waited (chunkWait config) channel heard h₁ ∧ wire channel h₂ = [] ∧
      ChunkFault transaction heard e := by
  simp only [awaitChunk, Attempt.finishes_bind_error, Attempt.finishes_of_ok, Attempt.finishes_of_error,
    Attempt.finishes_decided] at hf
  rcases hf with ⟨cause, hwait, rfl⟩ | ⟨status, h₁, h₂, rfl, hwait, rfl, hverdict⟩
  · obtain ⟨h₁, h₂, rfl, hw, hq⟩ := waited_of_finishes rfl hwait
    refine ⟨_, h₁, h₂, rfl, hw, hq, ?_⟩
    cases cause with
    | timeout after expected last => exact .late
    | stopped => exact absurd rfl (ne_stopped_of_deaf rfl hwait)
    | link cause => exact .link
  · obtain ⟨h₃, h₄, rfl, hw, hq⟩ := waited_of_finishes rfl hwait
    exact ⟨_, h₃, h₄, by simp, hw, hq, chunkFault_of_verdict hverdict.symm⟩

theorem manifestFault_of_verdict (hv : manifestVerdict status = .error e)
    (hmem : status.state ∈ (manifestWait config).accepted) : ManifestFault (.ok status) e := by
  unfold manifestVerdict DeviceStatus.isOk at hv
  split_ifs at hv with hcode hstate
  · cases hv
    exact .status (by simpa using hcode)
  · cases hv
    exact .errorState (by simpa using hcode) (by simpa [manifestWait, hstate] using hmem)

theorem waited_of_manifest_error (hf : (manifest channel config).Finishes h (.error e)) : ∃ heard h₁ h₂,
    h = h₁ ++ h₂ ∧ Waited (manifestWait config) channel heard h₁ ∧ wire channel h₂ = [] ∧
    ManifestFault heard e := by
  simp only [manifest, Attempt.finishes_bind_error, Attempt.not_finishes_lift_error,
    Attempt.finishes_lift_ok, finishes_report,
    Attempt.finishes_of_ok, Attempt.finishes_of_error, Attempt.finishes_decided, false_or] at hf
  obtain ⟨u, h₁, h₂, rfl, rfl, ⟨cause, hwait, rfl⟩ | ⟨status, h₃, h₄, rfl, hwait, rfl, hverdict⟩⟩ := hf
  · obtain ⟨h₃, h₄, rfl, hw, hq⟩ := waited_of_finishes rfl hwait
    refine ⟨_, _, h₄, (List.append_assoc _ h₃ h₄).symm, hw.after rfl, hq, ?_⟩
    cases cause with
    | timeout after expected last => exact .late
    | stopped => exact absurd rfl (ne_stopped_of_deaf rfl hwait)
    | link cause => exact .link
  · obtain ⟨polls, x, -, -, -, hmem⟩ := Wait.finishes_run_ok hwait
    obtain ⟨h₅, h₆, rfl, hw, hq⟩ := waited_of_finishes rfl hwait
    rw [List.append_nil]
    exact ⟨_, _, h₆, (List.append_assoc _ h₅ h₆).symm, hw.after rfl, hq,
      manifestFault_of_verdict hverdict.symm hmem⟩

theorem waited_of_manifest_ok (hf : (manifest channel config).Finishes h (.ok status)) : ∃ h₁ h₂,
    h = h₁ ++ h₂ ∧ Waited (manifestWait config) channel (.ok status) h₁ ∧ wire channel h₂ = [] ∧
      status.state = .manifestWaitReset ∧ status.code = .ok := by
  simp only [manifest, Attempt.finishes_bind_ok, Attempt.finishes_lift_ok, finishes_report, Attempt.finishes_of_ok,
    Attempt.finishes_decided] at hf
  obtain ⟨u, h₁, h₂, rfl, rfl, seen, h₃, h₄, rfl, hwait, rfl, hverdict⟩ := hf
  obtain ⟨rfl, hcode, hstate⟩ := manifestVerdict_eq_ok.mp hverdict.symm
  obtain ⟨h₅, h₆, rfl, hw, hq⟩ := waited_of_finishes rfl hwait
  rw [List.append_nil]
  exact ⟨_, h₆, (List.append_assoc _ h₅ h₆).symm, hw.after rfl, hq, hstate, hcode⟩

/-! ### Chunks -/

/-- Chunks that were all acknowledged leave the verdict to what comes after them. -/
theorem verdict_of_sendChunks_ok (hprogress : ∀ x, (progress x).Only (Spares channel))
    (hf : (sendChunks channel config heedsStop progress total chunks image sent transaction).Finishes h (.ok next))
    (hv : Verdict channel config [last] h' r) :
    Verdict channel config (packets chunks image transaction ++ [last]) (h ++ h') r := by
  induction chunks generalizing image sent transaction h with
  | nil =>
    simp only [sendChunks, Attempt.finishes_bind_ok, Attempt.finishes_lift_ok, finishes_report,
      Attempt.finishes_pure] at hf
    obtain ⟨u, h₁, h₂, rfl, rfl, rfl, -⟩ := hf
    rw [List.append_nil]
    exact hv.after (wire_host _ _ _)
  | cons chunk chunks ih =>
    simp only [sendChunks, Attempt.finishes_bind_ok, Attempt.finishes_lift_ok] at hf
    obtain ⟨stop, h₁, h₂, rfl, hstop, hf⟩ := hf
    have hw₁ : wire channel h₁ = [] :=
      wire_eq_nil_of_only (only_shouldStop (P := ofKinds [.stop]) (by simp)) (by decide) hstop.begins
    split at hf
    · simp at hf
    simp only [Attempt.finishes_bind_ok, Attempt.finishes_lift_ok, finishes_send_ok] at hf
    obtain ⟨u, h₃, h₄, rfl, ⟨reply, rfl⟩, u', h₅, h₆, rfl, hprog, u'', h₇, h₈, rfl, hwait, hf⟩ := hf
    have hw₅ : wire channel h₅ = [] := wire_eq_nil_of_spares (hprogress _) hprog.begins
    obtain ⟨status, h₉, h₁₀, rfl, hwaited, hw₁₀, hstate, hcode⟩ := waited_of_awaitChunk_ok hwait
    have hplan : packets chunks (image.drop chunk.length) (transaction + 1) ++ [last] ≠ [] := by simp
    have hrest := (ih hf).after hw₁₀
    have hsent := sent_of_quiet channel config (.download transaction (image.take chunk.length)) (.ok reply) hw₁
    have hall := Verdict.acknowledged hplan hsent (hwaited.after hw₅) hstate hcode hrest
    simpa [packets] using hall

/-- Chunks that failed have the verdict. -/
theorem verdict_of_sendChunks_error (hprogress : ∀ x, (progress x).Only (Spares channel)) (hlive : ¬ Heeded h)
    (hf : (sendChunks channel config heedsStop progress total chunks image sent transaction).Finishes h
      (.error e)) :
    Verdict channel config (packets chunks image transaction ++ [last]) h (.error e) := by
  induction chunks generalizing image sent transaction h with
  | nil => simp [sendChunks, -bind_pure_comp] at hf
  | cons chunk chunks ih =>
    simp only [sendChunks, Attempt.finishes_bind_error, Attempt.not_finishes_lift_error, Attempt.finishes_lift_ok,
      false_or] at hf
    obtain ⟨stop, h₁, h₂, rfl, hstop, hf⟩ := hf
    rw [heeded_append, not_or] at hlive
    have hw₁ : wire channel h₁ = [] :=
      wire_eq_nil_of_only (only_shouldStop (P := ofKinds [.stop]) (by simp)) (by decide) hstop.begins
    split at hf
    · rename_i hyes
      rw [hyes] at hstop
      exact absurd (heeded_of_shouldStop hstop) hlive.1
    simp only [Attempt.finishes_bind_error, Attempt.not_finishes_lift_error,
      Attempt.finishes_lift_ok, finishes_send_ok, finishes_send_error, false_or] at hf
    rcases hf with ⟨cause, rfl, rfl⟩ | ⟨u, h₃, h₄, rfl, ⟨reply, rfl⟩, u', h₅, h₆, rfl, hprog, hf⟩
    · have hsent := sent_of_quiet channel config (.download transaction (image.take chunk.length))
        (.error cause) hw₁
      have hall :=
        Verdict.refused (packets chunks (image.drop chunk.length) (transaction + 1) ++ [last]) hsent wire_nil
      simpa [packets] using hall
    have hw₅ : wire channel h₅ = [] := wire_eq_nil_of_spares (hprogress _) hprog.begins
    have hplan : packets chunks (image.drop chunk.length) (transaction + 1) ++ [last] ≠ [] := by simp
    have hsent := sent_of_quiet channel config (.download transaction (image.take chunk.length)) (.ok reply) hw₁
    rcases hf with hwait | ⟨u'', h₇, h₈, rfl, hwait, hf⟩
    · obtain ⟨heard, h₇, h₈, rfl, hwaited, hw₈, hfault⟩ := waited_of_awaitChunk_error hwait
      have hall := Verdict.failed hplan hsent (hwaited.after hw₅) hfault hw₈
      simpa [packets] using hall
    · obtain ⟨status, h₉, h₁₀, rfl, hwaited, hw₁₀, hstate, hcode⟩ := waited_of_awaitChunk_ok hwait
      have hlive₈ : ¬ Heeded h₈ := fun hh => hlive.2 (by simp only [heeded_append, hh, or_true])
      have hall := Verdict.acknowledged hplan hsent (hwaited.after hw₅) hstate hcode ((ih hlive₈ hf).after hw₁₀)
      simpa [packets] using hall

/-! ### The whole transfer -/

/-- What comes after the chunks has the verdict on the end of the image. -/
theorem verdict_of_end (hprogress : ∀ x, (progress x).Only (Spares channel))
    (hf : (finish channel config progress transaction).Finishes h (.ok ()))
    (hman : (discard (manifest channel config)).Finishes h' r) :
    Verdict channel config [.download transaction []] (h ++ h') r := by
  simp only [finish, Attempt.finishes_bind_ok, Attempt.finishes_lift_ok, finishes_send_ok, finishes_tell] at hf
  obtain ⟨u, h₁, h₂, rfl, ⟨reply, rfl⟩, u', h₃, h₄, rfl, rfl, hprog⟩ := hf
  have hw₄ : wire channel h₄ = [] := wire_eq_nil_of_spares (hprogress _) hprog.begins
  have hquiet : wire channel (.told (.sleep config.settleDelay) (some ()) :: h₄) = [] := by rw [wire_host, hw₄]
  have hsent := sent_of_quiet channel config (.download transaction []) (.ok reply) wire_nil
  cases r with
  | ok u =>
    obtain ⟨status, hman⟩ := Attempt.finishes_discard_ok.mp hman
    obtain ⟨h₅, h₆, rfl, hwaited, hw₆, hstate, hcode⟩ := waited_of_manifest_ok hman
    simpa using Verdict.confirmed hsent (hwaited.after hquiet) hstate hcode hw₆
  | error e =>
    obtain ⟨heard, h₅, h₆, rfl, hwaited, hw₆, hfault⟩ :=
      waited_of_manifest_error (Attempt.finishes_discard_error.mp hman)
    simpa using Verdict.unconfirmed hsent (hwaited.after hquiet) hfault hw₆

theorem download_nil : download channel config heedsStop [] progress = throw .emptyImage := rfl

theorem download_of_ne_nil (himage : image ≠ []) : download channel config heedsStop image progress =
    sendChunks channel config heedsStop progress image.length
      (⟨image.length, config.maxChunk⟩ : ChunkPlan).chunks image 0 0 := by
  have hempty : image.isEmpty = false := List.isEmpty_eq_false_iff.mpr himage
  rw [download, hempty]
  rfl

/-- A transfer that nobody stops ends as its calls say. -/
theorem verdict_of_transfer (hprogress : ∀ x, (progress x).Only (Spares channel)) (hlive : ¬ Heeded h)
    (hf : (transfer channel config heedsStop image progress).Finishes h r) :
    ImageVerdict channel config image h r := by
  by_cases himage : image = []
  · subst himage
    rw [transfer, download_nil, Attempt.throw_bind, Attempt.finishes_throw] at hf
    exact .inl ⟨rfl, hf⟩
  refine .inr ⟨himage, ?_⟩
  have hdone : ∀ {next h₁ h₂}, (download channel config heedsStop image progress).Finishes h₁ (.ok next) →
      Verdict channel config [.download next []] h₂ r →
        Verdict channel config (imagePackets config image ++ [endPacket config image]) (h₁ ++ h₂) r := by
    intro next h₁ h₂ hdown hv
    obtain ⟨-, hend⟩ := delivered_of_download hprogress hdown
    rw [download_of_ne_nil himage] at hdown
    rw [← hend]
    exact verdict_of_sendChunks_ok hprogress hdown hv
  cases r with
  | ok u =>
    simp only [transfer, Attempt.finishes_bind_ok] at hf
    obtain ⟨next, h₁, h₂, rfl, hdown, u', h₃, h₄, rfl, hfin, hman⟩ := hf
    exact hdone hdown (verdict_of_end hprogress hfin hman)
  | error e =>
    simp only [transfer, Attempt.finishes_bind_error] at hf
    rcases hf with hdown | ⟨next, h₁, h₂, rfl, hdown, hfin | ⟨u', h₃, h₄, rfl, hfin, hman⟩⟩
    · rw [download_of_ne_nil himage] at hdown
      exact verdict_of_sendChunks_error hprogress hlive hdown
    · refine hdone hdown ?_
      simp only [finish, Attempt.finishes_bind_error, finishes_send_error,
        Attempt.not_finishes_lift_error, or_false, and_false, exists_false] at hfin
      obtain ⟨cause, rfl, rfl⟩ := hfin
      simpa using Verdict.refused [] (sent_of_quiet channel config (.download next []) (.error cause) wire_nil)
        wire_nil
    · exact hdone hdown (verdict_of_end hprogress hfin hman)

end Runs

/-! ## What a verdict says on the wire -/

section Wire

variable {before after : List Exchange} {x : Exchange} {status : DeviceStatus}

theorem Sent.wire_eq (hs : Sent channel config packet reply h) : wire channel h = [⟨packet, some reply⟩] := by
  obtain ⟨quiet, rfl, hq⟩ := hs
  rw [wire_append, hq, wire_transfer]
  rfl

theorem Waited.wire_eq (hw : Waited w channel heard h) : ∃ start polls, wire channel h = wire channel polls ∧
    w.Hears channel start none polls heard := by
  obtain ⟨quiet, start, polls, rfl, hq, hpolls⟩ := hw
  exact ⟨start, polls, by rw [wire_append, hq, wire_host, List.nil_append], hpolls⟩

/-- A reply that cannot be read ends a wait that waits for the error state. -/
theorem Waited.ends_at (hw : Waited w channel heard h) (herror : .error ∈ w.accepted)
    (heq : wire channel h = before ++ x :: after) (hx : x.IsUnreadable) :
    after = [] ∧ ∃ status, heard = .ok status ∧ status.state = .error := by
  obtain ⟨start, polls, hwire, hpolls⟩ := hw.wire_eq
  obtain ⟨status, hreports, hstate⟩ := hx.reports
  obtain ⟨hafter, hheard⟩ := hpolls.ends_at (hwire ▸ heq) hreports (hstate ▸ herror)
  exact ⟨hafter, status, hheard, hstate⟩

/-- Such a reply is in the wait after a packet, or later. -/
theorem Sent.unreadable (hs : Sent channel config packet reply h₁) (hpacket : packet.IsDownload)
    (hx : x.IsUnreadable) (heq : wire channel (h₁ ++ (h₂ ++ h)) = before ++ x :: after) :
    (∃ before' after', wire channel h₂ = before' ++ x :: after' ∧ after = after' ++ wire channel h) ∨
      ∃ before', wire channel h = before' ++ x :: after := by
  rw [wire_append, hs.wire_eq, wire_append, List.singleton_append] at heq
  cases before with
  | nil =>
    obtain ⟨rfl, -⟩ := List.cons.inj heq
    have hdown : (⟨packet, some reply⟩ : Exchange).isDownload := Exchange.isDownload_iff.mpr hpacket
    rw [Exchange.not_isDownload_of_getStatus hx.1] at hdown
    cases hdown
  | cons y before =>
    rcases List.append_eq_append_iff.mp (List.cons.inj heq).2 with ⟨part, -, hpart⟩ | ⟨part, hpart, hrest⟩
    · exact .inr ⟨part, hpart⟩
    · cases part with
      | nil => exact .inr ⟨[], hrest.symm⟩
      | cons z part =>
        obtain ⟨rfl, hafter⟩ := List.cons.inj hrest
        exact .inl ⟨before, part, hpart, hafter⟩

/-- A reply that cannot be read ends the transfer, and in an error. -/
theorem Verdict.ends_at (hv : Verdict channel config plan h r) (hplan : ∀ p ∈ plan, p.IsDownload)
    (hx : x.IsUnreadable) (heq : wire channel h = before ++ x :: after) : after = [] ∧ ∃ e, r = .error e := by
  induction hv generalizing before with
  | refused plan hs hend =>
    rw [← List.append_nil (_ ++ _), List.append_assoc] at heq
    rcases hs.unreadable (hplan _ List.mem_cons_self) hx heq with ⟨before', after', hin, -⟩ | ⟨before', hin⟩
    · rw [hend] at hin
      simp at hin
    · simp at hin
  | failed _ hs hw _ hend =>
    rcases hs.unreadable (hplan _ List.mem_cons_self) hx heq with ⟨before', after', hin, rfl⟩ | ⟨before', hin⟩
    · obtain ⟨rfl, -⟩ := hw.ends_at (by simp [chunkWait]) hin hx
      exact ⟨hend, _, rfl⟩
    · rw [hend] at hin
      simp at hin
  | acknowledged _ hs hw hstate _ _ ih =>
    rcases hs.unreadable (hplan _ List.mem_cons_self) hx heq with ⟨before', after', hin, -⟩ | ⟨before', hin⟩
    · obtain ⟨-, status, hstatus, herror⟩ := hw.ends_at (by simp [chunkWait]) hin hx
      cases hstatus
      cases herror.symm.trans hstate
    · exact ih (fun p hp => hplan p (List.mem_cons_of_mem _ hp)) hin
  | unconfirmed hs hw _ hend =>
    rcases hs.unreadable (hplan _ List.mem_cons_self) hx heq with ⟨before', after', hin, rfl⟩ | ⟨before', hin⟩
    · obtain ⟨rfl, -⟩ := hw.ends_at (by simp [manifestWait]) hin hx
      exact ⟨hend, _, rfl⟩
    · rw [hend] at hin
      simp at hin
  | confirmed hs hw hstate _ hend =>
    rcases hs.unreadable (hplan _ List.mem_cons_self) hx heq with ⟨before', after', hin, -⟩ | ⟨before', hin⟩
    · obtain ⟨-, status, hstatus, herror⟩ := hw.ends_at (by simp [manifestWait]) hin hx
      cases hstatus
      cases herror.symm.trans hstate
    · rw [hend] at hin
      simp at hin

/-! ### The failure and the last reply -/

/-- How the last exchange of a transfer that failed accounts for the failure: the time was up, the channel
failed, or the loader reported a status, and the failure carries its code unless that is OK. -/
inductive AccountsFor (x : Exchange) (e : TransferError) : Prop
  | late : e.isTimeout = true → AccountsFor x e
  | link {cause : LinkError} : x.reply? = some (.error cause) → e = .link cause → AccountsFor x e
  | status {status : DeviceStatus} : x.Reports status → e.isTimeout = false →
    (∀ c, e.code? = some c ↔ c = status.code ∧ c ≠ .ok) → (e.isRetryable = false ↔ status.code = .file) →
    AccountsFor x e

theorem ChunkFault.accountsFor {reply : Except LinkError ControlPacket} (hf : ChunkFault transaction heard e)
    (hok : ∀ status, heard = .ok status → statusOf reply = .ok status)
    (herror : ∀ cause, heard = .error (.link cause) → reply = .error cause) :
    AccountsFor ⟨.getStatus, some reply⟩ e := by
  cases hf with
  | corrupted hcode =>
    refine .status (Wait.reports_iff.mpr (hok _ rfl)) rfl (fun c => ?_)
      (by simp [TransferError.isRetryable_eq_false, hcode])
    simp only [TransferError.code?, Option.some.injEq, hcode]
    exact ⟨fun h => ⟨h.symm, h ▸ nofun⟩, fun h => h.1.symm⟩
  | device hcode hfile =>
    refine .status (Wait.reports_iff.mpr (hok _ rfl)) rfl (fun c => ?_)
      (by simp [TransferError.isRetryable_eq_false, hfile])
    simp only [TransferError.code?, Option.some.injEq]
    exact ⟨fun h => ⟨h.symm, h ▸ hcode⟩, fun h => h.1.symm⟩
  | errorState hcode _ =>
    refine .status (Wait.reports_iff.mpr (hok _ rfl)) rfl (fun c => ?_)
      (by simp [TransferError.isRetryable_eq_false, hcode])
    simp [TransferError.code?, hcode]
  | late => exact .late rfl
  | link => exact .link (congrArg some (herror _ rfl)) rfl

theorem ManifestFault.accountsFor {reply : Except LinkError ControlPacket} (hf : ManifestFault heard e)
    (hok : ∀ status, heard = .ok status → statusOf reply = .ok status)
    (herror : ∀ cause, heard = .error (.link cause) → reply = .error cause) :
    AccountsFor ⟨.getStatus, some reply⟩ e := by
  cases hf with
  | @status status hcode =>
    refine .status (Wait.reports_iff.mpr (hok _ rfl)) rfl (fun c => ?_) ?_
    · simp only [TransferError.code?, Option.some.injEq]
      exact ⟨fun h => ⟨h.symm, h ▸ hcode⟩, fun h => h.1.symm⟩
    · cases status.code <;> simp [TransferError.isRetryable_eq_false]
  | errorState hcode _ =>
    refine .status (Wait.reports_iff.mpr (hok _ rfl)) rfl (fun c => ?_)
      (by simp [TransferError.isRetryable_eq_false, hcode])
    simp [TransferError.code?, hcode]
  | late => exact .late rfl
  | link => exact .link (congrArg some (herror _ rfl)) rfl

/-- The last exchange of a wait is the query that ended it. -/
theorem Waited.getLast? (hw : Waited w channel heard h) (hq : wire channel quiet = []) : ∃ reply,
    (wire channel (h₁ ++ (h ++ quiet))).getLast? = some ⟨.getStatus, some reply⟩ ∧
      (∀ status, heard = .ok status → statusOf reply = .ok status) ∧
        ∀ cause, heard = .error (.link cause) → reply = .error cause := by
  obtain ⟨start, polls, hwire, hpolls⟩ := hw.wire_eq
  obtain ⟨reply, hlast, hrest⟩ := hpolls.getLast?
  refine ⟨reply, ?_, hrest⟩
  rw [wire_append, wire_append, hq, List.append_nil, hwire, List.getLast?_append, hlast]
  rfl

theorem Verdict.accountsFor (hv : Verdict channel config plan h r) (he : r = .error e) :
    ∃ x, (wire channel h).getLast? = some x ∧ AccountsFor x e := by
  induction hv with
  | refused plan hs hend =>
    cases he
    exact ⟨_, by rw [wire_append, hs.wire_eq, hend]; rfl, .link rfl rfl⟩
  | failed _ _ hw hfault hend =>
    cases he
    obtain ⟨reply, hlast, hok, herror⟩ := hw.getLast? hend
    exact ⟨_, hlast, hfault.accountsFor hok herror⟩
  | acknowledged _ _ _ _ _ _ ih =>
    obtain ⟨x, hlast, hx⟩ := ih he
    refine ⟨x, ?_, hx⟩
    rw [wire_append, wire_append, List.getLast?_append, List.getLast?_append, hlast]
    rfl
  | unconfirmed _ hw hfault hend =>
    cases he
    obtain ⟨reply, hlast, hok, herror⟩ := hw.getLast? hend
    exact ⟨_, hlast, hfault.accountsFor hok herror⟩
  | confirmed => cases he

theorem AccountsFor.code?_eq_some (ha : AccountsFor x e) {c : StatusCode} : e.code? = some c ↔
    c ≠ .ok ∧ e.isTimeout = false ∧ ∃ status, x.Reports status ∧ status.code = c := by
  cases ha with
  | late htime => cases e <;> simp [TransferError.isTimeout, TransferError.code?] at htime ⊢
  | link hreply he =>
    subst he
    refine ⟨nofun, ?_⟩
    rintro ⟨-, -, status, ⟨-, p, hp, -⟩, -⟩
    cases hreply.symm.trans hp
  | status hreports htime hcode _ =>
    rw [hcode]
    constructor
    · rintro ⟨rfl, hne⟩
      exact ⟨hne, htime, _, hreports, rfl⟩
    · rintro ⟨hne, -, status', hreports', rfl⟩
      exact ⟨by rw [hreports.unique hreports'], hne⟩

theorem AccountsFor.isRetryable_eq_false (ha : AccountsFor x e) :
    e.isRetryable = false ↔ e.code? = some .file := by
  cases ha with
  | late htime => cases e <;> simp [TransferError.isTimeout, TransferError.code?,
      TransferError.isRetryable_eq_false] at htime ⊢
  | link _ he =>
    subst he
    simp [TransferError.code?, TransferError.isRetryable_eq_false]
  | status _ _ hcode hretry =>
    rw [hretry, hcode]
    exact ⟨fun h => ⟨h.symm, nofun⟩, fun h => h.1.symm⟩

end Wire

/-! ## A transfer comes to its end -/

section Ends

variable {heedsStop : Bool} {progress : Single → Action Unit} {image payload : Bytes}

theorem ends_send : (send channel config transaction payload).Ends :=
  Attempt.ends_discard (Attempt.ends_of (stallsAfter_ask _).ends)

theorem ends_awaitChunk (hpoll : 0 < config.chunkPoll) : (awaitChunk channel config transaction).Ends :=
  Attempt.ends_bind (Attempt.ends_of (Wait.ends_run hpoll)) fun _ => Attempt.ends_decided _

theorem ends_manifest (hpoll : 0 < config.manifestPoll) : (manifest channel config).Ends := by
  refine Attempt.ends_bind (Attempt.ends_lift (stallsAfter_report _ _).ends) fun _ => ?_
  exact Attempt.ends_bind (Attempt.ends_of (Wait.ends_run hpoll)) fun _ => Attempt.ends_decided _

theorem ends_sendChunks (hprogress : ∀ x, (progress x).Ends) (hpoll : 0 < config.chunkPoll) (total : Nat)
    (chunks : List Chunk) (image : Bytes) (sent : Nat) (transaction : UInt16) :
    (sendChunks channel config heedsStop progress total chunks image sent transaction).Ends := by
  induction chunks generalizing image sent transaction with
  | nil => exact Attempt.ends_bind (Attempt.ends_lift (stallsAfter_report _ _).ends) fun _ => Attempt.ends_pure _
  | cons chunk chunks ih =>
    refine Attempt.ends_bind (Attempt.ends_lift (stallsAfter_shouldStop _).ends) fun stop => ?_
    split
    · exact Attempt.ends_bind (Attempt.ends_lift stallsAfter_abort.ends) fun _ => Attempt.ends_throw _
    refine Attempt.ends_bind ends_send fun _ => Attempt.ends_bind (Attempt.ends_lift (hprogress _)) fun _ => ?_
    exact Attempt.ends_bind (ends_awaitChunk hpoll) fun _ => ih _ _ _

theorem ends_download (hprogress : ∀ x, (progress x).Ends) (hpoll : 0 < config.chunkPoll) :
    (download channel config heedsStop image progress).Ends := by
  by_cases himage : image = []
  · rw [himage, download_nil]
    exact Attempt.ends_throw _
  · rw [download_of_ne_nil himage]
    exact ends_sendChunks hprogress hpoll _ _ _ _ _

theorem ends_finish (hprogress : ∀ x, (progress x).Ends) : (finish channel config progress transaction).Ends :=
  Attempt.ends_bind ends_send fun _ =>
    Attempt.ends_bind (Attempt.ends_lift (stallsAfter_tell _).ends) fun _ => Attempt.ends_lift (hprogress _)

theorem ends_transfer (hprogress : ∀ x, (progress x).Ends) (hchunk : 0 < config.chunkPoll)
    (hmanifest : 0 < config.manifestPoll) : (transfer channel config heedsStop image progress).Ends :=
  Attempt.ends_bind (ends_download hprogress hchunk) fun _ => Attempt.ends_bind (ends_finish hprogress) fun _ =>
    Attempt.ends_discard (ends_manifest hmanifest)

end Ends

/-! ## The guarantee -/

/-- Where no call dies and the clock moves, a transfer has a result.  Unless it was stopped, this is the verdict
that its calls determine: `ImageVerdict` relates them to this result and to no other.  A reply that cannot be
read acknowledges nothing and ends the transfer in an error.  A failure carries a code just where the last
exchange is a status with this code, which is not OK, and the wait was not in vain; it is final just where the
image is empty or the loader called the file corrupted. -/
theorem transfer_verdict_is_the_loaders {σ : Type} (env : Environment (cameras.sum host) σ) (s : σ)
    (channel : ControlChannel) (config : TransferConfig) (heedsStop : Bool) (image : Bytes)
    (progress : Single → Action Unit) (hspares : ∀ x, (progress x).Only (Spares channel))
    (hends : ∀ x, (progress x).Ends) :
    let program := (transfer channel config heedsStop image progress).run
    let h := program.history env s
    (env.Answers → Nonempty (MovingClock env) → 0 < config.chunkPoll → 0 < config.manifestPoll →
      ∃ r, (program.run env s).1 = .finished r) ∧
    ∀ r, (program.run env s).1 = .finished r → ¬ Heeded h →
      (∀ r', ImageVerdict channel config image h r' ↔ r' = r) ∧
      (∀ before x after, wire channel h = before ++ x :: after → x.IsUnreadable →
        ¬ x.Acknowledges ∧ after = [] ∧ ∃ e, r = .error e) ∧
      ∀ e, r = .error e →
        (∀ c, e.code? = some c ↔ c ≠ .ok ∧ e.isTimeout = false ∧
          ∃ x status, (wire channel h).getLast? = some x ∧ x.Reports status ∧ status.code = c) ∧
        (e.isRetryable = false ↔ image = [] ∨ e.code? = some .file) := by
  intro program h
  refine ⟨fun henv ⟨clock⟩ hchunk hmanifest =>
    clock.finishes_of_ends (ends_transfer hends hchunk hmanifest) (henv.not_panicked _ s), fun r hr hlive => ?_⟩
  have hv : ImageVerdict channel config image h r := verdict_of_transfer hspares hlive (finishes_history hr)
  refine ⟨fun r' => ⟨fun hv' => hv'.unique hv, fun heq => heq ▸ hv⟩, ?_⟩
  rcases hv with ⟨himage, hempty, rfl⟩ | ⟨himage, hv⟩
  · have hwire : wire channel h = [] := by rw [hempty, wire_nil]
    refine ⟨fun before x after heq => by simp [hwire] at heq, fun e he => ?_⟩
    cases he
    simp [hwire, himage, TransferError.code?, TransferError.isRetryable_eq_false]
  · refine ⟨fun before x after heq hx => ?_, fun e he => ?_⟩
    · have hplan : ∀ p ∈ imagePackets config image ++ [endPacket config image], p.IsDownload := by
        simp only [List.mem_append, List.mem_singleton]
        rintro p (hp | rfl)
        exacts [isDownload_of_mem_imagePackets p hp, isDownload_endPacket]
      exact ⟨hx.not_acknowledges, hv.ends_at hplan hx heq⟩
    · obtain ⟨x, hlast, hx⟩ := hv.accountsFor he
      refine ⟨fun c => ?_, ?_⟩
      · rw [hx.code?_eq_some, hlast]
        simp
      · rw [hx.isRetryable_eq_false, or_iff_right himage]

/-- Three bytes, two to a packet, which the loader takes and confirms; and an empty image. -/
theorem transfer_verdict_is_the_loaders_obliging :
    let s : Obliging × Nanos := ({ camera := ⟨1, ⟨.d400, .recovery⟩, "unit"⟩ }, 0)
    let program := fun image => (transfer ⟨0⟩ { maxChunk := 2 } true image fun x => tell (.progress x)).run
    let h := fun image => (program image).history Obliging.world.clocked s
    (∃ r, ((program [1, 2, 3]).run Obliging.world.clocked s).1 = .finished r) ∧
      (∀ r, ImageVerdict ⟨0⟩ { maxChunk := 2 } [1, 2, 3] (h [1, 2, 3]) r ↔ r = .ok ()) ∧
      (∀ r, ImageVerdict ⟨0⟩ { maxChunk := 2 } [] (h []) r ↔ r = .error .emptyImage) := by
  intro s program h
  have hguarantee := fun image => transfer_verdict_is_the_loaders Obliging.world.clocked s ⟨0⟩
    { maxChunk := 2 } true image
    (fun x => tell (.progress x)) (fun x => only_tell.mpr fun packet timeout => nofun) fun x =>
      (stallsAfter_tell _).ends
  have hrun : ((program [1, 2, 3]).run Obliging.world.clocked s).1 = .finished (.ok ()) := by decide +kernel
  have hempty : ((program []).run Obliging.world.clocked s).1 = .finished (.error .emptyImage) := by decide +kernel
  exact ⟨(hguarantee [1, 2, 3]).1 answers_obliging.clocked ⟨Obliging.world.clockedClock⟩ (by decide) (by decide),
    ((hguarantee [1, 2, 3]).2 _ hrun (by decide +kernel)).1, ((hguarantee []).2 _ hempty (by decide +kernel)).1⟩

end Dfu

end Reflash
