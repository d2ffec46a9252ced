import Reflash.Proofs.Dfu.BoundedWait
import Reflash.Proofs.Dfu.StatusReply
import Reflash.Proofs.Usb.Calls

/-!
# Reflash.Proofs.Usb.StatusReplies — a status is read from what came in

A channel leaves data and a length in the packet of a status query, and the status is read from as many bytes of
the data as the length says.  Over USB these are the bytes that came in (`payload_received`), so what stood in
the buffer before is never taken for a status, and a query that was answered too shortly is malformed
(`garbled_status_is_never_good`).
-/

namespace Reflash.Usb

open Program

variable {σ : Type} {env : Environment (bus.sum host) σ} {s : σ} {h : Handle}
  {packet : ControlPacket} {timeout : Nanos}

/-- The payload as the two lengths cut it. -/
theorem payload_eq_take_min (packet : ControlPacket) :
    packet.payload = packet.data.take (min packet.length.toNat packet.data.length) := List.take_eq_take_min

theorem run_dfuTransfer {reply : Except UsbError Bytes} (hnot : packet.request ≠ DfuRequest.detach.code)
    (hreply : (env (.inl (.control h packet (millis timeout))) s).1 = some reply) :
    (dfuTransfer h packet timeout).run env s =
      (.finished ((reply.map (received packet)).mapError (·.toLinkError timeout)),
        (env (.inl (.control h packet (millis timeout))) s).2) := by
  simp only [dfuTransfer, bind_eq, Usb.ask, perform, Program.bind]
  rw [run_call hreply]
  cases reply with
  | ok bytes => rfl
  | error e => simp [hnot, run, Except.map, Except.mapError]

/-- A status query on the bus is one control transfer. -/
theorem run_onBus_queryStatus {hub : Hub} {channel : ControlChannel} {reply : Except UsbError Bytes}
    (hreply : (env (.inl (.control ⟨channel.id⟩ .getStatus (millis timeout))) s).1 = some reply) :
    ((Hub.onBus (queryStatus channel timeout) hub).run env s).1 =
      .finished ((reply.map fun bytes => DeviceStatus.decode (received .getStatus bytes).payload).mapError
        (·.toLinkError timeout), hub) := by
  have hrun := run_dfuTransfer (by decide : ControlPacket.getStatus.request ≠ DfuRequest.detach.code) hreply
  show ((((dfuTransfer ⟨channel.id⟩ .getStatus timeout).bind fun a => .done (a, hub)).bind _).run env s).1 = _
  rw [run_bind, run_bind, hrun]
  cases reply <;> rfl

/-- A status query is answered by the status of the payload. -/
theorem run_queryStatus_ok {env : Environment (cameras.sum host) σ} {channel : ControlChannel}
    (hreply : (env (.inl (.transfer channel .getStatus timeout)) s).1 = some (.ok packet)) :
    ((queryStatus channel timeout).run env s).1 = .finished (.ok (DeviceStatus.decode packet.payload)) :=
  congrArg Prod.fst (Wait.run_queryStatus channel hreply).1

/-- A garbled status is never read as good.  Whatever data and length a channel leaves in the packet, the status
is that of the first bytes of the data, as many as both lengths allow, and only the first six of them matter.
Over USB these are the bytes that came in, whatever the buffer held, so the status is read from them alone; a
host never takes more of them than the buffer has room for, and the length tells any number up to that. -/
theorem garbled_status_is_never_good :
    (∀ {σ : Type} (env : Environment (cameras.sum host) σ) (s : σ) (channel : ControlChannel) (timeout : Nanos)
      (packet : ControlPacket), (env (.inl (.transfer channel .getStatus timeout)) s).1 = some (.ok packet) →
      ∃ status : DeviceStatus, ((queryStatus channel timeout).run env s).1 = .finished (.ok status) ∧
        status.ReadFrom (packet.data.take (min packet.length.toNat packet.data.length))) ∧
    (∀ {σ σ' : Type} (env : Environment (cameras.sum host) σ) (env' : Environment (cameras.sum host) σ')
      (s : σ) (s' : σ') (channel channel' : ControlChannel) (timeout timeout' : Nanos)
      (packet packet' : ControlPacket),
      (env (.inl (.transfer channel .getStatus timeout)) s).1 = some (.ok packet) →
      (env' (.inl (.transfer channel' .getStatus timeout')) s').1 = some (.ok packet') →
      (packet.data.take (min packet.length.toNat packet.data.length)).take 6 =
        (packet'.data.take (min packet'.length.toNat packet'.data.length)).take 6 →
      ((queryStatus channel timeout).run env s).1 = ((queryStatus channel' timeout').run env' s').1) ∧
    (∀ {σ : Type} (env : Environment (bus.sum host) σ) (s : σ) (h : Handle) (buffer bytes : Bytes)
      (timeout : Nanos),
      let request : ControlPacket := { ControlPacket.getStatus with data := buffer }
      (env (.inl (.control h request (millis timeout))) s).1 = some (.ok bytes) → bytes.length < UInt16.size →
      ∃ packet : ControlPacket, ((dfuTransfer h request timeout).run env s).1 = .finished (.ok packet) ∧
        packet.data.take (min packet.length.toNat packet.data.length) = bytes) ∧
    ∀ {σ : Type} (env : Environment (bus.sum host) σ) (s : σ) (hub : Hub) (channel : ControlChannel)
      (timeout : Nanos),
      let reply := (env (.inl (.control ⟨channel.id⟩ .getStatus (millis timeout))) s).1
      let query := ((Hub.onBus (queryStatus channel timeout) hub).run env s).1
      (∀ bytes, reply = some (.ok bytes) → bytes.length < UInt16.size →
        ∃ status : DeviceStatus, query = .finished (.ok status, hub) ∧ status.ReadFrom bytes) ∧
      ∀ e, reply = some (.error e) → query = .finished (.error (e.toLinkError timeout), hub) := by
  refine ⟨?_, ?_, ?_, ?_⟩
  · intro σ env s channel timeout packet hreply
    refine ⟨DeviceStatus.decode packet.payload, run_queryStatus_ok hreply, ?_⟩
    rw [← payload_eq_take_min]
    exact DeviceStatus.readFrom_decode packet.payload
  · intro σ σ' env env' s s' channel channel' timeout timeout' packet packet' hreply hreply' hsame
    rw [← payload_eq_take_min, ← payload_eq_take_min] at hsame
    rw [run_queryStatus_ok hreply, run_queryStatus_ok hreply', ← DeviceStatus.decode_take packet.payload, hsame,
      DeviceStatus.decode_take]
  · intro σ env s h buffer bytes timeout request hreply hfits
    have hnot : request.request ≠ DfuRequest.detach.code :=
      (by decide : ControlPacket.getStatus.request ≠ DfuRequest.detach.code)
    have hrun := congrArg Prod.fst (run_dfuTransfer hnot hreply)
    refine ⟨received request bytes, hrun, ?_⟩
    rw [← payload_eq_take_min]
    exact payload_received rfl hfits
  · intro σ env s hub channel timeout reply query
    constructor
    · intro bytes hreply hfits
      refine ⟨DeviceStatus.decode bytes, ?_, DeviceStatus.readFrom_decode bytes⟩
      have hrun : query = _ := run_onBus_queryStatus hreply
      have hpayload : (received .getStatus bytes).payload = bytes := payload_received rfl hfits
      rw [hrun, Except.map, hpayload]
      rfl
    · intro e hreply
      exact run_onBus_queryStatus hreply

/-! ## Some replies -/

namespace Garbled

/-- A channel that leaves some data and a length in every packet. -/
def leaving (data : Bytes) (length : UInt16) : Environment (cameras.sum host) Unit
  | .inl (.transfer _ packet _), u => (some (.ok { packet with data, length }), u)
  | _, u => (none, u)

/-- A bus on which the same reply comes in for every control transfer. -/
def answering (reply : Except UsbError Bytes) : Environment (bus.sum host) Unit
  | .inl (.control _ _ _), u => (some reply, u)
  | _, u => (none, u)

/-- A status query on that bus. -/
abbrev query (reply : Except UsbError Bytes) : Ending (Except LinkError DeviceStatus × Hub) :=
  ((Hub.onBus (queryStatus ⟨1⟩ 0) {}).run (answering reply) ()).1

end Garbled

open Garbled in
/-- A reply of which a byte is missing is malformed, although the buffer holds a good one, and what stands
behind a whole reply changes nothing.  Over the bus a short reply leaves nothing of the buffer; a whole one is
good unless its state is no state, and a stalled query has no status. -/
theorem garbled_status_is_never_good_short :
    (∃ status : DeviceStatus, ((queryStatus ⟨1⟩ 0).run (leaving [0, 0, 0, 0, 5, 0] 5) ()).1 =
      .finished (.ok status) ∧
      status.code = .malformed) ∧
    ((queryStatus ⟨1⟩ 0).run (leaving [0, 0, 0, 0, 5, 0, 10] 7) ()).1 =
      ((queryStatus ⟨1⟩ 0).run (leaving [0, 0, 0, 0, 5, 0] 9) ()).1 ∧
    (∃ packet : ControlPacket,
      ((dfuTransfer ⟨1⟩ { ControlPacket.getStatus with data := [0, 0, 0, 0, 5, 0] } 0).run
        (answering (.ok [0, 7])) ()).1 = .finished (.ok packet) ∧
      packet.data.take (min packet.length.toNat packet.data.length) = [0, 7]) ∧
    (∃ status : DeviceStatus, query (.ok [0, 1, 2, 0, 5, 3]) = .finished (.ok status, {}) ∧
      status.code = .ok ∧ status.state = .downloadIdle ∧ status.pollMillis = 513 ∧ status.stringIndex = 3) ∧
    (∃ status : DeviceStatus, query (.ok [0, 0, 0, 0, 11, 0]) = .finished (.ok status, {}) ∧
      status.state = .error) ∧
    query (.error .pipe) = .finished (.error .busy, {}) := by
  obtain ⟨hchannel, hsame, hbuffer, hbus⟩ := garbled_status_is_never_good
  obtain ⟨short, hshort, hread⟩ := hchannel (leaving [0, 0, 0, 0, 5, 0] 5) () ⟨1⟩ 0 _ rfl
  obtain ⟨good, hgood, hfields⟩ := (hbus (answering (.ok [0, 1, 2, 0, 5, 3])) () {} ⟨1⟩ 0).1 _ rfl (by decide)
  obtain ⟨bad, hbad, hfault⟩ := (hbus (answering (.ok [0, 0, 0, 0, 11, 0])) () {} ⟨1⟩ 0).1 _ rfl (by decide)
  have hok := hfields.good.mpr ⟨by decide, rfl, 5, rfl, by decide⟩
  have hstate : good.state.byte = 5 := (hfields.state (by decide) 5 rfl).1 (by decide)
  refine ⟨⟨short, hshort, hread.malformed.mpr (by decide)⟩, ?_, ?_, ⟨good, hgood, hok.1, ?_, ?_, ?_⟩,
    ⟨bad, hbad, (hfault.state (by decide) 11 rfl).2 (by decide)⟩, ?_⟩
  · exact hsame (leaving [0, 0, 0, 0, 5, 0, 10] 7) (leaving [0, 0, 0, 0, 5, 0] 9) () () ⟨1⟩ ⟨1⟩ 0 0 _ _ rfl rfl rfl
  · exact hbuffer (answering (.ok [0, 7])) () ⟨1⟩ [0, 0, 0, 0, 5, 0] [0, 7] 0 rfl (by decide)
  · exact (Option.some.inj (DfuState.ofByte?_eq_some_iff.mpr hstate)).symm
  · exact (hfields.pollMillis (by decide)).1
  · exact (Option.some.inj (hfields.stringIndex (by decide))).symm
  · exact (hbus (answering (.error .pipe)) () {} ⟨1⟩ 0).2 _ rfl

end Reflash.Usb
