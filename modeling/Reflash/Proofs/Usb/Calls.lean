import Reflash.Proofs.Actions
import Reflash.Proofs.Expansion
import Reflash.Usb.Hub

/-!
# Reflash.Proofs.Usb.Calls — calls on cameras, on the bus

A hub carries out every call on a camera by calls on the bus.  An exchange with the hardware monitor, where its
channel is open (`Hub.Monitors`), writes the command, and if that went well reads the next reply
(`finishes_command`).  What a call does besides is to look at devices (`Looking`) and to take an interface and
give it back (`Taking`): an interface is claimed by one attempt (`ClaimTried`), and no call makes any transfer
to a device but its own (`transfers_answer`).  Calls on the host stay as they are, so a program of such calls
alone does on the bus what it does without it (`finishes_onBus_of_onHost`).
-/

namespace Reflash

open Program

/-- Calls on bus and host, with their answers. -/
abbrev BusHistory := List (Event (Usb.bus.sum host))

abbrev Event.onBus (c : Usb.BusCall) (a? : Option c.Answer) : Event (Usb.bus.sum host) :=
  ⟨(.inl c : Usb.BusCall ⊕ HostCall), a?⟩

abbrev Event.onHost (c : HostCall) (a? : Option c.Answer) : Event (Usb.bus.sum host) :=
  ⟨(.inr c : Usb.BusCall ⊕ HostCall), a?⟩

namespace Usb

variable {H : BusHistory}

-- As for the calls on cameras, the type of an answer must not be a key.
@[simp] theorem finishes_ask {c : BusCall} {a : c.Answer} :
    @Program.Finishes (bus.sum host) (no_index c.Answer) (ask c) H a ↔ H = [.onBus c (some a)] :=
  finishes_perform

section Footprint

variable {P : (bus.sum host).Call → Prop}

@[simp] theorem only_ask {c : BusCall} :
    @Program.Only (bus.sum host) (no_index c.Answer) P (ask c) ↔ P (.inl c) :=
  only_perform

@[simp] theorem only_debug {text : String} : (debug text).Only P ↔ P (.inr (.log { level := .debug, text })) :=
  only_perform

end Footprint

/-! ## Exchanges -/

/-- An exchange ends with the command refused, with no reply read, or with a reply as it is judged. -/
theorem finishes_command {m : MonitorChannel} {request : Bytes} {timeout : Nanos} {result : Except LinkError Bytes}
    (hf : (m.command request timeout).Finishes H result) :
    (∃ e, H = [.onBus (.bulkOut m.handle m.out request (millis timeout)) (some (.error e))] ∧
      result = .error (e.toLinkError timeout)) ∨
    (∃ e, H = [.onBus (.bulkOut m.handle m.out request (millis timeout)) (some (.ok ())),
        .onBus (.bulkIn m.handle m.input maxReply (millis timeout)) (some (.error e))] ∧
      result = .error (e.toLinkError timeout)) ∨
    ∃ reply, H = [.onBus (.bulkOut m.handle m.out request (millis timeout)) (some (.ok ())),
        .onBus (.bulkIn m.handle m.input maxReply (millis timeout)) (some (.ok reply))] ∧
      ∀ data, result = .ok data → Monitor.reply? request reply = some data := by
  simp only [MonitorChannel.command, bind_eq, finishes_bind, finishes_ask] at hf
  obtain ⟨written, H₁, H₂, rfl, rfl, hf⟩ := hf
  rcases written with e | u
  · obtain ⟨rfl, rfl⟩ := finishes_done.mp hf
    exact .inl ⟨e, rfl, rfl⟩
  simp only [finishes_bind, finishes_ask] at hf
  obtain ⟨read, H₃, H₄, rfl, rfl, hf⟩ := hf
  rcases read with e | reply
  · obtain ⟨rfl, rfl⟩ := finishes_done.mp hf
    exact .inr (.inl ⟨e, rfl, rfl⟩)
  dsimp only at hf
  split at hf
  · obtain ⟨rfl, rfl⟩ := finishes_done.mp hf
    refine .inr (.inr ⟨reply, rfl, fun data hdata => ?_⟩)
    rwa [← Except.ok.inj hdata]
  · obtain ⟨rfl, rfl⟩ := finishes_done.mp hf
    exact .inr (.inr ⟨reply, rfl, nofun⟩)

namespace Hub

variable {hub hub' : Hub} {camera : Camera} {m : MonitorChannel}

/-- The channel of a camera's hardware monitor is open. -/
def Monitors (hub : Hub) (camera : Camera) (m : MonitorChannel) : Prop :=
  ∃ c, hub.known[camera.id]? = some c ∧ c.monitor? = some m

@[simp] theorem finishes_answer_host {c : HostCall} {a : c.Answer} :
    (answer (.inr c) hub).Finishes H (a, hub') ↔ H = [.onHost c (some a)] ∧ hub' = hub := by
  rw [answer, bind_eq]
  exact finishes_bind_pair.trans (and_congr_left' finishes_perform)

theorem finishes_exchange (hm : hub.Monitors camera m) {request : Bytes} {timeout : Nanos}
    {result : Except LinkError Bytes} :
    (answer (.inl (.exchange camera request timeout)) hub).Finishes H (result, hub') ↔
      (m.command request timeout).Finishes H result ∧ hub' = hub := by
  obtain ⟨c, hc, hopen⟩ := hm
  rw [answer, serve, hc]
  dsimp only
  rw [UsbCamera.exchange, hopen]
  exact finishes_bind_pair

end Hub

/-! ## Calls on the host -/

/-- Calls that are made on the host. -/
def OnHost : (cameras.sum host).Call → Prop
  | .inl _ => False
  | .inr _ => True

/-- The kinds of the calls on the host. -/
@[simp] def hostKinds : List CallKind := [.clock, .stop, .log, .record, .verdict, .progress, .files, .terminal]

theorem onHost_of_hostKinds (c : (cameras.sum host).Call) (hc : ofKinds hostKinds c) : OnHost c := by
  rcases c with c | c
  · cases c <;> simp at hc
  · trivial

/-- A call on the host, made on the bus just as it is. -/
def hosted? : Event (cameras.sum host) → Option (Event (bus.sum host))
  | ⟨.inl _, _⟩ => none
  | ⟨.inr c, a?⟩ => some (.onHost c a?)

/-- The calls on the host among `h`, made on the bus. -/
def hosted (h : History) : BusHistory := h.filterMap hosted?

theorem mem_hosted {c : HostCall} {a? : Option c.Answer} {h : History} (hmem : .told c a? ∈ h) :
    .onHost c a? ∈ hosted h :=
  List.mem_filterMap.mpr ⟨_, hmem, rfl⟩

section Hosted

variable {α : Type} {hub hub' : Hub}

theorem hosted_of_carriedOut {h : History} (hh : ∀ e ∈ h, OnHost e.call)
    (hc : CarriedOut Hub.answer hub h H hub') : H = hosted h ∧ hub' = hub := by
  induction hc with
  | nil hub => exact ⟨rfl, rfl⟩
  | @cons c a hub₁ hub₂ hub₃ h H₁ H₂ hf _ ih =>
    obtain ⟨hcall, hrest⟩ := List.forall_mem_cons.mp hh
    rcases c with c | c
    · exact hcall.elim
    · obtain ⟨rfl, rfl⟩ := Hub.finishes_answer_host.mp hf
      obtain ⟨rfl, rfl⟩ := ih hrest
      exact ⟨rfl, rfl⟩

/-- A program that calls only the host does the same on the bus, and the hub has no part in it. -/
theorem finishes_onBus_of_onHost {p : Action α} {a : α} (hp : p.Only OnHost)
    (hf : (Hub.onBus p hub).Finishes H (a, hub')) :
    hub' = hub ∧ ∃ h, p.Finishes h a ∧ H = hosted h := by
  obtain ⟨h, hfinishes, hcarried⟩ := finishes_expand.mp hf
  obtain ⟨rfl, rfl⟩ := hosted_of_carriedOut (hp.calls hfinishes.begins) hcarried
  exact ⟨rfl, h, hfinishes, rfl⟩

end Hosted

/-! ## Transfers -/

/-- The payload of a request to the host is what came in, if its length fits into the packet. -/
theorem payload_received {packet : ControlPacket} {bytes : Bytes} (hhost : packet.isToHost = true)
    (hfits : bytes.length < UInt16.size) : (received packet bytes).payload = bytes := by
  have hlength : (UInt16.ofNat bytes.length).toNat = bytes.length := UInt16.toNat_ofNat_of_lt' hfits
  rw [received, if_pos hhost]
  show (packet.data.overwrite bytes).take (UInt16.ofNat bytes.length).toNat = bytes
  rw [hlength, Bytes.overwrite, List.take_left]

/-- Of the transfers to a device, the bulk writes of `Q` and the control transfers of `K`. -/
def Transfers (Q : Handle → Bytes → Prop) (K : Handle → ControlPacket → Prop) : (bus.sum host).Call → Prop
  | .inl (.bulkOut h _ data _) => Q h data
  | .inl (.control h packet _) => K h packet
  | _ => True

/-- No transfers to a device. -/
abbrev Quiet : (bus.sum host).Call → Prop := Transfers (fun _ _ => False) fun _ _ => False

theorem Transfers.mono {Q Q' : Handle → Bytes → Prop} {K K' : Handle → ControlPacket → Prop}
    (hQ : ∀ h data, Q h data → Q' h data) (hK : ∀ h packet, K h packet → K' h packet) (c : (bus.sum host).Call)
    (hc : Transfers Q K c) : Transfers Q' K' c := by
  rcases c with c | c
  · cases c with
    | bulkOut h endpoint data millis => exact hQ h data hc
    | control h packet millis => exact hK h packet hc
    | _ => trivial
  · trivial

section Exchanges

variable {P : (bus.sum host).Call → Prop}

theorem only_command {m : MonitorChannel} {request : Bytes} {timeout : Nanos}
    (hwrite : P (.inl (.bulkOut m.handle m.out request (millis timeout))))
    (hread : P (.inl (.bulkIn m.handle m.input maxReply (millis timeout)))) :
    (m.command request timeout).Only P := by
  refine only_bind (only_ask.mpr hwrite) fun written => ?_
  split
  · trivial
  refine only_bind (only_ask.mpr hread) fun read => ?_
  split
  · trivial
  · split <;> trivial

theorem only_version {m : MonitorChannel}
    (hwrite : P (.inl (.bulkOut m.handle m.out (Monitor.command Monitor.versionData 0 0 0 0)
      (millis defaultTimeout))))
    (hread : P (.inl (.bulkIn m.handle m.input maxReply (millis defaultTimeout)))) : m.version.Only P := by
  refine only_bind (only_command hwrite hread) fun reply => ?_
  split
  · trivial
  · split <;> trivial

theorem only_dfuTransfer {h : Handle} {packet : ControlPacket} {timeout : Nanos}
    (hpacket : P (.inl (.control h packet (millis timeout))))
    (hdebug : ∀ text, P (.inr (.log { level := .debug, text }))) :
    (dfuTransfer h packet timeout).Only P := by
  refine only_bind (only_ask.mpr hpacket) fun reply => ?_
  split
  · trivial
  · split
    · exact only_bind (only_debug.mpr (hdebug _)) fun _ => trivial
    · trivial

/-- All that is sent for the firmware status block is a DETACH and an UPLOAD. -/
theorem only_readLoaderStatus {h : Handle} {timeout : Nanos}
    (hdetach : P (.inl (.control h (.detach ControlPacket.defaultDetachMillis) (millis timeout))))
    (hupload : P (.inl (.control h (.upload LoaderStatus.blockLength) (millis timeout))))
    (hdebug : ∀ text, P (.inr (.log { level := .debug, text }))) :
    (readLoaderStatus (dfuTransfer h) timeout).Only P := by
  refine only_bind (only_dfuTransfer hdetach hdebug) fun detached => ?_
  split
  · trivial
  refine only_bind (only_dfuTransfer hupload hdebug) fun block => ?_
  split
  · trivial
  · split <;> trivial

end Exchanges

/-! ## Looking at devices -/

/-- The calls that only look at devices, and take a note of it. -/
def Looking : (bus.sum host).Call → Prop
  | .inl .list | .inl (.open _) | .inl (.string _ _) | .inl (.configuration _) | .inr (.log _) => True
  | _ => False

theorem Looking.transfers {Q : Handle → Bytes → Prop} {K : Handle → ControlPacket → Prop} (c : (bus.sum host).Call)
    (hc : Looking c) : Transfers Q K c := by
  rcases c with c | c
  · cases c <;> trivial
  · trivial

/-- The calls that ask a device what it is. -/
def Describing : (bus.sum host).Call → Prop
  | .inl (.string _ _) | .inl (.configuration _) | .inr (.log _) => True
  | _ => False

theorem Describing.looking (c : (bus.sum host).Call) (hc : Describing c) : Looking c := by
  rcases c with c | c
  · cases c <;> trivial
  · cases c <;> trivial

theorem only_readText (h : Handle) (index : UInt8) : (UsbCamera.readText h index).Only Describing := by
  refine only_bind (only_ask.mpr trivial) fun reply => ?_
  split
  · trivial
  · split <;> trivial

theorem only_readName (h : Handle) (descriptor : Descriptor) (kind : DeviceClass) :
    (UsbCamera.readName h descriptor kind).Only Describing := by
  unfold UsbCamera.readName
  dsimp only
  split
  · trivial
  · refine only_bind (only_readText _ _) fun name => ?_
    split <;> trivial

theorem only_findMonitor (device : Device) (kind : DeviceClass) :
    (UsbCamera.findMonitor device kind).Only Describing := by
  unfold UsbCamera.findMonitor
  split
  · trivial
  · refine only_bind (only_ask.mpr trivial) fun config => ?_
    split <;> trivial

theorem only_ofDevice (device : Device) (descriptor : Descriptor) (kind : DeviceClass) :
    (UsbCamera.ofDevice device descriptor kind).Only Looking := by
  refine only_bind (only_ask.mpr trivial) fun handle => ?_
  split
  · trivial
  · exact only_bind ((only_readName _ _ _).mono Describing.looking) fun _ =>
      only_bind ((only_findMonitor _ _).mono Describing.looking) fun _ => trivial

/-- A camera as it is opened: over a handle of its own, without a channel of its monitor. -/
structure OpenedAs (d : Device) (descriptor : Descriptor) (kind : DeviceClass) (c : UsbCamera) : Prop where
  onDevice : c.device = d
  described : c.descriptor = descriptor
  classed : c.kind = kind
  closed : c.monitor? = none
  monitorless : kind.mode = .recovery → c.endpoints? = none

/-- A device is opened first; if that goes well it is asked what it is. -/
theorem finishes_ofDevice {d : Device} {descriptor : Descriptor} {kind : DeviceClass}
    {result : Except UsbError UsbCamera} (hf : (UsbCamera.ofDevice d descriptor kind).Finishes H result) :
    (∃ e, H = [.onBus (.open d) (some (.error e))] ∧ result = .error e) ∨
    ∃ c H', H = .onBus (.open d) (some (.ok c.handle)) :: H' ∧ (∀ e ∈ H', Describing e.call) ∧ result = .ok c ∧
      OpenedAs d descriptor kind c := by
  simp only [UsbCamera.ofDevice, bind_eq, finishes_bind, finishes_ask] at hf
  obtain ⟨opened, H₁, H₂, rfl, rfl, hf⟩ := hf
  rcases opened with e | handle
  · obtain ⟨rfl, rfl⟩ := finishes_done.mp hf
    exact .inl ⟨e, rfl, rfl⟩
  obtain ⟨name, H₃, H₄, rfl, hname, hf⟩ := finishes_bind.mp hf
  obtain ⟨endpoints?, H₅, H₆, rfl, hfind, hf⟩ := finishes_bind.mp hf
  obtain ⟨rfl, rfl⟩ := finishes_done.mp hf
  have hdescribing : ∀ e ∈ H₃ ++ (H₅ ++ []), Describing e.call := by
    rw [List.append_nil, List.forall_mem_append]
    exact ⟨(only_readName _ _ _).calls hname.begins, (only_findMonitor _ _).calls hfind.begins⟩
  refine .inr ⟨_, _, rfl, hdescribing, rfl, ⟨rfl, rfl, rfl, rfl, fun hrecovery => ?_⟩⟩
  rw [UsbCamera.findMonitor, if_pos (by simp [DeviceClass.isRecovery, hrecovery])] at hfind
  exact (finishes_done.mp hfind).2

theorem only_openAll (devices : List Device) : (Hub.openAll devices).Only Looking := by
  induction devices with
  | nil => trivial
  | cons device rest ih =>
    unfold Hub.openAll
    split
    · exact ih
    split
    · exact ih
    refine only_bind (only_ofDevice _ _ _) fun camera => ?_
    split
    · exact only_bind ih fun _ => trivial
    · exact only_bind (only_debug.mpr trivial) fun _ => ih

theorem only_listCameras : Hub.listCameras.Only Looking := by
  refine only_bind (only_ask.mpr trivial) fun devices => ?_
  split
  · trivial
  · exact only_bind (only_openAll _) fun _ => trivial

/-- A camera in normal mode has its serial number in a string descriptor. -/
theorem only_serial_of_normal {c : UsbCamera} (hnormal : c.kind.mode = .normal) : c.serial.Only Looking := by
  unfold UsbCamera.serial
  split
  · split
    · trivial
    · refine only_bind ((only_readText _ _).mono Describing.looking) fun text => ?_
      split <;> trivial
  all_goals
    rename_i hkind
    rw [hkind] at hnormal
    cases hnormal

/-! ## Taking an interface -/

/-- The calls that take an interface of a device, or give it back. -/
def Taking (interface : UInt8) : (bus.sum host).Call → Prop
  | .inl (.claim _ claimed) => claimed = interface
  | .inl (.open _) | .inl (.autoDetach _ _) | .inl (.close _) | .inr (.log _) => True
  | _ => False

theorem Taking.transfers {Q : Handle → Bytes → Prop} {K : Handle → ControlPacket → Prop} {interface : UInt8}
    (c : (bus.sum host).Call) (hc : Taking interface c) : Transfers Q K c := by
  rcases c with c | c
  · cases c <;> trivial
  · trivial

theorem only_claim (c : UsbCamera) (interface : UInt8) : (c.claim interface).Only (Taking interface) := by
  refine only_bind (only_ask.mpr trivial) fun handle => ?_
  split
  · trivial
  refine only_bind (only_bind (only_ask.mpr trivial) fun _ => trivial) fun _ => ?_
  refine only_bind (only_ask.mpr rfl) fun claimed => ?_
  split
  · exact only_bind (only_ask.mpr trivial) fun _ => trivial
  · exact only_bind (only_debug.mpr trivial) fun _ => trivial

section Claims

variable {c c' : UsbCamera} {interface : UInt8}

/-- An attempt to claim an interface of a device: it cannot be opened, or the claim is refused and the handle
closed, or the claim is granted to the handle. -/
inductive ClaimTried (d : Device) (interface : UInt8) : BusHistory → Option Handle → Prop
  | unopened (e : UsbError) : ClaimTried d interface [.onBus (.open d) (some (.error e))] none
  | refused (h : Handle) (detached : Except UsbError Unit) (e : UsbError) :
    ClaimTried d interface [.onBus (.open d) (some (.ok h)), .onBus (.autoDetach h true) (some detached),
      .onBus (.claim h interface) (some (.error e)), .onBus (.close h) (some ())] none
  | granted (h : Handle) (detached : Except UsbError Unit) (note : LogRecord) :
    ClaimTried d interface [.onBus (.open d) (some (.ok h)), .onBus (.autoDetach h true) (some detached),
      .onBus (.claim h interface) (some (.ok ())), .onHost (.log note) (some ())] (some h)

theorem finishes_claim {result : Except LinkError Handle} (hf : (c.claim interface).Finishes H result) :
    ClaimTried c.device interface H result.toOption := by
  simp only [UsbCamera.claim, bind_eq, finishes_bind, finishes_ask] at hf
  obtain ⟨opened, H₁, H₂, rfl, rfl, hf⟩ := hf
  rcases opened with e | handle
  · obtain ⟨rfl, rfl⟩ := finishes_done.mp hf
    exact .unopened e
  simp only [finishes_bind, finishes_ask] at hf
  obtain ⟨u, H₃, H₄, rfl, hdetach, claimed, H₅, H₆, rfl, rfl, hf⟩ := hf
  obtain ⟨detached, H₇, H₈, rfl, hask, hdone⟩ := finishes_bind.mp hdetach
  obtain rfl := finishes_ask.mp hask
  obtain ⟨rfl, -⟩ := finishes_done.mp hdone
  rcases claimed with e | u'
  · obtain ⟨u'', H₉, H₁₀, rfl, hclose, hend⟩ := finishes_bind.mp hf
    obtain rfl := finishes_ask.mp hclose
    obtain ⟨rfl, rfl⟩ := finishes_done.mp hend
    exact .refused handle detached e
  · obtain ⟨u'', H₉, H₁₀, rfl, hnote, hend⟩ := finishes_bind.mp hf
    obtain rfl := finishes_perform.mp hnote
    obtain ⟨rfl, rfl⟩ := finishes_done.mp hend
    exact .granted handle detached _

theorem finishes_openMonitor {result : Except LinkError MonitorChannel} (hf : c.openMonitor.Finishes H result) :
    (c.endpoints? = none ∧ H = [] ∧ result.toOption = none) ∨
    ∃ endpoints, c.endpoints? = some endpoints ∧
      ClaimTried c.device endpoints.interface H (result.toOption.map (·.handle)) := by
  unfold UsbCamera.openMonitor at hf
  split at hf
  · rename_i hnone
    obtain ⟨rfl, rfl⟩ := finishes_done.mp hf
    exact .inl ⟨hnone, rfl, rfl⟩
  · rename_i endpoints hendpoints
    obtain ⟨claimed, H₁, H₂, rfl, hclaim, hend⟩ := finishes_bind.mp hf
    refine .inr ⟨endpoints, hendpoints, ?_⟩
    rcases claimed with e | handle
    · obtain ⟨rfl, rfl⟩ := finishes_done.mp hend
      rw [List.append_nil]
      exact finishes_claim hclaim
    · obtain ⟨rfl, rfl⟩ := finishes_done.mp hend
      rw [List.append_nil]
      exact finishes_claim hclaim

/-- A channel that is not kept yet is opened, and kept if there is one. -/
theorem finishes_monitor {result : Except LinkError MonitorChannel} (hnone : c.monitor? = none)
    (hf : c.monitor.Finishes H (result, c')) :
    c.openMonitor.Finishes H result ∧ c' = { c with monitor? := result.toOption } := by
  rw [UsbCamera.monitor, hnone] at hf
  obtain ⟨opened, H₁, H₂, rfl, hopen, hend⟩ := finishes_bind.mp hf
  rcases opened with e | m
  · obtain ⟨rfl, heq⟩ := finishes_done.mp hend
    obtain ⟨rfl, rfl⟩ := Prod.mk.inj heq
    exact ⟨by simpa using hopen, by simp [Except.toOption, ← hnone]⟩
  · obtain ⟨rfl, heq⟩ := finishes_done.mp hend
    obtain ⟨rfl, rfl⟩ := Prod.mk.inj heq
    exact ⟨by simpa using hopen, rfl⟩

end Claims

section Readings

variable {P : (bus.sum host).Call → Prop} {c : UsbCamera}

theorem only_openMonitor (htaking : ∀ interface call, Taking interface call → P call) : c.openMonitor.Only P := by
  unfold UsbCamera.openMonitor
  split
  · trivial
  · refine only_bind ((only_claim c _).mono (htaking _)) fun handle => ?_
    split <;> trivial

/-- The interface that is claimed for DFU. -/
abbrev dfuInterface : UInt8 := UInt8.ofNat ControlPacket.interface.toNat

section LoaderStatus

variable (htaking : ∀ call, Taking dfuInterface call → P call)
  (hdetach : ∀ h millis, P (.inl (.control h (.detach ControlPacket.defaultDetachMillis) millis)))
  (hupload : ∀ h millis, P (.inl (.control h (.upload LoaderStatus.blockLength) millis)))

include htaking hdetach hupload

theorem only_loaderStatus : c.loaderStatus.Only P := by
  refine only_bind ((only_claim c _).mono htaking) fun handle => ?_
  split
  · trivial
  · exact only_bind (only_readLoaderStatus (hdetach _ _) (hupload _ _) fun _ => htaking _ trivial) fun _ =>
      only_bind (only_ask.mpr (htaking _ trivial)) fun _ => trivial

theorem only_serial (hlooking : ∀ call, Looking call → P call) : c.serial.Only P := by
  cases hmode : c.kind.mode with
  | normal => exact (only_serial_of_normal hmode).mono hlooking
  | recovery =>
    unfold UsbCamera.serial
    split
    · rename_i hkind
      rw [hkind] at hmode
      cases hmode
    · refine only_bind (only_loaderStatus htaking hdetach hupload) fun status => ?_
      split
      · trivial
      · split
        · trivial
        · exact only_bind (only_debug.mpr (htaking _ trivial)) fun _ => trivial
    · trivial

theorem only_firmware_of_recovery (hrecovery : c.kind.mode = .recovery) : c.firmware.Only P := by
  unfold UsbCamera.firmware
  split
  · rename_i hkind
    rw [hkind] at hrecovery
    cases hrecovery
  · refine only_bind (only_loaderStatus htaking hdetach hupload) fun status => ?_
    split
    · trivial
    · split <;> trivial
  · trivial

end LoaderStatus

theorem only_firmware_of_normal (hnormal : c.kind.mode = .normal)
    (htaking : ∀ interface call, Taking interface call → P call)
    (hwrite : ∀ h endpoint millis,
      P (.inl (.bulkOut h endpoint (Monitor.command Monitor.versionData 0 0 0 0) millis)))
    (hread : ∀ h endpoint length millis, P (.inl (.bulkIn h endpoint length millis))) : c.firmware.Only P := by
  unfold UsbCamera.firmware
  split
  · split
    · exact only_version (hwrite _ _ _) (hread _ _ _ _)
    · refine only_bind (only_openMonitor htaking) fun opened => ?_
      split
      · exact only_bind (only_version (hwrite _ _ _) (hread _ _ _ _)) fun _ =>
          only_bind (only_ask.mpr (htaking 0 _ trivial)) fun _ => trivial
      · exact only_bind (only_debug.mpr (htaking 0 _ trivial)) fun _ => trivial
  · rename_i hkind
    rw [hkind] at hnormal
    cases hnormal
  · trivial

end Readings

section Transfers

variable {Q : Handle → Bytes → Prop} {K : Handle → ControlPacket → Prop} {c : UsbCamera}

theorem transfers_serial (hdetach : ∀ h, K h (.detach ControlPacket.defaultDetachMillis))
    (hupload : ∀ h, K h (.upload LoaderStatus.blockLength)) : c.serial.Only (Transfers Q K) :=
  only_serial Taking.transfers (fun h _ => hdetach h) (fun h _ => hupload h) Looking.transfers

theorem transfers_firmware (hversion : ∀ h, Q h (Monitor.command Monitor.versionData 0 0 0 0))
    (hdetach : ∀ h, K h (.detach ControlPacket.defaultDetachMillis))
    (hupload : ∀ h, K h (.upload LoaderStatus.blockLength)) : c.firmware.Only (Transfers Q K) := by
  cases hmode : c.kind.mode with
  | normal =>
    exact only_firmware_of_normal hmode (fun _ => Taking.transfers) (fun h _ _ => hversion h)
      fun _ _ _ _ => trivial
  | recovery =>
    exact only_firmware_of_recovery Taking.transfers (fun h _ => hdetach h) (fun h _ => hupload h) hmode

theorem only_monitor : c.monitor.Only (Transfers Q K) := by
  unfold UsbCamera.monitor
  split
  · trivial
  · refine only_bind (only_openMonitor fun _ => Taking.transfers) fun opened => ?_
    split <;> trivial

theorem only_offerMonitor : c.offerMonitor.Only (Transfers Q K) := by
  refine only_bind only_monitor fun opened => ?_
  split
  · trivial
  · exact only_bind (only_debug.mpr trivial) fun _ => trivial

theorem only_exchange {request : Bytes} (hrequest : ∀ h, Q h request) (timeout : Nanos) :
    (c.exchange request timeout).Only (Transfers Q K) := by
  unfold UsbCamera.exchange
  split
  · exact only_command (hrequest _) trivial
  · trivial

theorem only_openControl : c.openControl.Only (Transfers Q K) := by
  unfold UsbCamera.openControl
  split
  · exact (only_claim c _).mono Taking.transfers
  · trivial

theorem only_enterRecovery (hrestart : ∀ h, Q h (Monitor.command Monitor.enterRecovery 0 0 0 0)) :
    c.enterRecovery.Only (Transfers Q K) := by
  unfold UsbCamera.enterRecovery
  split
  · trivial
  refine only_bind only_monitor fun opened => ?_
  split
  · trivial
  refine only_bind (only_ask.mpr (hrestart _)) fun written => ?_
  split
  all_goals try trivial
  all_goals
    refine only_bind (only_ask.mpr trivial) fun read => ?_
    split
    · trivial
    · exact only_bind (only_debug.mpr trivial) fun _ => trivial

end Transfers

/-! ## Calls and their transfers -/

/-- Of the commands that may be written, those of `Q`. -/
def Writes (Q : Bytes → Prop) : (bus.sum host).Call → Prop
  | .inl (.bulkOut _ _ data _) => Q data
  | _ => True

theorem Transfers.writes {Q : Bytes → Prop} {K : Handle → ControlPacket → Prop} (c : (bus.sum host).Call)
    (hc : Transfers (fun _ => Q) K c) : Writes Q c := by
  rcases c with c | c
  · cases c with
    | bulkOut h endpoint data millis => exact hc
    | _ => trivial
  · trivial

/-- The commands that a call on a camera may write to a hardware monitor. -/
def CommandOf : (cameras.sum host).Call → Bytes → Prop
  | .inl (.firmware _), data => data = Monitor.command Monitor.versionData 0 0 0 0
  | .inl (.exchange _ request _), data => data = request
  | .inl (.enterRecovery _), data => data = Monitor.command Monitor.enterRecovery 0 0 0 0
  | _, _ => False

/-- The control transfers that a call on a camera may make. -/
def PacketOf : (cameras.sum host).Call → ControlPacket → Prop
  | .inl (.serial _), packet | .inl (.firmware _), packet =>
    packet = .detach ControlPacket.defaultDetachMillis ∨ packet = .upload LoaderStatus.blockLength
  | .inl (.transfer _ own _), packet => packet = own
  | _, _ => False

/-- A call makes no transfers but its own. -/
theorem transfers_answer (c : (cameras.sum host).Call) (hub : Hub) :
    (hub.answer c).Only (Transfers (fun _ => CommandOf c) fun _ => PacketOf c) := by
  rcases c with c | c
  · rw [Hub.answer]
    cases c with
    | list =>
      refine only_bind (only_listCameras.mono Looking.transfers) fun found => ?_
      split <;> trivial
    | sensors c => trivial
    | transfer channel packet timeout => exact only_bind (only_dfuTransfer rfl fun _ => trivial) fun _ => trivial
    | serial c =>
      rw [Hub.serve]
      split
      · exact only_bind (transfers_serial (fun _ => .inl rfl) fun _ => .inr rfl) fun _ => trivial
      · trivial
    | firmware c =>
      rw [Hub.serve]
      split
      · exact only_bind (transfers_firmware (fun _ => rfl) (fun _ => .inl rfl) fun _ => .inr rfl) fun _ => trivial
      · trivial
    | openMonitor c =>
      rw [Hub.serve]
      split
      · exact only_bind only_offerMonitor fun _ => trivial
      · trivial
    | exchange c request timeout =>
      rw [Hub.serve]
      split
      · have hown : CommandOf (.inl (.exchange c request timeout)) request := rfl
        exact only_bind (only_exchange (fun _ => hown) _) fun _ => trivial
      · trivial
    | enterRecovery c =>
      rw [Hub.serve]
      split
      · exact only_bind (only_enterRecovery fun _ => rfl) fun _ => trivial
      · trivial
    | openControl c =>
      rw [Hub.serve]
      split
      · refine only_bind only_openControl fun handle => ?_
        split <;> trivial
      · trivial
  · exact only_bind (only_perform.mpr trivial) fun _ => trivial

/-- A call writes no commands but its own. -/
theorem only_answer (c : (cameras.sum host).Call) (hub : Hub) : (hub.answer c).Only (Writes (CommandOf c)) :=
  (transfers_answer c hub).mono Transfers.writes

end Usb

end Reflash
