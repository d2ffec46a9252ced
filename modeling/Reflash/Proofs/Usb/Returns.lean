import Reflash.Proofs.Expansion
import Reflash.Usb.Hub

/-!
# Reflash.Proofs.Usb.Returns — calls on cameras come back

On a bus no call on a camera waits for a clock, so none of them stalls (`Hub.stallsAfter_answer`).  A program
that does not stall by itself does not stall on a bus.
-/

namespace Reflash.Usb

open Program

variable {P : (bus.sum host).Call → Prop} {h : Handle} {c : UsbCamera} {m : MonitorChannel}

@[simp] theorem stallsAfter_ask (call : BusCall) :
    @Program.StallsAfter (bus.sum host) (no_index call.Answer) P (ask call) :=
  stallsAfter_perform _

@[simp] theorem stallsAfter_debug (text : String) : (debug text).StallsAfter P := stallsAfter_perform _

/-! ## Listings -/

theorem stallsAfter_readText (index : UInt8) : (UsbCamera.readText h index).StallsAfter P := by
  refine stallsAfter_bind (stallsAfter_ask _) fun reply => ?_
  split
  · trivial
  · split <;> trivial

theorem stallsAfter_ofDevice (device : Device) (descriptor : Descriptor) (kind : DeviceClass) :
    (UsbCamera.ofDevice device descriptor kind).StallsAfter P := by
  refine stallsAfter_bind (stallsAfter_ask _) fun opened => ?_
  split
  · trivial
  refine stallsAfter_bind ?_ fun name => stallsAfter_bind ?_ fun endpoints? => trivial
  · unfold UsbCamera.readName
    dsimp only
    split
    · trivial
    · refine stallsAfter_bind (stallsAfter_readText _) fun name => ?_
      split <;> trivial
  · unfold UsbCamera.findMonitor
    split
    · trivial
    · refine stallsAfter_bind (stallsAfter_ask _) fun config => ?_
      split <;> trivial

theorem stallsAfter_openAll (devices : List Device) : (Hub.openAll devices).StallsAfter P := by
  induction devices with
  | nil => trivial
  | cons device rest ih =>
    unfold Hub.openAll
    split
    · exact ih
    split
    · exact ih
    refine stallsAfter_bind (stallsAfter_ofDevice _ _ _) fun camera => ?_
    split
    · exact stallsAfter_bind ih fun _ => trivial
    · exact stallsAfter_bind (stallsAfter_debug _) fun _ => ih

theorem stallsAfter_listCameras : Hub.listCameras.StallsAfter P := by
  refine stallsAfter_bind (stallsAfter_ask _) fun devices => ?_
  split
  · trivial
  · exact stallsAfter_bind (stallsAfter_openAll _) fun _ => trivial

/-! ## Channels -/

theorem stallsAfter_claim (interface : UInt8) : (c.claim interface).StallsAfter P := by
  refine stallsAfter_bind (stallsAfter_ask _) fun opened => ?_
  split
  · trivial
  refine stallsAfter_bind (stallsAfter_bind (stallsAfter_ask _) fun _ => trivial) fun _ => ?_
  refine stallsAfter_bind (stallsAfter_ask _) fun claimed => ?_
  split
  · exact stallsAfter_bind (stallsAfter_ask _) fun _ => trivial
  · exact stallsAfter_bind (stallsAfter_debug _) fun _ => trivial

theorem stallsAfter_openMonitor : c.openMonitor.StallsAfter P := by
  unfold UsbCamera.openMonitor
  split
  · trivial
  · refine stallsAfter_bind (stallsAfter_claim _) fun claimed => ?_
    split <;> trivial

theorem stallsAfter_monitor : c.monitor.StallsAfter P := by
  unfold UsbCamera.monitor
  split
  · trivial
  · refine stallsAfter_bind stallsAfter_openMonitor fun opened => ?_
    split <;> trivial

theorem stallsAfter_command (request : Bytes) (timeout : Nanos) : (m.command request timeout).StallsAfter P := by
  refine stallsAfter_bind (stallsAfter_ask _) fun written => ?_
  split
  · trivial
  refine stallsAfter_bind (stallsAfter_ask _) fun read => ?_
  split
  · trivial
  · split <;> trivial

theorem stallsAfter_version : m.version.StallsAfter P := by
  refine stallsAfter_bind (stallsAfter_command _ _) fun reply => ?_
  split
  · trivial
  · split <;> trivial

theorem stallsAfter_dfuTransfer (packet : ControlPacket) (timeout : Nanos) :
    (dfuTransfer h packet timeout).StallsAfter P := by
  refine stallsAfter_bind (stallsAfter_ask _) fun reply => ?_
  split
  · trivial
  · split
    · exact stallsAfter_bind (stallsAfter_debug _) fun _ => trivial
    · trivial

theorem stallsAfter_loaderStatus : c.loaderStatus.StallsAfter P := by
  refine stallsAfter_bind (stallsAfter_claim _) fun claimed => ?_
  split
  · trivial
  refine stallsAfter_bind ?_ fun status => stallsAfter_bind (stallsAfter_ask _) fun _ => trivial
  refine stallsAfter_bind (stallsAfter_dfuTransfer _ _) fun detached => ?_
  split
  · trivial
  refine stallsAfter_bind (stallsAfter_dfuTransfer _ _) fun uploaded => ?_
  split
  · trivial
  · split <;> trivial

/-! ## Calls -/

theorem stallsAfter_serial : c.serial.StallsAfter P := by
  unfold UsbCamera.serial
  split
  · split
    · trivial
    · refine stallsAfter_bind (stallsAfter_readText _) fun text => ?_
      split <;> trivial
  · refine stallsAfter_bind stallsAfter_loaderStatus fun status => ?_
    split
    · trivial
    · split
      · trivial
      · exact stallsAfter_bind (stallsAfter_debug _) fun _ => trivial
  · trivial

theorem stallsAfter_firmware : c.firmware.StallsAfter P := by
  unfold UsbCamera.firmware
  split
  · split
    · exact stallsAfter_version
    · refine stallsAfter_bind stallsAfter_openMonitor fun opened => ?_
      split
      · exact stallsAfter_bind stallsAfter_version fun _ => stallsAfter_bind (stallsAfter_ask _) fun _ => trivial
      · exact stallsAfter_bind (stallsAfter_debug _) fun _ => trivial
  · refine stallsAfter_bind stallsAfter_loaderStatus fun status => ?_
    split
    · trivial
    · split <;> trivial
  · trivial

theorem stallsAfter_offerMonitor : c.offerMonitor.StallsAfter P := by
  refine stallsAfter_bind stallsAfter_monitor fun opened => ?_
  split
  · trivial
  · exact stallsAfter_bind (stallsAfter_debug _) fun _ => trivial

theorem stallsAfter_exchange (request : Bytes) (timeout : Nanos) : (c.exchange request timeout).StallsAfter P := by
  unfold UsbCamera.exchange
  split
  · exact stallsAfter_command _ _
  · trivial

theorem stallsAfter_openControl : c.openControl.StallsAfter P := by
  unfold UsbCamera.openControl
  split
  · exact stallsAfter_claim _
  · trivial

theorem stallsAfter_enterRecovery : c.enterRecovery.StallsAfter P := by
  unfold UsbCamera.enterRecovery
  split
  · trivial
  refine stallsAfter_bind stallsAfter_monitor fun opened => ?_
  split
  · trivial
  refine stallsAfter_bind (stallsAfter_ask _) fun written => ?_
  split
  all_goals try trivial
  all_goals
    refine stallsAfter_bind (stallsAfter_ask _) fun read => ?_
    split
    · trivial
    · exact stallsAfter_bind (stallsAfter_debug _) fun _ => trivial

theorem Hub.stallsAfter_answer (call : (cameras.sum host).Call) (hub : Hub) : (hub.answer call).StallsAfter P := by
  rcases call with call | call
  · rw [Hub.answer]
    cases call with
    | list =>
      refine stallsAfter_bind stallsAfter_listCameras fun found => ?_
      split <;> trivial
    | sensors camera => trivial
    | transfer channel packet timeout => exact stallsAfter_bind (stallsAfter_dfuTransfer _ _) fun _ => trivial
    | serial camera =>
      rw [Hub.serve]
      split
      · exact stallsAfter_bind stallsAfter_serial fun _ => trivial
      · trivial
    | firmware camera =>
      rw [Hub.serve]
      split
      · exact stallsAfter_bind stallsAfter_firmware fun _ => trivial
      · trivial
    | openMonitor camera =>
      rw [Hub.serve]
      split
      · exact stallsAfter_bind stallsAfter_offerMonitor fun _ => trivial
      · trivial
    | exchange camera request timeout =>
      rw [Hub.serve]
      split
      · exact stallsAfter_bind (stallsAfter_exchange _ _) fun _ => trivial
      · trivial
    | enterRecovery camera =>
      rw [Hub.serve]
      split
      · exact stallsAfter_bind stallsAfter_enterRecovery fun _ => trivial
      · trivial
    | openControl camera =>
      rw [Hub.serve]
      split
      · refine stallsAfter_bind stallsAfter_openControl fun handle => ?_
        split <;> trivial
      · trivial
  · exact stallsAfter_bind (stallsAfter_perform _) fun _ => trivial

end Reflash.Usb
