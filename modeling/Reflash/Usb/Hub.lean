import Reflash.Usb.Camera

/-!
# Reflash.Usb.Hub — cameras on a USB bus

A hub keeps the cameras of all listings; a `Camera` stands for the one at its number.  `serve` answers
each call on the cameras by a program on the bus, and `onBus` turns a program that works with cameras into
one that works on the bus.
-/

namespace Reflash.Usb

/-- The cameras of all listings so far. -/
structure Hub where
  known : List UsbCamera := []

namespace Hub

/-- Opens the supported cameras among the devices of a listing.  One that cannot be opened is left out,
whatever its neighbours do. -/
def openAll : List Device → BusAction (List UsbCamera)
  | [] => return []
  | device :: rest => do
    match device.descriptor? with
    | none => openAll rest
    | some descriptor =>
      match classify descriptor.vendor descriptor.product with
      | none => openAll rest
      | some kind =>
        match ← UsbCamera.ofDevice device descriptor kind with
        | .ok camera => return camera :: (← openAll rest)
        | .error e =>
          debug ("skipping " ++ Text.hex 4 descriptor.vendor.toNat ++ ":" ++
            Text.hex 4 descriptor.product.toNat ++ ": " ++ e.message)
          openAll rest

/-- Lists the supported cameras in the order of the bus. -/
def listCameras : BusAction (Except LinkError (List UsbCamera)) := do
  match ← ask .list with
  | .error e => return .error (e.toLinkError 0)
  | .ok devices => return .ok (← openAll devices)

/-- The cameras of a listing under the numbers from `first` on. -/
def number (first : Nat) : List UsbCamera → List Camera
  | [] => []
  | c :: rest => { id := first, kind := c.kind, name := c.name } :: number (first + 1) rest

/-- Puts a camera in the place of the one at a number. -/
def update (hub : Hub) (id : Nat) (camera : UsbCamera) : Hub := { hub with known := hub.known.set id camera }

/-- Answers one call on the cameras.  A camera that was never listed counts as disconnected. -/
def serve : (c : CameraCall) → Hub → BusAction (c.Answer × Hub)
  | .list, hub => do
    match ← listCameras with
    | .error e => return (.error e, hub)
    | .ok found => return (.ok (number hub.known.length found), { hub with known := hub.known ++ found })
  | .serial c, hub => do
    match hub.known[c.id]? with
    | some camera => return (← camera.serial, hub)
    | none => return (.error .disconnected, hub)
  | .sensors _, hub => return (.ok [], hub)
  | .firmware c, hub => do
    match hub.known[c.id]? with
    | some camera => return (← camera.firmware, hub)
    | none => return (.error .disconnected, hub)
  | .openMonitor c, hub => do
    match hub.known[c.id]? with
    | some camera =>
      let (offered, camera) ← camera.offerMonitor
      return (offered, hub.update c.id camera)
    | none => return (false, hub)
  | .exchange c request timeout, hub => do
    match hub.known[c.id]? with
    | some camera => return (← camera.exchange request timeout, hub)
    | none => return (.error .disconnected, hub)
  | .enterRecovery c, hub => do
    match hub.known[c.id]? with
    | some camera =>
      let (result, camera) ← camera.enterRecovery
      return (result, hub.update c.id camera)
    | none => return (.error .disconnected, hub)
  | .openControl c, hub => do
    match hub.known[c.id]? with
    | some camera =>
      match ← camera.openControl with
      | .ok handle => return (.ok ⟨handle.id⟩, hub)
      | .error e => return (.error e, hub)
    | none => return (.error .disconnected, hub)
  | .transfer channel packet timeout, hub => do
    return (← dfuTransfer ⟨channel.id⟩ packet timeout, hub)

/-- Answers any call of a program that works with cameras; calls on the host stay. -/
def answer : (c : (cameras.sum host).Call) → Hub → BusAction ((cameras.sum host).Answer c × Hub)
  | .inl c, hub => serve c hub
  | .inr c, hub => do
    let a ← Program.perform (I := bus.sum host) (.inr c)
    return (a, hub)

/-- A program that works with cameras, on the bus. -/
def onBus {α : Type} (p : Action α) (hub : Hub) : BusAction (α × Hub) := p.expand answer hub

end Hub

end Reflash.Usb
