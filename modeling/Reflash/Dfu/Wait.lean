import Reflash.Camera

/-!
# Reflash.Dfu.Wait — asking a loader for its status, once or until a state is reached

`queryStatus` reads the status once.  `Wait.run` reads it at a fixed interval until the state is one of those
accepted or the time is up; a busy loader counts as "not yet", any other failure ends the wait.
`readLoaderStatus` reads the firmware status block.
-/

namespace Reflash

/-- How long a short request may take unless said otherwise. -/
def defaultRequestTimeout : Nanos := Nanos.ofMillis 1000

def queryStatus (channel : ControlChannel) (timeout : Nanos) : Action (Except LinkError DeviceStatus) := do
  match ← ask (.transfer channel .getStatus timeout) with
  | .ok packet => return .ok (DeviceStatus.decode packet.payload)
  | .error e => return .error e

/-- Reads the firmware status block with the control transfers of a channel: a DETACH, then an UPLOAD. -/
def readLoaderStatus {I : Interface}
    (transfer : ControlPacket → Nanos → Program I (Except LinkError ControlPacket)) (timeout : Nanos) :
    Program I (Except LinkError LoaderStatus) := do
  match ← transfer (.detach ControlPacket.defaultDetachMillis) timeout with
  | .error e => return .error e
  | .ok _ =>
    match ← transfer (.upload LoaderStatus.blockLength) timeout with
    | .error e => return .error e
    | .ok packet =>
      match LoaderStatus.parse? packet.payload with
      | some status => return .ok status
      | none => return .error (.failed "short firmware status block")

/-- Why a wait ended without an accepted state. -/
inductive WaitError where
  /-- The time was up; `last` is the last status that was seen. -/
  | timeout (after : Nanos) (expected : List DfuState) (last : Option DeviceStatus)
  | stopped
  | link (e : LinkError)
  deriving DecidableEq

def WaitError.message : WaitError → String
  | .timeout after expected _ =>
    "timed out after " ++ after.text ++ " waiting for [" ++
      String.intercalate ", " (expected.map DfuState.name) ++ "]"
  | .stopped => "cancelled"
  | .link e => "status query failed: " ++ e.message

/-- A wait for one of several states. -/
structure Wait where
  accepted : List DfuState
  timeout : Nanos
  interval : Nanos
  requestTimeout : Nanos := defaultRequestTimeout
  /-- Whether a request to stop ends the wait. -/
  heedsStop : Bool := false

namespace Wait

/-- What a reply decides: an accepted state ends the wait well, a failure ends it badly, and anything else, a busy
loader too, leaves it open. -/
def verdict? (w : Wait) : Except LinkError DeviceStatus → Option (Except WaitError DeviceStatus)
  | .ok status => if status.state ∈ w.accepted then some (.ok status) else none
  | .error .busy => none
  | .error e => some (.error (.link e))

/-- The last status seen, after one more reply. -/
def lastSeen (last : Option DeviceStatus) : Except LinkError DeviceStatus → Option DeviceStatus
  | .ok status => some status
  | .error _ => last

/-- The record of one reply; a failure other than a busy loader has none. -/
def reportReply : Except LinkError DeviceStatus → Action Unit
  | .ok status => report .trace ("status " ++ status.code.name ++ " state " ++ status.state.name ++ " poll hint "
      ++ Text.decimal status.pollMillis ++ "ms")
  | .error .busy => report .trace "device busy"
  | .error _ => pure ()

/-- The rounds of a wait that began at `start`: heed a request to stop, ask, look at the clock, pause. -/
def loop (w : Wait) (channel : ControlChannel) (start : Nanos) :
    Nat → Option DeviceStatus → Action (Except WaitError DeviceStatus)
  | 0, _ => .stalled
  | rounds + 1, last => do
    if ← shouldStop w.heedsStop then
      return .error .stopped
    let reply ← queryStatus channel w.requestTimeout
    reportReply reply
    match w.verdict? reply with
    | some result => return result
    | none =>
      let now ← tell .now
      if w.timeout ≤ now - start then
        return .error (.timeout w.timeout w.accepted (lastSeen last reply))
      tell (.sleep w.interval)
      w.loop channel start rounds (lastSeen last reply)

def run (w : Wait) (channel : ControlChannel) : Action (Except WaitError DeviceStatus) := do
  let start ← tell .now
  w.loop channel start (roundsWithin w.timeout w.interval) none

end Wait

end Reflash
