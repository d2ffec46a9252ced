import Reflash.Camera

/-!
# Reflash.Reacquire — finding a unit again after it changed its mode

After a change of mode the old `Camera` is gone; only the identity is left.  `Search.run` lists the cameras
again and again until one in the wanted mode reports that identity.  The first match of a listing wins, a camera
whose identity cannot be read is passed over, and a listing that fails counts as empty.
-/

namespace Reflash

/-- How long to pause between two listings unless said otherwise. -/
def defaultScanInterval : Nanos := Nanos.ofMillis 100

/-- Why a search found nothing. -/
inductive SearchError where
  | timedOut (identity : String) (after : Nanos)
  | stopped
  deriving DecidableEq

def SearchError.message : SearchError → String
  | .timedOut identity after => "no device with serial " ++ identity ++ " appeared within " ++ after.text
  | .stopped => "device search cancelled"

/-- A search for one unit. -/
structure Search where
  identity : String
  wanted : Wanted
  timeout : Nanos
  interval : Nanos := defaultScanInterval
  /-- Whether a request to stop ends the search. -/
  heedsStop : Bool := false

namespace Search

/-- The first camera in the wanted mode that reports the identity.  Cameras in the other mode are not asked. -/
def pick (s : Search) : List Camera → Action (Option Camera)
  | [] => return none
  | camera :: rest => do
    if !s.wanted.accepts camera.kind then
      s.pick rest
    else
      match ← identityOf camera with
      | .ok (some identity) => if identity = s.identity then return some camera else s.pick rest
      | .ok none => s.pick rest
      | .error e =>
        report .warn ("skipping " ++ camera.name ++ ": failed to read serial: " ++ e.message)
        s.pick rest

/-- One look at the connected cameras. -/
def scan (s : Search) : Action (Option Camera) := do
  match ← ask .list with
  | .ok found => s.pick found
  | .error e =>
    report .trace ("device list unavailable: " ++ e.message)
    return none

/-- The rounds of a search that began at `start`: heed a request to stop, look, look at the clock, pause. -/
def loop (s : Search) (start : Nanos) : Nat → Action (Except SearchError Camera)
  | 0 => .stalled
  | rounds + 1 => do
    if ← shouldStop s.heedsStop then
      return .error .stopped
    match ← s.scan with
    | some camera =>
      -- This reading is for the record alone.  It is made at every log level here, though it is only needed
      -- where debug records are kept.
      let now ← tell .now
      report .debug ("found " ++ camera.name ++ " (" ++ camera.kind.text ++ ") after " ++ Nanos.text (now - start))
      return .ok camera
    | none =>
      let now ← tell .now
      if s.timeout ≤ now - start then
        return .error (.timedOut s.identity s.timeout)
      tell (.sleep s.interval)
      s.loop start rounds

/-- Searches from now on. -/
def run (s : Search) : Action (Except SearchError Camera) := do
  let start ← tell .now
  report .debug ("waiting up to " ++ s.timeout.text ++ " for " ++ s.wanted.name ++ " device " ++ s.identity)
  s.loop start (roundsWithin s.timeout s.interval)

end Search

end Reflash
