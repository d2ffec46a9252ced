import Reflash.Bytes
import Reflash.FileError
import Reflash.Log
import Reflash.Nanos
import Reflash.Program
import Reflash.Session.Record
import Reflash.Single

/-!
# Reflash.Host — what a program asks of the machine it runs on

The clock, the request to stop, the diagnostic log, the record of the session, files and the terminal.  All waiting
goes through `sleep` and all deadlines are measured with `now`.
-/

namespace Reflash

/-- A call on the host. -/
inductive HostCall where
  /-- The monotonic clock. -/
  | now
  | sleep (d : Nanos)
  /-- Whether someone has asked the program to stop.  Once it is so, it stays so. -/
  | stopRequested
  | log (r : LogRecord)
  /-- A change of the session's record. -/
  | write (w : Session.Write)
  /-- The fraction of a job that is done. -/
  | progress (x : Single)
  /-- Seconds of local time since the start of 1970.  A host whose clock shows a time before that is left out: a
  natural number cannot tell it. -/
  | localTime
  | createDirs (path : String)
  | writeFile (path : String) (data : Bytes)
  | rename (source target : String)
  | readFile (path : String)
  /-- Prints a line. -/
  | print (line : String)
  /-- Shows a progress bar, or takes it away; while it is there the diagnostic records go to it. -/
  | bar (shown : Bool)
  /-- Prints a line above the progress bar. -/
  | aboveBar (line : String)
  deriving DecidableEq

/-- The answer to each call on the host. -/
@[reducible] def HostCall.Answer : HostCall → Type
  | .now => Nanos
  | .stopRequested => Bool
  | .localTime => Nat
  | .createDirs _ | .writeFile _ _ | .rename _ _ => Except FileError Unit
  | .readFile _ => Except FileError Bytes
  | .sleep _ | .log _ | .write _ | .progress _ | .print _ | .bar _ | .aboveBar _ => Unit

abbrev host : Interface := ⟨HostCall, HostCall.Answer⟩

/-- Rounds by which a wait may outlast its deadline on a clock that does not move: more than any machine makes. -/
def spareRounds : Nat := Nat.pow 2 62

/-- How many rounds of a wait are followed before it counts as stalled.  A round lasts at least its pause, or a
nanosecond without one, so on a clock that moves the deadline comes first. -/
def roundsWithin (timeout pause : Nanos) : Nat := timeout / max pause 1 + 2 + spareRounds

end Reflash
