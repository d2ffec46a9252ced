/-!
# Reflash.Session.Record — the record of one update attempt

A session keeps a record that others read while it runs: phase, progress, log, error.  The session changes it by
`Record.Write`s, one at a time, so what an observer sees is the record after some of the writes.
-/

namespace Reflash.Session

/-- Where a session stands.  `done` and `failed` are final. -/
inductive Phase where
  | idle
  | backingUp
  | enteringRecovery
  | waitingForRecovery
  | transferring
  | waitingForReconnect
  | done
  | failed (reason : String)
  deriving DecidableEq

namespace Phase

def isTerminal : Phase → Bool
  | .done | .failed _ => true
  | _ => false

def text : Phase → String
  | .idle => "idle"
  | .backingUp => "backing up"
  | .enteringRecovery => "entering recovery"
  | .waitingForRecovery => "waiting for recovery device"
  | .transferring => "transferring"
  | .waitingForReconnect => "waiting for reconnect"
  | .done => "done"
  | .failed reason => "failed: " ++ reason

end Phase

/-- How a session ended. -/
inductive Outcome where
  | done
  | failed (reason : String)
  deriving DecidableEq

/-- What observers of a session see. -/
structure Record where
  phase : Phase := .idle
  /-- From 0 to 100. -/
  progress : Nat := 0
  log : List String := []
  /-- Empty unless the session failed. -/
  error : String := ""
  done : Bool := false
  deriving DecidableEq

/-- One change of the record. -/
inductive Write where
  | phase (p : Phase)
  | progress (n : Nat)
  | log (line : String)
  | finishDone
  | finishFailed (reason : String)
  deriving DecidableEq

namespace Record

/-- The record of a session that has not begun. -/
def initial : Record := {}

/-- The outcome, once the phase is final. -/
def outcome? (r : Record) : Option Outcome :=
  match r.phase with
  | .done => some .done
  | .failed reason => some (.failed reason)
  | _ => none

/-- The record after one write. -/
def apply (r : Record) : Write → Record
  | .phase p => { r with phase := p }
  | .progress n => { r with progress := min n 100 }
  | .log line => { r with log := r.log ++ [line] }
  | .finishDone => { r with phase := .done, progress := 100, done := true }
  | .finishFailed reason => { r with phase := .failed reason, error := reason, done := true }

/-- The record before the first write and after each of them. -/
def history (r : Record) : List Write → List Record
  | [] => [r]
  | w :: rest => r :: (r.apply w).history rest

end Record

end Reflash.Session
