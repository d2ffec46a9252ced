import Reflash.Session.Record

/-!
# Reflash.Session.Follower — watching a session from outside

A follower looks at the record from time to time and shows the log lines that are new.  It stops at the
first record that is done.
-/

namespace Reflash.Session

/-- What a follower has shown so far. -/
structure Follower where
  /-- How many lines of the log it has seen. -/
  seen : Nat := 0
  lines : List String := []
  deriving DecidableEq

namespace Follower

/-- One look at the record. -/
def look (f : Follower) (r : Record) : Follower :=
  { seen := r.log.length, lines := f.lines ++ r.log.drop f.seen }

/-- Looks at one record after another, up to the first that is done. -/
def follow : Follower → List Record → Follower
  | f, [] => f
  | f, r :: rest => if r.done then f.look r else (f.look r).follow rest

end Follower

end Reflash.Session
