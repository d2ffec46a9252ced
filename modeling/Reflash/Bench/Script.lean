import Reflash.Usb.Bus

/-!
# Reflash.Bench.Script — what happens in the calls of a rehearsal

A script is a list of steps.  Each call takes the next one; a step serves a number of calls, and the last
step serves all that follow.
-/

namespace Reflash.Bench

/-- How a call is answered. -/
inductive Reply where
  /-- Well, and without data. -/
  | plain
  /-- With data, and perhaps a length that is not theirs. -/
  | data (bytes : Bytes) (length? : Option Nat)
  | fail (e : LinkError)
  | failUsb (e : Usb.UsbError)
  /-- With the flash bytes that were asked for, and so many more or fewer. -/
  | pattern (surplus : Int)
  /-- With the opcode that was sent, and data. -/
  | echo (bytes : Bytes)
  /-- Not at all: whoever calls dies. -/
  | panic

/-- One step of a script: its reply, and the time that goes by in the call. -/
structure Step where
  reply : Reply := .plain
  cost : Nanos := 0

/-- The steps to come, each with the number of calls it serves. -/
structure Script (α : Type) where
  steps : List (Nat × α) := []
  /-- How many calls the first step has served. -/
  used : Nat := 0

namespace Script

variable {α : Type}

/-- The step that serves the next call, when the first step has served `used`. -/
def advance : List (Nat × α) → Nat → Option α × Script α
  | [], used => (none, ⟨[], used⟩)
  | [(n, a)], used => (some a, ⟨[(n, a)], used + 1⟩)
  | (n, a) :: b :: rest, used =>
    if used < n then (some a, ⟨(n, a) :: b :: rest, used + 1⟩) else advance (b :: rest) 0

/-- The step that serves the next call, and the script afterwards. -/
def next (s : Script α) : Option α × Script α := advance s.steps s.used

end Script

/-- Flash memory in which byte `i` is `i` modulo 256, as a read command asks for it; a parameter that is not all
there counts as zero. -/
def flashPattern (request : Bytes) (surplus : Int) : Bytes :=
  let offset := ((request.word32At? 8).getD 0).toNat
  let size := ((request.word32At? 12).getD 0).toNat
  (List.range (Int.ofNat size + surplus).toNat).map fun i => UInt8.ofNat (offset + i)

end Reflash.Bench
