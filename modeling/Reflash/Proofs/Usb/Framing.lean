import Reflash.Proofs.Monitor
import Reflash.Proofs.Usb.Calls

/-!
# Reflash.Proofs.Usb.Framing — commands to the hardware monitor and their replies, on the bus

An exchange with the hardware monitor is a write and a read (`run_command`).  What it makes of the reply depends
on the opcode in the command, which can be read from any command as the other fields can
(`exchange_matches_opcode`).
-/

namespace Reflash.Usb

open Program

variable {σ : Type} {m : MonitorChannel} {request : Bytes} {timeout : Nanos} {opcode p₀ p₁ p₂ p₃ : UInt32}

/-- The write of a command. -/
abbrev MonitorChannel.writing (m : MonitorChannel) (request : Bytes) (timeout : Nanos) : BusCall :=
  .bulkOut m.handle m.out request (millis timeout)

/-- The read of a reply. -/
abbrev MonitorChannel.reading (m : MonitorChannel) (timeout : Nanos) : BusCall :=
  .bulkIn m.handle m.input maxReply (millis timeout)

/-- What an exchange makes of a reply. -/
def judged (request reply : Bytes) : Except LinkError Bytes :=
  match Monitor.reply? request reply with
  | some answer => .ok answer
  | none => .error (.failed "hardware monitor reply does not echo the opcode")

theorem judged_command_eq_ok_iff {reply answer : Bytes} :
    judged (Monitor.command opcode p₀ p₁ p₂ p₃) reply = .ok answer ↔
    reply = littleEndian 4 opcode.toNat ++ answer := by
  rw [judged, ← @Monitor.reply?_command_eq_some_iff opcode p₀ p₁ p₂ p₃]
  split <;> simp [*]

theorem judged_command_of_mismatch {reply : Bytes}
    (hreply : reply.length < 4 ∨ reply.take 4 ≠ littleEndian 4 opcode.toNat) :
    judged (Monitor.command opcode p₀ p₁ p₂ p₃) reply =
      .error (.failed "hardware monitor reply does not echo the opcode") := by
  rw [judged, Monitor.reply?_command_eq_none_iff.mpr hreply]

/-- An exchange writes the command; if that went well it reads a reply, and judges it. -/
theorem run_command (env : Environment (bus.sum host) σ) (s : σ) :
    (m.command request timeout).run env s =
    match env (.inl (m.writing request timeout)) s with
    | (none, s') => (.panicked, s')
    | (some (.error e), s') => (.finished (.error (e.toLinkError timeout)), s')
    | (some (.ok ()), s') =>
      match env (.inl (m.reading timeout)) s' with
      | (none, s'') => (.panicked, s'')
      | (some (.error e), s'') => (.finished (.error (e.toLinkError timeout)), s'')
      | (some (.ok reply), s'') => (.finished (judged request reply), s'') := by
  simp only [MonitorChannel.command, bind_eq, Usb.ask, perform, Program.bind, run]
  rcases env (.inl (m.writing request timeout)) s with ⟨_ | _ | u, s'⟩
  · rfl
  · rfl
  simp only [run]
  rcases env (.inl (m.reading timeout)) s' with ⟨_ | _ | reply, s''⟩
  · rfl
  · rfl
  · simp only [judged]
    cases Monitor.reply? request reply <;> rfl

/-- Every field of a command can be read from its 24 bytes, so different commands are different bytes; a flash
read begins with the header of flash reads and goes on with its offset and its size.  On any bus an exchange
gives an answer exactly if the command was written and the reply is the opcode of the command with this answer
behind it.  A reply that begins with another opcode, or that is too short to begin with one, is refused. -/
theorem exchange_matches_opcode :
    (∀ opcode p₀ p₁ p₂ p₃ : UInt32,
      let packet := Monitor.command opcode p₀ p₁ p₂ p₃
      packet.length = 24 ∧ packet.wordAt 0 2 = 20 ∧ packet.wordAt 2 2 = 0xCDAB ∧ packet.wordAt 4 4 = opcode.toNat ∧
        packet.wordAt 8 4 = p₀.toNat ∧ packet.wordAt 12 4 = p₁.toNat ∧ packet.wordAt 16 4 = p₂.toNat ∧
        packet.wordAt 20 4 = p₃.toNat) ∧
    (∀ opcode p₀ p₁ p₂ p₃ opcode' q₀ q₁ q₂ q₃ : UInt32,
      Monitor.command opcode p₀ p₁ p₂ p₃ = Monitor.command opcode' q₀ q₁ q₂ q₃ ↔
        opcode = opcode' ∧ p₀ = q₀ ∧ p₁ = q₁ ∧ p₂ = q₂ ∧ p₃ = q₃) ∧
    (∀ offset size : UInt32,
      let packet := Monitor.flashRead offset size
      Monitor.flashReadHeader <+: packet ∧ packet.wordAt 8 4 = offset.toNat ∧ packet.wordAt 12 4 = size.toNat) ∧
    ∀ {σ : Type} (env : Environment (bus.sum host) σ) (s : σ) (m : MonitorChannel) (timeout : Nanos)
      (opcode p₀ p₁ p₂ p₃ : UInt32),
      let packet := Monitor.command opcode p₀ p₁ p₂ p₃
      let exchange := ((m.command packet timeout).run env s).1
      let written := env (.inl (m.writing packet timeout)) s
      let read := env (.inl (m.reading timeout)) written.2
      (∀ answer, exchange = .finished (.ok answer) ↔
        written.1 = some (.ok ()) ∧ read.1 = some (.ok (littleEndian 4 opcode.toNat ++ answer))) ∧
      ∀ reply, written.1 = some (.ok ()) → read.1 = some (.ok reply) →
        reply.length < 4 ∨ reply.take 4 ≠ littleEndian 4 opcode.toNat →
        exchange = .finished (.error (.failed "hardware monitor reply does not echo the opcode")) := by
  refine ⟨fun opcode p₀ p₁ p₂ p₃ => ?_, fun _ _ _ _ _ _ _ _ _ _ => Monitor.command_inj, fun offset size => ?_, ?_⟩
  · exact ⟨Monitor.length_command .., Monitor.wordAt_command_length .., Monitor.wordAt_command_magic ..,
      Monitor.wordAt_command_opcode .., Monitor.wordAt_command_first .., Monitor.wordAt_command_second ..,
      Monitor.wordAt_command_third .., Monitor.wordAt_command_fourth ..⟩
  · exact ⟨Monitor.flashReadHeader_prefix offset size, Monitor.wordAt_command_first ..,
      Monitor.wordAt_command_second ..⟩
  intro σ env s m timeout opcode p₀ p₁ p₂ p₃ packet exchange written read
  have hrun : exchange = _ := congrArg Prod.fst (run_command env s)
  constructor
  · intro answer
    rw [hrun]
    rcases hwritten : env (.inl (m.writing packet timeout)) s with ⟨_ | _ | u, s'⟩
    · simp [written, hwritten]
    · simp [written, hwritten]
    rcases hread : env (.inl (m.reading timeout)) s' with ⟨_ | _ | reply, s''⟩
    · simp [written, read, hwritten, hread]
    · simp [written, read, hwritten, hread]
    · have hjudged : judged packet reply = .ok answer ↔ reply = littleEndian 4 opcode.toNat ++ answer :=
        judged_command_eq_ok_iff
      simp [written, read, hwritten, hread, hjudged]
  · intro reply hwritten hread hmismatch
    have hwritten' : env (.inl (m.writing packet timeout)) s = (some (.ok ()), written.2) := Prod.ext hwritten rfl
    have hread' : env (.inl (m.reading timeout)) written.2 = (some (.ok reply), read.2) := Prod.ext hread rfl
    rw [hrun, hwritten']
    dsimp only
    rw [hread']
    exact congrArg Ending.finished (judged_command_of_mismatch hmismatch)

/-- A bus on which every command is taken and every reply is the same. -/
def replying (reply : Bytes) : Environment (bus.sum host) Unit
  | .inl (.bulkOut _ _ _ _), u => (some (.ok ()), u)
  | .inl (.bulkIn _ _ _ _), u => (some (.ok reply), u)
  | _, u => (none, u)

/-- The same reply is an answer to the command that has its opcode, and none to the command that restarts a
camera in recovery mode; three bytes are no answer to any. -/
theorem exchange_matches_opcode_replying :
    let m : MonitorChannel := ⟨⟨0⟩, 0x01, 0x82⟩
    let versionData := Monitor.command Monitor.versionData 0 0 0 0
    let enterRecovery := Monitor.command Monitor.enterRecovery 0 0 0 0
    let refused : Except LinkError Bytes := .error (.failed "hardware monitor reply does not echo the opcode")
    ((m.command versionData defaultTimeout).run (replying [0x10, 0, 0, 0, 7, 9]) ()).1 = .finished (.ok [7, 9]) ∧
    ((m.command enterRecovery defaultTimeout).run (replying [0x10, 0, 0, 0, 7, 9]) ()).1 = .finished refused ∧
    ((m.command versionData defaultTimeout).run (replying [0x10, 0, 0]) ()).1 = .finished refused := by
  intro m versionData enterRecovery refused
  have hmatches {reply : Bytes} (opcode : UInt32) :=
    exchange_matches_opcode.2.2.2 (replying reply) () m defaultTimeout opcode 0 0 0 0
  refine ⟨((hmatches Monitor.versionData).1 [7, 9]).mpr ⟨rfl, by decide⟩, ?_, ?_⟩
  · exact (hmatches Monitor.enterRecovery).2 [0x10, 0, 0, 0, 7, 9] rfl rfl (by decide)
  · exact (hmatches Monitor.versionData).2 [0x10, 0, 0] rfl rfl (by decide)

end Reflash.Usb
