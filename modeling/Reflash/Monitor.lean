import Reflash.Bytes

/-!
# Reflash.Monitor — commands of the hardware monitor

A camera in normal mode takes commands of 24 bytes: the length of the rest, a magic word, an opcode and four
parameters.  Its reply begins with the opcode.
-/

namespace Reflash.Monitor

/-- The length of a command. -/
def commandLength : Nat := 24

/-- The word that marks a command. -/
def magic : UInt16 := 0xCDAB

/-- Reads a piece of the flash; the parameters are offset and size. -/
def readFlash : UInt32 := 0x09

/-- Reboots the camera into recovery mode. -/
def enterRecovery : UInt32 := 0x1E

/-- Reads the version data of the camera. -/
def versionData : UInt32 := 0x10

/-- Where the packed firmware version lies inside the version data. -/
def versionOffset : Nat := 12

/-- How a flash read begins: length, magic word, opcode. -/
def flashReadHeader : Bytes := [0x14, 0x00, 0xAB, 0xCD, 0x09, 0x00, 0x00, 0x00]

/-- The capacity of the flash. -/
def flashSize : UInt32 := 0x00200000

/-- The most flash bytes that one reply carries. -/
def maxFlashRead : UInt32 := 1016

/-- A command with its four parameters. -/
def command (opcode p₀ p₁ p₂ p₃ : UInt32) : Bytes :=
  littleEndian 2 (commandLength - 4) ++ littleEndian 2 magic.toNat ++ littleEndian 4 opcode.toNat
    ++ littleEndian 4 p₀.toNat ++ littleEndian 4 p₁.toNat ++ littleEndian 4 p₂.toNat ++ littleEndian 4 p₃.toNat

/-- The command that reads `size` bytes of flash from `offset`. -/
def flashRead (offset size : UInt32) : Bytes := command readFlash offset size 0 0

/-- What follows the echo of the opcode in a reply; `none` if the reply does not begin with the opcode of
`request`. -/
def reply? (request reply : Bytes) : Option Bytes :=
  if 4 ≤ reply.length ∧ 8 ≤ request.length ∧ reply.take 4 = request.slice 4 4 then some (reply.drop 4) else none

end Reflash.Monitor
