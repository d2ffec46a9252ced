import Reflash.Dfu.Wait
import Reflash.Proofs.Bytes
import Reflash.Proofs.Runs

/-!
# Reflash.Proofs.Dfu.LoaderStatus — what is read of a firmware status block

A status is `HeldBy` a block if each field stands at its place, and a block of 68 bytes or more holds exactly
one, the one that is read from it (`parse?_eq_some_iff`, `exists_heldBy_iff`).  The serial number in it is
written as pairs of hexadecimal digits, which can be read back (`readPairs?_upperPairs`), so that different
units have different texts (`serialNumber_inj`).
-/

namespace Reflash

/-! ## Pairs of hexadecimal digits -/

namespace Text

/-- The upper-case hexadecimal digits, each at the place of its value. -/
def upperDigits : List Char := ['0', '1', '2', '3', '4', '5', '6', '7', '8', '9', 'A', 'B', 'C', 'D', 'E', 'F']

/-- The bytes that pairs of upper-case digits stand for, high half first; `none` for any other text. -/
def readPairs? : List Char → Option Bytes
  | [] => some []
  | [_] => none
  | high :: low :: rest =>
    match upperDigits.idxOf? high, upperDigits.idxOf? low, readPairs? rest with
    | some x, some y, some bytes => some (UInt8.ofNat (16 * x + y) :: bytes)
    | _, _, _ => none

/-- The digit of a number stands at its place. -/
theorem idxOf?_upperDigit {n : Nat} (hn : n < 16) : upperDigits.idxOf? (upperDigit n) = some n := by
  have hall : ∀ n : Fin 16, upperDigits.idxOf? (upperDigit n) = some n.val := by decide
  exact hall ⟨n, hn⟩

theorem upperDigit_mem {n : Nat} (hn : n < 16) : upperDigit n ∈ upperDigits := by
  have hall : ∀ n : Fin 16, upperDigit n ∈ upperDigits := by decide
  exact hall ⟨n, hn⟩

variable (bytes : Bytes)

/-- What is written of some bytes is read back as these bytes. -/
theorem readPairs?_upperPairs : readPairs? (bytes.flatMap upperPair) = some bytes := by
  induction bytes with
  | nil => rfl
  | cons b rest ih =>
    have hb : b.toNat < 256 := b.toNat_lt
    have hhigh := idxOf?_upperDigit (n := b.toNat / 16) (by omega)
    have hlow := idxOf?_upperDigit (n := b.toNat % 16) (by omega)
    have hback : UInt8.ofNat (16 * (b.toNat / 16) + b.toNat % 16) = b := by
      rw [Nat.div_add_mod, UInt8.ofNat_toNat]
    show readPairs? (upperDigit (b.toNat / 16) :: upperDigit (b.toNat % 16) :: rest.flatMap upperPair) = _
    rw [readPairs?, hhigh, hlow, ih]
    exact congrArg (fun b => some (b :: rest)) hback

theorem mem_upperDigits_of_mem_upperPairs : ∀ c ∈ bytes.flatMap upperPair, c ∈ upperDigits := by
  intro c hc
  obtain ⟨b, -, hc⟩ := List.mem_flatMap.mp hc
  have hb : b.toNat < 256 := b.toNat_lt
  obtain rfl | rfl : c = upperDigit (b.toNat / 16) ∨ c = upperDigit (b.toNat % 16) := by simpa [upperPair] using hc
  · exact upperDigit_mem (by omega)
  · exact upperDigit_mem (by omega)

theorem length_upperPairs : (bytes.flatMap upperPair).length = 2 * bytes.length := by
  induction bytes with
  | nil => rfl
  | cons b rest ih =>
    rw [List.flatMap_cons, List.length_append, ih, List.length_cons]
    show 2 + _ = _
    omega

end Text

/-! ## Blocks -/

namespace LoaderStatus

variable {raw raw' : Bytes} {s s' : LoaderStatus}

/-- A block is long enough, and it holds every field of a status at its place, words with the low byte first. -/
structure HeldBy (s : LoaderStatus) (raw : Bytes) : Prop where
  long : 68 ≤ raw.length
  lastVersion : raw.slice 4 4 = littleEndian 4 s.lastVersion.toNat
  highestVersion : raw.slice 8 4 = littleEndian 4 s.highestVersion.toNat
  downloadStatus : raw.slice 12 2 = littleEndian 2 s.downloadStatus.toNat
  locked : s.locked = true ↔ raw.slice 14 2 ≠ littleEndian 2 0
  dfuRevision : raw.slice 16 2 = littleEndian 2 s.dfuRevision.toNat
  serial : raw.slice 18 6 = s.serial

/-- What is read from a block is what it holds. -/
theorem parse?_eq_some_iff : parse? raw = some s ↔ s.HeldBy raw := by
  unfold parse?
  split
  · rename_i hshort
    exact ⟨nofun, fun h => absurd h.long (Nat.not_le_of_lt hshort)⟩
  rename_i hlong
  have hlong : 68 ≤ raw.length := Nat.le_of_not_lt hlong
  have word32 {start : Nat} (hstart : start + 4 ≤ 68) (n : UInt32) :
      UInt32.ofNat (raw.wordAt start 4) = n ↔ raw.slice start 4 = littleEndian 4 n.toNat := by
    rw [Bytes.slice_eq_littleEndian_iff (Nat.le_trans hstart hlong) n.toNat_lt, ← UInt32.toNat_inj,
      UInt32.toNat_ofNat_of_lt' (Bytes.wordAt_lt raw start 4)]
  have word16 {start : Nat} (hstart : start + 2 ≤ 68) (n : UInt16) :
      UInt16.ofNat (raw.wordAt start 2) = n ↔ raw.slice start 2 = littleEndian 2 n.toNat := by
    rw [Bytes.slice_eq_littleEndian_iff (Nat.le_trans hstart hlong) n.toNat_lt, ← UInt16.toNat_inj,
      UInt16.toNat_ofNat_of_lt' (Bytes.wordAt_lt raw start 2)]
  have hlocked : raw.wordAt 14 2 ≠ 0 ↔ raw.slice 14 2 ≠ littleEndian 2 0 :=
    not_congr (Bytes.slice_eq_littleEndian_iff (by omega) (by decide)).symm
  rw [Option.some.injEq]
  constructor
  · rintro rfl
    exact ⟨hlong, (word32 (by decide) _).mp rfl, (word32 (by decide) _).mp rfl, (word16 (by decide) _).mp rfl,
      by simpa using hlocked, (word16 (by decide) _).mp rfl, rfl⟩
  · intro h
    have hlocked' : decide (raw.wordAt 14 2 ≠ 0) = s.locked := by
      rw [Bool.eq_iff_iff, decide_eq_true_iff, hlocked, h.locked]
    cases s
    simp only [mk.injEq]
    exact ⟨(word32 (by decide) _).mpr h.lastVersion, (word32 (by decide) _).mpr h.highestVersion,
      (word16 (by decide) _).mpr h.downloadStatus, hlocked', (word16 (by decide) _).mpr h.dfuRevision, h.serial⟩

theorem exists_heldBy_iff : (∃ s : LoaderStatus, s.HeldBy raw) ↔ 68 ≤ raw.length := by
  constructor
  · rintro ⟨s, h⟩
    exact h.long
  · intro hlong
    have hread : ∃ s, parse? raw = some s := ⟨_, if_neg (Nat.not_lt.mpr hlong)⟩
    exact hread.imp fun s => parse?_eq_some_iff.mp

theorem HeldBy.length_serial (h : s.HeldBy raw) : s.serial.length = 6 := by
  have hlong := h.long
  rw [← h.serial, Bytes.length_slice]
  omega

/-- The loaders that report the serial number are told by the word in the block. -/
theorem HeldBy.supportsIdentity_iff (h : s.HeldBy raw) : s.supportsIdentity = true ↔ 25 ≤ raw.wordAt 16 2 := by
  have hlong := h.long
  have hword : raw.wordAt 16 2 = s.dfuRevision.toNat :=
    (Bytes.slice_eq_littleEndian_iff (by omega) s.dfuRevision.toNat_lt).mp h.dfuRevision
  rw [hword, supportsIdentity, decide_eq_true_iff, UInt16.le_iff_toNat_le]
  exact .rfl

/-- Different serial numbers have different texts. -/
theorem serialNumber_inj : s.serialNumber = s'.serialNumber ↔ s.serial = s'.serial := by
  constructor
  · intro h
    have hread := congrArg Text.readPairs? (String.ofList_injective h)
    rw [Text.readPairs?_upperPairs, Text.readPairs?_upperPairs] at hread
    exact Option.some.inj hread
  · intro h
    rw [serialNumber, serialNumber, h]

end LoaderStatus

/-! ## Reading -/

/-- What the payload of an UPLOAD is taken for. -/
def LoaderStatus.ofPayload (payload : Bytes) : Except LinkError LoaderStatus :=
  match parse? payload with
  | some status => .ok status
  | none => .error (.failed "short firmware status block")

theorem LoaderStatus.ofPayload_eq_ok_iff {payload : Bytes} {s : LoaderStatus} :
    ofPayload payload = .ok s ↔ s.HeldBy payload := by
  rw [ofPayload, ← parse?_eq_some_iff]
  split <;> simp [*]

open Program in
/-- Over a channel that has carried out both requests, the status is what the payload of the second is taken
for. -/
theorem finishes_readLoaderStatus {I : Interface}
    {transfer : ControlPacket → Nanos → Program I (Except LinkError ControlPacket)} {timeout : Nanos}
    {h₁ h₂ : List (Event I)} {detached packet : ControlPacket} {result : Except LinkError LoaderStatus}
    (hdetach : (transfer (.detach ControlPacket.defaultDetachMillis) timeout).Finishes h₁ (.ok detached))
    (hupload : (transfer (.upload LoaderStatus.blockLength) timeout).Finishes h₂ (.ok packet)) :
    (readLoaderStatus transfer timeout).Finishes (h₁ ++ h₂) result ↔
    result = LoaderStatus.ofPayload packet.payload := by
  have hread : (readLoaderStatus transfer timeout).Finishes (h₁ ++ h₂)
      (LoaderStatus.ofPayload packet.payload) := by
    refine finishes_bind.mpr ⟨_, h₁, h₂, rfl, hdetach, finishes_bind.mpr ⟨_, h₂, [], by simp, hupload, ?_⟩⟩
    dsimp only
    rw [LoaderStatus.ofPayload]
    cases LoaderStatus.parse? packet.payload <;> exact .done _
  constructor
  · exact fun h => (h.unique hread (rfl : _ ++ [] = _ ++ [])).2.2
  · rintro rfl
    exact hread

end Reflash
