import Reflash.Dfu.Packet
import Reflash.Proofs.Bytes

/-!
# Reflash.Proofs.Dfu.StatusReply — what is read of the reply to a status query

A status is `ReadFrom` a reply if it is good only for a whole reply that says so, malformed for a short one, and
has every other field from its place in the reply.  That is the status that is decoded
(`DeviceStatus.readFrom_decode`), and it depends on the first six bytes alone (`DeviceStatus.decode_take`).
-/

namespace Reflash

/-! ## Codes and states -/

theorem StatusCode.ofByte_eq_ok_iff {b : UInt8} : StatusCode.ofByte b = .ok ↔ b = 0 := by
  constructor
  · intro h
    unfold ofByte at h
    split at h
    · rename_i hzero
      exact UInt8.toNat_inj.mp hzero
    all_goals cases h
  · rintro rfl
    rfl

/-- No byte stands for a reply that is too short. -/
theorem StatusCode.ofByte_ne_malformed (b : UInt8) : StatusCode.ofByte b ≠ .malformed := by
  unfold ofByte
  split <;> exact nofun

/-- The byte that a loader sends for a state. -/
def DfuState.byte : DfuState → UInt8
  | .appIdle => 0
  | .appDetach => 1
  | .dfuIdle => 2
  | .downloadSync => 3
  | .downloadBusy => 4
  | .downloadIdle => 5
  | .manifestSync => 6
  | .manifest => 7
  | .manifestWaitReset => 8
  | .uploadIdle => 9
  | .error => 10

namespace DfuState

variable {b : UInt8} {state : DfuState}

theorem ofByte?_eq_some_iff : ofByte? b = some state ↔ state.byte = b := by
  constructor
  · intro h
    unfold ofByte? at h
    split at h
    all_goals
      cases h
      try exact UInt8.toNat_inj.mp (Eq.symm ‹_›)
  · rintro rfl
    cases state <;> rfl

theorem exists_byte (hb : b ≤ 10) : ∃ state : DfuState, state.byte = b := by
  have hall : ∀ n : Fin 11, (ofByte? (UInt8.ofNat n)).isSome = true := by decide
  have hlt : b.toNat < 11 := Nat.lt_succ_of_le (UInt8.le_iff_toNat_le.mp hb)
  obtain ⟨state, hstate⟩ := Option.isSome_iff_exists.mp (hall ⟨b.toNat, hlt⟩)
  rw [UInt8.ofNat_toNat] at hstate
  exact ⟨state, ofByte?_eq_some_iff.mp hstate⟩

/-- A byte beyond those of the states stands for none. -/
theorem ofByte?_eq_none (hb : 10 < b.toNat) : ofByte? b = none := by
  unfold ofByte?
  split <;> first | rfl | omega

/-- Only the bytes below that of the error state stand for another state. -/
theorem getD_ne_error_iff : (ofByte? b).getD .error ≠ .error ↔ b ≤ 9 := by
  by_cases hb : b ≤ 10
  · obtain ⟨state, rfl⟩ := exists_byte hb
    rw [ofByte?_eq_some_iff.mpr rfl, Option.getD_some]
    cases state <;> decide
  · have hlt : 10 < b := UInt8.not_le.mp hb
    have hnot : ¬ b ≤ 9 := fun hle => hb (UInt8.le_trans hle (by decide))
    rw [ofByte?_eq_none (UInt8.lt_iff_toNat_lt.mp hlt)]
    simp [hnot]

end DfuState

namespace DeviceStatus

variable {reply reply' : Bytes}

/-! ## Replies -/

/-- The status of a reply: it is good, malformed or in a state just as the bytes say, and its other
fields are at their places. -/
structure ReadFrom (s : DeviceStatus) (reply : Bytes) : Prop where
  good : s.code = .ok ∧ s.state ≠ .error ↔
    6 ≤ reply.length ∧ reply[0]? = some 0 ∧ ∃ b, reply[4]? = some b ∧ b ≤ 9
  malformed : s.code = .malformed ↔ reply.length < 6
  stateOfShort : reply.length < 6 → s.state = .error
  state : 6 ≤ reply.length → ∀ b, reply[4]? = some b → (b ≤ 10 → s.state.byte = b) ∧ (10 < b → s.state = .error)
  pollMillis : 6 ≤ reply.length → s.pollMillis = reply.wordAt 1 3 ∧ s.pollMillis < Nat.pow 2 24
  stringIndex : 6 ≤ reply.length → reply[5]? = some s.stringIndex

theorem short_or_whole (reply : Bytes) :
    reply.length < 6 ∨ ∃ code p₀ p₁ p₂ state index rest,
      reply = code :: p₀ :: p₁ :: p₂ :: state :: index :: rest := by
  match reply with
  | [] | [_] | [_, _] | [_, _, _] | [_, _, _, _] | [_, _, _, _, _] => exact .inl (by simp)
  | code :: p₀ :: p₁ :: p₂ :: state :: index :: rest => exact .inr ⟨code, p₀, p₁, p₂, state, index, rest, rfl⟩

theorem decode_of_short (hshort : reply.length < 6) : decode reply = .malformed := by
  match reply, hshort with
  | [], _ | [_], _ | [_, _], _ | [_, _, _], _ | [_, _, _, _], _ | [_, _, _, _, _], _ => rfl
  | _ :: _ :: _ :: _ :: _ :: _ :: rest, hshort =>
    simp only [List.length_cons] at hshort
    omega

/-- Only the first six bytes matter. -/
theorem decode_take (reply : Bytes) : decode (reply.take 6) = decode reply := by
  rcases short_or_whole reply with hshort | ⟨code, p₀, p₁, p₂, state, index, rest, rfl⟩
  · rw [List.take_of_length_le (by omega)]
  · rfl

theorem readFrom_malformed (hshort : reply.length < 6) : ReadFrom .malformed reply where
  good := by
    constructor
    · rintro ⟨hok, -⟩
      cases hok
    · rintro ⟨hlong, -⟩
      omega
  malformed := ⟨fun _ => hshort, fun _ => rfl⟩
  stateOfShort _ := rfl
  state hlong := by omega
  pollMillis hlong := by omega
  stringIndex hlong := by omega

/-- What is decoded is the status of the reply. -/
theorem readFrom_decode (reply : Bytes) : (decode reply).ReadFrom reply := by
  rcases short_or_whole reply with hshort | ⟨code, p₀, p₁, p₂, state, index, rest, rfl⟩
  · rw [decode_of_short hshort]
    exact readFrom_malformed hshort
  have hlong : 6 ≤ (code :: p₀ :: p₁ :: p₂ :: state :: index :: rest).length := by simp
  refine ⟨?_, ?_, fun hshort => absurd hlong (Nat.not_le_of_lt hshort), fun _ b hb => ?_,
    fun _ => ?_, fun _ => rfl⟩
  · show StatusCode.ofByte code = .ok ∧ (DfuState.ofByte? state).getD .error ≠ .error ↔ _
    rw [StatusCode.ofByte_eq_ok_iff, DfuState.getD_ne_error_iff]
    constructor
    · rintro ⟨rfl, hstate⟩
      exact ⟨hlong, rfl, state, rfl, hstate⟩
    · rintro ⟨-, hcode, b, hb, hle⟩
      obtain rfl : code = 0 := Option.some.inj hcode
      obtain rfl : state = b := Option.some.inj hb
      exact ⟨rfl, hle⟩
  · exact ⟨fun hcode => absurd hcode (StatusCode.ofByte_ne_malformed code),
      fun hshort => absurd hlong (Nat.not_le_of_lt hshort)⟩
  · obtain rfl : state = b := Option.some.inj hb
    show (_ → ((DfuState.ofByte? state).getD .error).byte = state) ∧
        (_ → (DfuState.ofByte? state).getD .error = .error)
    constructor
    · intro hle
      obtain ⟨named, rfl⟩ := DfuState.exists_byte hle
      rw [DfuState.ofByte?_eq_some_iff.mpr rfl, Option.getD_some]
    · intro hlt
      rw [DfuState.ofByte?_eq_none (UInt8.lt_iff_toNat_lt.mp hlt), Option.getD_none]
  · have hlt : Bytes.value [p₀, p₁, p₂] < Nat.pow 256 3 := Bytes.value_lt [p₀, p₁, p₂]
    exact ⟨rfl, Nat.lt_of_lt_of_eq hlt (by decide)⟩

end DeviceStatus

end Reflash
