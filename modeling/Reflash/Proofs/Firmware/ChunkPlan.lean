import Mathlib.Algebra.Order.Floor.Div
import Mathlib.Algebra.Ring.Nat
import Mathlib.Tactic.Common
import Reflash.Bytes
import Reflash.Firmware.ChunkPlan

/-!
# Reflash.Proofs.Firmware.ChunkPlan — chunks cover what they cut

The chunks of a plan lie side by side from the first byte to the last, and none of them is empty.  So the
pieces that they cut from a byte string, put together again, are the string.  All of this holds of every
size of 64 bits, and a plan that is computed in words of 64 bits is the same plan (`chunks_tile`): no
step of it wraps around.
-/

namespace Reflash.ChunkPlan

variable (plan : ChunkPlan)

theorem stride_pos : 0 < plan.stride := by
  unfold stride
  omega

theorem total_le : plan.total ≤ plan.count * plan.stride := by
  have hs := plan.stride_pos
  have h := Nat.lt_div_mul_add (a := plan.total + plan.stride - 1) hs
  unfold count
  omega

theorem offset_lt {i : Nat} (hi : i < plan.count) : i * plan.stride < plan.total := by
  have hs := plan.stride_pos
  have h := (Nat.le_div_iff_mul_le hs).mp (show i + 1 ≤ (plan.total + plan.stride - 1) / plan.stride from hi)
  rw [Nat.succ_mul] at h
  omega

theorem count_pos (htotal : 0 < plan.total) : 0 < plan.count := by
  have h := plan.total_le
  by_contra hc
  rw [show plan.count = 0 by omega, Nat.zero_mul] at h
  omega

theorem length_chunks : plan.chunks.length = plan.count := by simp [chunks, take]

theorem chunks_eq : plan.chunks = (List.range plan.count).map plan.chunk := by simp [chunks, take]

theorem chunk_length_pos {i : Nat} (hi : i < plan.count) : 0 < (plan.chunk i).length := by
  have hs := plan.stride_pos
  have ho := plan.offset_lt hi
  simp only [chunk]
  omega

/-- A chunk ends where the next one begins, or with the last byte. -/
theorem chunk_length {i : Nat} (hi : i < plan.count) :
    (plan.chunk i).length = min plan.total ((i + 1) * plan.stride) - i * plan.stride := by
  have ho := plan.offset_lt hi
  simp only [chunk]
  rw [Nat.succ_mul]
  omega

theorem sum_length (n : Nat) :
    ((List.range n).map fun i => (plan.chunk i).length).sum = min plan.total (n * plan.stride) := by
  induction n with
  | zero => simp
  | succ n ih =>
    rw [List.range_succ, List.map_append, List.sum_append, ih, Nat.succ_mul]
    simp only [chunk, List.map_cons, List.map_nil, List.sum_cons, List.sum_nil]
    omega

/-- What a chunk cuts from a byte string. -/
def piece (bytes : Bytes) (i : Nat) : Bytes := (bytes.drop (i * plan.stride)).take (plan.chunk i).length

variable {plan} {bytes : Bytes}

theorem length_piece (hbytes : bytes.length = plan.total) (i : Nat) :
    (plan.piece bytes i).length = (plan.chunk i).length := by
  simp only [piece, chunk, List.length_take, List.length_drop]
  omega

/-- A piece goes up to the next one, or to the end. -/
theorem piece_eq_extract {i : Nat} (hi : i < plan.count) :
    plan.piece bytes i = bytes.extract (i * plan.stride) (min plan.total ((i + 1) * plan.stride)) := by
  rw [piece, plan.chunk_length hi, List.extract_eq_take_drop]

/-- A chunk says where its piece lies. -/
theorem piece_eq_extract_chunk (i : Nat) :
    plan.piece bytes i = bytes.extract (plan.chunk i).offset ((plan.chunk i).offset + (plan.chunk i).length) := by
  rw [List.extract_eq_take_drop, Nat.add_sub_cancel_left]
  rfl

/-- A plan cuts nothing beyond its total. -/
theorem piece_take (i : Nat) : plan.piece (bytes.take plan.total) i = plan.piece bytes i := by
  have hlength : (plan.chunk i).length ≤ plan.total - i * plan.stride := Nat.min_le_right _ _
  rw [piece, List.drop_take, List.take_take, Nat.min_eq_left hlength, piece]

theorem piece_eq_take (hbytes : bytes.length = plan.total) (i : Nat) :
    plan.piece bytes i = (bytes.drop (i * plan.stride)).take plan.stride := by
  rw [piece, chunk]
  dsimp only
  rw [← hbytes, ← List.length_drop, ← List.take_take, List.take_length]

/-- The piece after another one begins where that one ended. -/
theorem drop_piece (hbytes : bytes.length = plan.total) (i : Nat) :
    (bytes.drop (i * plan.stride)).drop (plan.chunk i).length = bytes.drop ((i + 1) * plan.stride) := by
  rw [List.drop_drop, Nat.succ_mul]
  by_cases h : i * plan.stride + plan.stride ≤ plan.total
  · congr 1
    simp only [chunk]
    omega
  · rw [List.drop_of_length_le, List.drop_of_length_le]
    · omega
    · simp only [chunk]
      omega

theorem flatMap_piece_range (hbytes : bytes.length = plan.total) (n : Nat) :
    (List.range n).flatMap (plan.piece bytes) = bytes.take (n * plan.stride) := by
  induction n with
  | zero => simp
  | succ n ih =>
    rw [List.range_succ, List.flatMap_append, ih, Nat.succ_mul, List.take_add]
    simp [piece_eq_take hbytes]

/-- The pieces together are the byte string. -/
theorem flatMap_piece (hbytes : bytes.length = plan.total) :
    (List.range plan.count).flatMap (plan.piece bytes) = bytes := by
  rw [flatMap_piece_range hbytes]
  exact List.take_of_length_le (hbytes ▸ plan.total_le)

/-! ## Tilings -/

/-- The chunks lie side by side from `start` to `stop`. -/
def Tiles : Nat → List Chunk → Nat → Prop
  | start, [], stop => start = stop
  | start, chunk :: rest, stop => chunk.offset = start ∧ Tiles (start + chunk.length) rest stop

theorem Tiles.concat {start middle : Nat} {chunks : List Chunk} {chunk : Chunk}
    (hchunks : Tiles start chunks middle) (hchunk : chunk.offset = middle) :
    Tiles start (chunks ++ [chunk]) (middle + chunk.length) := by
  induction chunks generalizing start with
  | nil =>
    obtain rfl : start = middle := hchunks
    exact ⟨hchunk, rfl⟩
  | cons first rest ih =>
    obtain ⟨hfirst, hrest⟩ := hchunks
    exact ⟨hfirst, ih hrest⟩

variable (plan)

theorem count_eq_ceilDiv : plan.count = plan.total ⌈/⌉ plan.stride := (Nat.ceilDiv_eq_add_pred_div _ _).symm

theorem tiles_take {n : Nat} (hn : n ≤ plan.count) :
    Tiles 0 ((List.range n).map plan.chunk) (min plan.total (n * plan.stride)) := by
  induction n with
  | zero => simp [Tiles]
  | succ n ih =>
    have hoffset := plan.offset_lt hn
    have htiles := ih (Nat.le_of_succ_le hn)
    rw [Nat.min_eq_right (Nat.le_of_lt hoffset)] at htiles
    have hstop : n * plan.stride + (plan.chunk n).length = min plan.total ((n + 1) * plan.stride) := by
      simp only [chunk, Nat.succ_mul]
      omega
    rw [List.range_succ, List.map_append, List.map_singleton, ← hstop]
    exact htiles.concat rfl

theorem tiles_chunks : Tiles 0 plan.chunks plan.total := by
  have htiles := plan.tiles_take (Nat.le_refl plan.count)
  rwa [Nat.min_eq_left plan.total_le, ← chunks_eq] at htiles

theorem sum_length_chunks : (plan.chunks.map Chunk.length).sum = plan.total := by
  rw [chunks_eq, List.map_map]
  exact (plan.sum_length plan.count).trans (Nat.min_eq_left plan.total_le)

/-- A chunk with another one behind it is as long as a chunk can be. -/
theorem length_of_succ_lt {i : Nat} (hi : i + 1 < plan.count) : (plan.chunk i).length = plan.stride := by
  have hoffset := plan.offset_lt hi
  rw [Nat.succ_mul] at hoffset
  simp only [chunk]
  omega

/-- No chunk goes beyond the total. -/
theorem stop_le {i : Nat} (hi : i < plan.count) : (plan.chunk i).offset + (plan.chunk i).length ≤ plan.total := by
  have hoffset := plan.offset_lt hi
  simp only [chunk]
  omega

theorem chunk_of_getElem? {i : Nat} {chunk : Chunk} (hi : plan.chunks[i]? = some chunk) :
    i < plan.count ∧ chunk = plan.chunk i := by
  obtain ⟨hlt, rfl⟩ := List.getElem?_eq_some_iff.mp hi
  exact ⟨plan.length_chunks ▸ hlt, by simp [chunks, take]⟩

/-! ## In words -/

/-- The chunks of a plan as words of 64 bits compute them, each of whose operations may wrap around. -/
def wordChunks (total maxChunk : UInt64) : List Chunk :=
  let stride := max maxChunk 1
  let count := total / stride + if total % stride = 0 then 0 else 1
  (List.range count.toNat).map fun i =>
    let offset := .ofNat i * stride
    { offset := offset.toNat
      length := (min stride (total - offset)).toNat
      transaction := (UInt64.ofNat i).toUInt16 }

/-- One more chunk is for the bytes that the whole chunks leave over. -/
theorem count_eq_div_add :
    plan.count = plan.total / plan.stride + if plan.total % plan.stride = 0 then 0 else 1 := by
  have hpos := plan.stride_pos
  have hover := Nat.mod_lt plan.total hpos
  have htotal := Nat.div_add_mod' plan.total plan.stride
  unfold count
  by_cases hexact : plan.total % plan.stride = 0
  · rw [if_pos hexact, Nat.add_zero]
    refine Nat.div_eq_of_lt_le ?_ ?_
    · omega
    · rw [Nat.succ_mul]
      omega
  · rw [if_neg hexact]
    refine Nat.div_eq_of_lt_le ?_ ?_
    · rw [Nat.succ_mul]
      omega
    · rw [Nat.succ_mul, Nat.succ_mul]
      omega

/-- There are no more chunks than bytes. -/
theorem count_le_total : plan.count ≤ plan.total := by
  by_contra hlt
  have hoffset := plan.offset_lt (Nat.lt_of_not_le hlt)
  have hpos := plan.stride_pos
  exact absurd (Nat.le_mul_of_pos_right plan.total hpos) (Nat.not_le.mpr hoffset)

section Words

variable (total maxChunk : UInt64)

/-- The plan of a size and a limit of 64 bits. -/
abbrev ofWords : ChunkPlan := ⟨total.toNat, maxChunk.toNat⟩

theorem toNat_stride : (max maxChunk 1).toNat = (ofWords total maxChunk).stride := UInt64.toNat_max maxChunk 1

theorem toNat_count : (total / max maxChunk 1 + if total % max maxChunk 1 = 0 then 0 else 1).toNat =
    (ofWords total maxChunk).count := by
  have hfits : (ofWords total maxChunk).count < 2 ^ 64 := Nat.lt_of_le_of_lt (count_le_total _) total.toNat_lt
  have hexact : total % max maxChunk 1 = 0 ↔ total.toNat % (ofWords total maxChunk).stride = 0 := by
    rw [← UInt64.toNat_inj, UInt64.toNat_mod, toNat_stride total]
    rfl
  have hmore : (if total % max maxChunk 1 = 0 then 0 else 1 : UInt64).toNat =
      if total.toNat % (ofWords total maxChunk).stride = 0 then 0 else 1 := by
    simp only [hexact]
    split <;> rfl
  rw [UInt64.toNat_add, UInt64.toNat_div, toNat_stride total, hmore]
  rw [count_eq_div_add] at hfits ⊢
  exact Nat.mod_eq_of_lt hfits

/-- No operation wraps around: words of 64 bits compute the plan itself. -/
theorem wordChunks_eq : wordChunks total maxChunk = (ofWords total maxChunk).chunks := by
  rw [wordChunks, chunks_eq, toNat_count]
  refine List.map_congr_left fun i hi => ?_
  have hoffset := (ofWords total maxChunk).offset_lt (List.mem_range.mp hi)
  have htotal := total.toNat_lt
  have hi : (UInt64.ofNat i).toNat = i := by
    refine UInt64.toNat_ofNat_of_lt' ?_
    have hle := Nat.le_mul_of_pos_right i (ofWords total maxChunk).stride_pos
    exact Nat.lt_of_le_of_lt hle (Nat.lt_trans hoffset htotal)
  have hproduct : (UInt64.ofNat i * max maxChunk 1).toNat = i * (ofWords total maxChunk).stride := by
    rw [UInt64.toNat_mul, hi, toNat_stride total]
    exact Nat.mod_eq_of_lt (Nat.lt_trans hoffset htotal)
  have hleft : (total - UInt64.ofNat i * max maxChunk 1).toNat =
      total.toNat - i * (ofWords total maxChunk).stride := by
    have hle : UInt64.ofNat i * max maxChunk 1 ≤ total := by
      rw [UInt64.le_iff_toNat_le, hproduct]
      exact Nat.le_of_lt hoffset
    rw [UInt64.toNat_sub_of_le _ _ hle, hproduct]
  dsimp only [chunk]
  rw [UInt64.toNat_min, hproduct, hleft, toNat_stride total, UInt64.toUInt16_ofNat']

end Words

/-! ## The tiling -/

/-- Every size of 64 bits is cut into chunks whose number is the size divided by the limit, rounded up, where a
limit of zero counts as one.  The chunks lie side by side and make up the whole; all but the last are as long as
the limit, and the last is not empty and no longer; and they are numbered modulo `2 ^ 16`.  No number on the way
is beyond 64 bits, so words of 64 bits compute the same plan. -/
theorem chunks_tile (total maxChunk : UInt64) :
    let stride := max maxChunk.toNat 1
    let chunks := (ofWords total maxChunk).chunks
    chunks.length = total.toNat ⌈/⌉ stride ∧
    Tiles 0 chunks total.toNat ∧
    (chunks.map Chunk.length).sum = total.toNat ∧
    (∀ i chunk, chunks[i]? = some chunk →
      chunk.offset = i * stride ∧
      (i + 1 < chunks.length → chunk.length = stride) ∧
      1 ≤ chunk.length ∧ chunk.length ≤ stride ∧
      chunk.transaction.toNat = i % 2 ^ 16 ∧
      i * stride < 2 ^ 64 ∧ chunk.offset ≤ total.toNat ∧ chunk.offset + chunk.length < 2 ^ 64) ∧
    wordChunks total maxChunk = chunks := by
  intro stride chunks
  have htotal := total.toNat_lt
  refine ⟨?_, tiles_chunks _, sum_length_chunks _, fun i chunk hchunk => ?_, wordChunks_eq total maxChunk⟩
  · rw [length_chunks, count_eq_ceilDiv]
    rfl
  · obtain ⟨hi, rfl⟩ := chunk_of_getElem? _ hchunk
    have hoffset := offset_lt _ hi
    have hstop := stop_le _ hi
    refine ⟨rfl, fun hnext => length_of_succ_lt _ ((length_chunks _) ▸ hnext), chunk_length_pos _ hi,
      Nat.min_le_left _ _, UInt16.toNat_ofNat', ?_, ?_, ?_⟩
    · exact Nat.lt_trans hoffset htotal
    · exact Nat.le_of_lt hoffset
    · exact Nat.lt_of_le_of_lt hstop htotal

/-- The largest size, in two chunks. -/
theorem chunks_tile_largest :
    let chunks := (ofWords 0xFFFFFFFFFFFFFFFF 0x8000000000000000).chunks
    chunks[1]? = some ⟨2 ^ 63, 2 ^ 63 - 1, 1⟩ ∧ 2 ^ 63 + (2 ^ 63 - 1) < 2 ^ 64 ∧
      wordChunks 0xFFFFFFFFFFFFFFFF 0x8000000000000000 = chunks := by
  intro chunks
  have hsecond : chunks[1]? = some ⟨2 ^ 63, 2 ^ 63 - 1, 1⟩ := by decide +kernel
  obtain ⟨-, -, -, heach, hwords⟩ := chunks_tile 0xFFFFFFFFFFFFFFFF 0x8000000000000000
  obtain ⟨-, -, -, -, -, -, -, hstop⟩ := heach 1 _ hsecond
  exact ⟨hsecond, hstop, hwords⟩

end Reflash.ChunkPlan
