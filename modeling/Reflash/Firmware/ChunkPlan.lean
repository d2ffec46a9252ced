/-!
# Reflash.Firmware.ChunkPlan — how an image is cut into downloads

`total` bytes are cut into consecutive chunks of `maxChunk` bytes, the last one shorter where it has to be; a
limit of zero counts as one.  Chunks are numbered from zero, modulo `2 ^ 16`.
-/

namespace Reflash

/-- One piece of an image, sent as a single download. -/
structure Chunk where
  offset : Nat
  length : Nat
  transaction : UInt16
  deriving DecidableEq

/-- The size of an image and the most that one download may carry. -/
structure ChunkPlan where
  total : Nat
  maxChunk : Nat

namespace ChunkPlan

/-- The length of every chunk but the last. -/
def stride (plan : ChunkPlan) : Nat := max plan.maxChunk 1

def count (plan : ChunkPlan) : Nat := (plan.total + plan.stride - 1) / plan.stride

/-- Chunk `i`, for `i` below `count`. -/
def chunk (plan : ChunkPlan) (i : Nat) : Chunk :=
  let offset := i * plan.stride
  { offset := offset
    length := min plan.stride (plan.total - offset)
    transaction := UInt16.ofNat i }

/-- The first `n` chunks, or all if there are fewer. -/
def take (plan : ChunkPlan) (n : Nat) : List Chunk := (List.range (min n plan.count)).map plan.chunk

def chunks (plan : ChunkPlan) : List Chunk := plan.take plan.count

end ChunkPlan

end Reflash
