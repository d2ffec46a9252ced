import Mathlib.Data.List.Basic
import Reflash.Flash.Dump
import Reflash.Proofs.Actions
import Reflash.Proofs.Firmware.ChunkPlan
import Reflash.Proofs.Monitor

/-!
# Reflash.Proofs.Flash.Dump — a dump is what the camera answered

`Flash.readings` lists the replies to the requests for one chunk, as the dump judges them.  A dump that succeeds
has for every chunk some failures, fewer than it has attempts, and then one accepted reply (`Flash.ReadInto`);
it is these replies in the order of the chunks (`Flash.finishes_read_ok`).
-/

namespace Reflash

open Program

/-! ## Requests -/

namespace BackupConfig

variable (config : BackupConfig)

/-- The flash as something to be cut into chunks. -/
def plan : ChunkPlan := ⟨config.flashSize.toNat, config.chunkSize.toNat⟩

def offset (i : Nat) : UInt32 := UInt32.ofNat (i * config.stride)

def size (i : Nat) : UInt32 := UInt32.ofNat (min config.stride (config.flashSize.toNat - i * config.stride))

/-- The command that asks for chunk `i`. -/
def request (i : Nat) : Bytes := Monitor.flashRead (config.offset i) (config.size i)

theorem toNat_attempts : config.attempts.toNat = max config.maxAttempts.toNat 1 := by
  rw [attempts, UInt32.max_def]
  split
  · rename_i hle
    exact (Nat.max_eq_right (UInt32.le_iff_toNat_le.mp hle)).symm
  · rename_i hnot
    exact (Nat.max_eq_left (UInt32.le_iff_toNat_le.mp (UInt32.le_of_lt (UInt32.not_le.mp hnot)))).symm

theorem attempts_pos : 0 < config.attempts.toNat := by
  rw [toNat_attempts]
  exact Nat.le_max_right _ 1

variable {config} {i j : Nat}

theorem toNat_offset (hi : i < config.count) : (config.offset i).toNat = i * config.stride := by
  have h := config.plan.offset_lt hi
  exact UInt32.toNat_ofNat_of_lt' (Nat.lt_trans h config.flashSize.toNat_lt)

theorem toNat_size : (config.size i).toNat = (config.plan.chunk i).length := by
  have h : min config.stride (config.flashSize.toNat - i * config.stride) < 2 ^ 32 := by
    have := config.flashSize.toNat_lt
    omega
  exact UInt32.toNat_ofNat_of_lt' h

theorem request_inj (hi : i < config.count) (hj : j < config.count) (h : config.request i = config.request j) :
    i = j := by
  have hoffset := congrArg (fun bytes : Bytes => bytes.wordAt 8 4) h
  simp only [request, Monitor.flashRead, Monitor.wordAt_command_first, toNat_offset hi, toNat_offset hj] at hoffset
  exact Nat.eq_of_mul_eq_mul_right config.plan.stride_pos hoffset

end BackupConfig

/-! ## Replies -/

namespace Flash

variable {camera : Camera} {config : BackupConfig} {h : History} {i j : Nat}

/-- The reply to a request for chunk `i`, as the dump judges it. -/
def reading? (camera : Camera) (config : BackupConfig) (i : Nat) :
    Event (cameras.sum host) → Option (Except LinkError Bytes)
  | ⟨.inl (.exchange c request _), some reply⟩ =>
    if c = camera ∧ request = config.request i then some (checkLength (config.size i) reply) else none
  | _ => none

/-- The replies to the requests for chunk `i`, in order. -/
def readings (camera : Camera) (config : BackupConfig) (i : Nat) (h : History) : List (Except LinkError Bytes) :=
  h.filterMap (reading? camera config i)

/-- Chunk `i` was read: after some failures, fewer than there are attempts, one reply was accepted. -/
def ReadInto (camera : Camera) (config : BackupConfig) (i : Nat) (data : Bytes) (h : History) : Prop :=
  ∃ failures : List LinkError, readings camera config i h = failures.map .error ++ [.ok data] ∧
    failures.length < config.attempts.toNat ∧ data.length = (config.size i).toNat

/-- The flash was read whole: it is the accepted replies, one for each chunk, in the order of the chunks. -/
def Dumped (camera : Camera) (config : BackupConfig) (flash : Bytes) (h : History) : Prop :=
  ∃ piece : Nat → Bytes, flash = (List.range config.count).flatMap piece ∧
    ∀ i < config.count, ReadInto camera config i (piece i) h

/-- Chunk `i` was given up: every attempt at it failed. -/
def GivenUp (camera : Camera) (config : BackupConfig) (i : Nat) (h : History) : Prop :=
  ∃ failures : List LinkError, readings camera config i h = failures.map .error ∧
    config.attempts.toNat ≤ failures.length

@[simp] theorem readings_nil : readings camera config i [] = [] := rfl

@[simp] theorem readings_append (h₁ h₂ : History) :
    readings camera config i (h₁ ++ h₂) = readings camera config i h₁ ++ readings camera config i h₂ :=
  List.filterMap_append

@[simp] theorem readings_host (c : HostCall) (a? : Option c.Answer) (h : History) :
    readings camera config i (.told c a? :: h) = readings camera config i h := rfl

theorem readings_exchange (timeout : Nanos) (reply : Except LinkError Bytes) :
    readings camera config i [.asked (.exchange camera (config.request i) timeout) (some reply)] =
      [checkLength (config.size i) reply] := by
  simp [readings, reading?]

theorem readings_exchange_other (hi : i < config.count) (hj : j < config.count) (hne : i ≠ j) (timeout : Nanos)
    (reply : Except LinkError Bytes) :
    readings camera config j [.asked (.exchange camera (config.request i) timeout) (some reply)] = [] := by
  have hrequest : config.request i ≠ config.request j := fun heq => hne (BackupConfig.request_inj hi hj heq)
  simp [readings, reading?, hrequest]

/-- Where no hardware monitor is used, nothing is read. -/
theorem readings_eq_nil (hh : ∀ e ∈ h, kindOf e.call ≠ .exchange) : readings camera config i h = [] := by
  refine List.filterMap_eq_nil_iff.mpr fun e he => ?_
  have hk := hh e he
  unfold reading?
  split
  · exact absurd rfl hk
  · rfl

/-- An accepted reply has the length that was asked for. -/
theorem checkLength_eq_ok {size : UInt32} {reply : Except LinkError Bytes} {data : Bytes} :
    checkLength size reply = .ok data ↔ reply = .ok data ∧ data.length = size.toNat := by
  unfold checkLength
  split
  · rename_i data'
    split
    · rename_i hlen
      simp only [Except.ok.injEq]
      constructor
      · rintro rfl
        exact ⟨rfl, hlen⟩
      · exact And.left
    · rename_i hlen
      simp only [reduceCtorEq, Except.ok.injEq, false_iff]
      rintro ⟨rfl, hlen'⟩
      exact hlen hlen'
  · simp

/-! ## One chunk -/

/-- A chunk that was read in at most `left` attempts; no other chunk was asked for meanwhile. -/
theorem finishes_readChunk_ok {left : Nat} {last : LinkError} {data : Bytes} (hi : i < config.count)
    (hf : (readChunk camera config (config.offset i) (config.size i) left last).Finishes h (.ok data)) :
    (∃ failures : List LinkError, readings camera config i h = failures.map .error ++ [.ok data] ∧
      failures.length < left ∧ data.length = (config.size i).toNat) ∧
      ∀ j < config.count, i ≠ j → readings camera config j h = [] := by
  induction left generalizing last h with
  | zero => cases (finishes_done.mp hf).2
  | succ left ih =>
    simp only [readChunk, bind_eq, finishes_bind, finishes_ask] at hf
    obtain ⟨reply, h₁, h₂, rfl, rfl, hf⟩ := hf
    split at hf
    · rename_i accepted hcheck
      obtain ⟨rfl, hdata⟩ := finishes_done.mp hf
      obtain rfl := Except.ok.inj hdata
      refine ⟨⟨[], ?_, by simp, (checkLength_eq_ok.mp hcheck).2⟩, fun j hj hne => ?_⟩
      · rw [List.append_nil, ← hcheck]
        exact readings_exchange _ _
      · rw [List.append_nil]
        exact readings_exchange_other hi hj hne _ _
    · rename_i e hcheck
      simp only [finishes_bind, finishes_report] at hf
      obtain ⟨u, h₃, h₄, rfl, rfl, hf⟩ := hf
      obtain ⟨⟨failures, hreadings, hlen, hdata⟩, hothers⟩ := ih hf
      refine ⟨⟨e :: failures, ?_, by simpa using hlen, hdata⟩, fun j hj hne => ?_⟩
      · rw [readings_append, ← BackupConfig.request, readings_exchange, hcheck, readings_append, hreadings]
        rfl
      · rw [readings_append, ← BackupConfig.request, readings_exchange_other hi hj hne, readings_append,
          hothers j hj hne]
        rfl

/-! ## The whole dump -/

/-- A round of a dump: it heeds a stop, or asks for its chunk and then goes on or fails. -/
theorem finishes_readChunks_succ {progress : Single → Action Unit} {heedsStop : Bool} {left first : Nat}
    {done : List Bytes} {result : Except BackupError Bytes}
    (hprogress : ∀ x, (progress x).Only fun c => kindOf c ≠ .exchange) (hfirst : config.count - (left + 1) = first)
    (hf : (readChunks camera config progress heedsStop (left + 1) done).Finishes h result) :
    result = .error .stopped ∨ ∃ pre own post last, h = pre ++ (own ++ post) ∧
    (∀ e ∈ pre, kindOf e.call ≠ .exchange) ∧
      ((∃ data, (readChunk camera config (config.offset first) (config.size first) config.attempts.toNat
        last).Finishes own
          (.ok data) ∧ (readChunks camera config progress heedsStop left (data :: done)).Finishes post result) ∨
        ∃ e, (readChunk camera config (config.offset first) (config.size first) config.attempts.toNat
          last).Finishes own
          (.error e) ∧ post = [] ∧ result = .error (.chunkFailed (config.offset first) config.attempts e)) := by
  simp only [readChunks, bind_eq, finishes_bind, hfirst] at hf
  obtain ⟨stop, h₁, h₂, rfl, hstop, hf⟩ := hf
  split at hf
  · exact .inl (finishes_done.mp hf).2
  simp only [finishes_bind] at hf
  obtain ⟨u, h₃, h₄, rfl, hprog, reply, own, post, rfl, hchunk, hf⟩ := hf
  have hquiet : ∀ e ∈ h₁ ++ h₃, kindOf e.call ≠ .exchange := by
    have hstop' : (shouldStop heedsStop).Only fun c => kindOf c ≠ .exchange := only_shouldStop (by simp)
    intro e he
    rcases List.mem_append.mp he with he | he
    · exact hstop'.calls hstop.begins e he
    · exact (hprogress _).calls hprog.begins e he
  refine .inr ⟨h₁ ++ h₃, own, post, .failed "no attempt made", by simp, hquiet, ?_⟩
  cases reply with
  | ok data => exact .inl ⟨data, hchunk, hf⟩
  | error e =>
    obtain ⟨rfl, rfl⟩ := finishes_done.mp hf
    exact .inr ⟨e, hchunk, rfl, rfl⟩

/-- The chunk that was just read goes before the pieces that are read from there on. -/
theorem flatMap_update (piece : Nat → Bytes) (first left : Nat) (data : Bytes) :
    (List.range' first (left + 1)).flatMap (Function.update piece first data) =
      data ++ (List.range' (first + 1) left).flatMap piece := by
  rw [List.range'_succ, List.flatMap_cons, Function.update_self]
  congr 1
  refine List.flatMap_congr fun i hmem => ?_
  have := List.mem_range'_1.mp hmem
  exact Function.update_of_ne (by omega) _ _

theorem finishes_readChunks_ok {progress : Single → Action Unit} {heedsStop : Bool} {left : Nat}
    {done : List Bytes} {flash : Bytes} (hprogress : ∀ x, (progress x).Only fun c => kindOf c ≠ .exchange)
    (hleft : left ≤ config.count)
    (hf : (readChunks camera config progress heedsStop left done).Finishes h (.ok flash)) :
    ∃ piece : Nat → Bytes,
      flash = done.reverse.flatten ++ (List.range' (config.count - left) left).flatMap piece ∧
      (∀ i, config.count - left ≤ i → i < config.count → ReadInto camera config i (piece i) h) ∧
      ∀ j < config.count - left, readings camera config j h = [] := by
  induction left generalizing done h with
  | zero =>
    obtain ⟨rfl, hflash⟩ := finishes_done.mp hf
    obtain rfl := Except.ok.inj hflash
    exact ⟨fun _ => [], by simp, by omega, fun j hj => rfl⟩
  | succ left ih =>
    obtain ⟨first, hfirst⟩ : ∃ first, config.count - (left + 1) = first := ⟨_, rfl⟩
    have hnext : config.count - left = first + 1 := by omega
    rcases finishes_readChunks_succ hprogress hfirst hf with heq | ⟨pre, own, post, last, rfl, hpre,
      ⟨data, hchunk, hf⟩ | ⟨e, -, -, heq⟩⟩
    · cases heq
    · have hi : first < config.count := by omega
      obtain ⟨⟨failures, hreadings, hlen, hdata⟩, hothers⟩ := finishes_readChunk_ok hi hchunk
      obtain ⟨piece, rfl, hpieces, hbefore⟩ := ih (by omega) hf
      have hpre : ∀ j, readings camera config j pre = [] := fun j => readings_eq_nil hpre
      rw [hfirst]
      rw [hnext] at hpieces hbefore ⊢
      refine ⟨Function.update piece first data, ?_, fun i hle hlt => ?_, fun j hj => ?_⟩
      · rw [flatMap_update]
        simp
      · by_cases hifirst : i = first
        · subst hifirst
          refine ⟨failures, ?_, hlen, by simpa using hdata⟩
          simp [hpre, hreadings, hbefore i (by omega)]
        · obtain ⟨failures', hreadings', hlen', hdata'⟩ := hpieces i (by omega) hlt
          refine ⟨failures', ?_, hlen', by simpa [hifirst] using hdata'⟩
          simp [hpre, hothers i hlt (Ne.symm hifirst), hreadings', hifirst]
      · simp [hpre, hothers j (by omega) (by omega), hbefore j (by omega)]
    · cases heq

/-- Besides the chunks, a dump that succeeded has only notes of its end. -/
theorem readChunks_of_finishes_read {progress : Single → Action Unit} {heedsStop : Bool} {flash : Bytes}
    (hprogress : ∀ x, (progress x).Only fun c => kindOf c ≠ .exchange)
    (hf : (read camera config progress heedsStop).Finishes h (.ok flash)) : ∃ h₁ h₂, h = h₁ ++ h₂ ∧
      (readChunks camera config progress heedsStop config.count []).Finishes h₁ (.ok flash) ∧
      ∀ e ∈ h₂, kindOf e.call ≠ .exchange := by
  simp only [read, bind_eq, finishes_bind] at hf
  obtain ⟨result, h₁, h₂, rfl, hchunks, hf⟩ := hf
  split at hf
  · simp only [finishes_bind, finishes_report] at hf
    obtain ⟨u, h₃, h₄, rfl, hprog, u', h₅, h₆, rfl, rfl, hf⟩ := hf
    obtain ⟨rfl, hflash⟩ := finishes_done.mp hf
    obtain rfl := Except.ok.inj hflash
    refine ⟨h₁, _, rfl, hchunks, fun e he => ?_⟩
    rcases List.mem_append.mp he with he | he
    · exact (hprogress _).calls hprog.begins e he
    · obtain rfl : e = _ := by simpa using he
      simp
  · simp at hf

theorem finishes_read_ok {progress : Single → Action Unit} {heedsStop : Bool} {flash : Bytes}
    (hprogress : ∀ x, (progress x).Only fun c => kindOf c ≠ .exchange)
    (hf : (read camera config progress heedsStop).Finishes h (.ok flash)) : Dumped camera config flash h := by
  obtain ⟨h₁, h₂, rfl, hchunks, hquiet⟩ := readChunks_of_finishes_read hprogress hf
  obtain ⟨piece, rfl, hpieces, -⟩ := finishes_readChunks_ok hprogress (Nat.le_refl _) hchunks
  refine ⟨piece, by simp [List.range_eq_range'], fun i hi => ?_⟩
  obtain ⟨failures, hreadings, hlen, hdata⟩ := hpieces i (by omega) hi
  exact ⟨failures, by simp [readings_eq_nil hquiet, hreadings], hlen, hdata⟩

/-- A dump is as long as the flash. -/
theorem Dumped.length_eq {flash : Bytes} (hd : Dumped camera config flash h) :
    flash.length = config.flashSize.toNat := by
  obtain ⟨piece, rfl, hpieces⟩ := hd
  have hlengths : (List.range config.count).map (fun i => (piece i).length) =
      (List.range config.count).map fun i => (config.plan.chunk i).length := by
    refine List.map_congr_left fun i hmem => ?_
    obtain ⟨failures, -, -, hdata⟩ := hpieces i (List.mem_range.mp hmem)
    rw [hdata, BackupConfig.toNat_size]
  rw [List.length_flatMap, hlengths, config.plan.sum_length]
  exact Nat.min_eq_left config.plan.total_le

/-- Calls that do not use the hardware monitor make no difference to a dump. -/
theorem Dumped.congr {flash : Bytes} {h' : History} (hd : Dumped camera config flash h)
    (hreadings : ∀ i, readings camera config i h' = readings camera config i h) :
    Dumped camera config flash h' := by
  obtain ⟨piece, rfl, hpieces⟩ := hd
  refine ⟨piece, rfl, fun i hi => ?_⟩
  obtain ⟨failures, hread, hlen, hdata⟩ := hpieces i hi
  exact ⟨failures, (hreadings i).trans hread, hlen, hdata⟩

/-- No chunk of a dump was given up. -/
theorem Dumped.not_givenUp {flash : Bytes} (hd : Dumped camera config flash h) (hi : i < config.count) :
    ¬ GivenUp camera config i h := by
  rintro ⟨failures, hreadings, -⟩
  obtain ⟨piece, rfl, hpieces⟩ := hd
  obtain ⟨failures', hreadings', -, -⟩ := hpieces i hi
  have hmem : .ok (piece i) ∈ failures.map (Except.error : LinkError → Except LinkError Bytes) := by
    rw [← hreadings, hreadings']
    simp
  simp at hmem

theorem not_givenUp_of_readings_eq_nil (hnil : readings camera config i h = []) : ¬ GivenUp camera config i h := by
  rintro ⟨failures, hreadings, hlen⟩
  obtain rfl : failures = [] := by simpa [hnil] using hreadings
  have := config.attempts_pos
  simp only [List.length_nil] at hlen
  omega

/-- What a dump may call, besides what its progress calls. -/
@[simp] def dumpKinds : List CallKind := [.exchange, .log, .stop, .record]

/-- Every attempt at a chunk makes the same request. -/
theorem only_readChunk_of {P : (cameras.sum host).Call → Prop} {offset size : UInt32}
    (hrequest : P (.inl (.exchange camera (Monitor.flashRead offset size) config.requestTimeout)))
    (hlog : ∀ r, P (.inr (.log r))) (left : Nat) (last : LinkError) :
    (readChunk camera config offset size left last).Only P := by
  induction left generalizing last with
  | zero => trivial
  | succ left ih =>
    refine only_bind (only_ask.mpr hrequest) fun reply => ?_
    split
    · trivial
    · exact only_bind (only_report.mpr (hlog _)) fun _ => ih _

theorem only_readChunk (offset size : UInt32) (left : Nat) (last : LinkError) :
    (readChunk camera config offset size left last).Only (ofKinds [.exchange, .log]) :=
  only_readChunk_of (by simp) (by simp) left last

section Footprint

variable {P : (cameras.sum host).Call → Prop} {progress : Single → Action Unit}

theorem only_readChunks_of
    (hrequest : ∀ offset size,
      P (.inl (.exchange camera (Monitor.flashRead offset size) config.requestTimeout)))
    (hstop : P (.inr .stopRequested)) (hlog : ∀ r, P (.inr (.log r))) (hprogress : ∀ x, (progress x).Only P)
    (heedsStop : Bool) (left : Nat) (done : List Bytes) :
    (readChunks camera config progress heedsStop left done).Only P := by
  induction left generalizing done with
  | zero => trivial
  | succ left ih =>
    refine only_bind (only_shouldStop hstop) fun stop => ?_
    split
    · trivial
    refine only_bind (hprogress _) fun _ => only_bind (only_readChunk_of (hrequest _ _) hlog _ _) fun reply => ?_
    split
    · exact ih _
    · trivial

/-- A dump makes flash reads, heeds stops and writes diagnostic records, besides what its progress calls. -/
theorem only_read_of
    (hrequest : ∀ offset size,
      P (.inl (.exchange camera (Monitor.flashRead offset size) config.requestTimeout)))
    (hstop : P (.inr .stopRequested)) (hlog : ∀ r, P (.inr (.log r))) (hprogress : ∀ x, (progress x).Only P)
    (heedsStop : Bool) : (read camera config progress heedsStop).Only P := by
  refine only_bind (only_readChunks_of hrequest hstop hlog hprogress heedsStop _ _) fun result => ?_
  split
  · exact only_bind (hprogress _) fun _ => only_bind (only_report.mpr (hlog _)) fun _ => trivial
  · trivial

theorem only_read (hprogress : ∀ x, (progress x).Only (ofKinds dumpKinds)) (heedsStop : Bool) :
    (read camera config progress heedsStop).Only (ofKinds dumpKinds) :=
  only_read_of (by simp) (by simp) (by simp) hprogress heedsStop

end Footprint

/-! ## A dump comes to an end -/

variable {P : (cameras.sum host).Call → Prop}

theorem stallsAfter_readChunk (offset size : UInt32) (left : Nat) (last : LinkError) :
    (readChunk camera config offset size left last).StallsAfter P := by
  induction left generalizing last with
  | zero => trivial
  | succ left ih =>
    refine stallsAfter_bind (stallsAfter_ask _) fun reply => ?_
    split
    · trivial
    · exact stallsAfter_bind (stallsAfter_report _ _) fun _ => ih _

theorem stallsAfter_readChunks {progress : Single → Action Unit} (hprogress : ∀ x, (progress x).StallsAfter P)
    (heedsStop : Bool) (left : Nat) (done : List Bytes) :
    (readChunks camera config progress heedsStop left done).StallsAfter P := by
  induction left generalizing done with
  | zero => trivial
  | succ left ih =>
    refine stallsAfter_bind (stallsAfter_shouldStop _) fun stop => ?_
    split
    · trivial
    refine stallsAfter_bind (hprogress _) fun _ => stallsAfter_bind (stallsAfter_readChunk _ _ _ _) fun reply => ?_
    split
    · exact ih _
    · trivial

theorem stallsAfter_read {progress : Single → Action Unit} (hprogress : ∀ x, (progress x).StallsAfter P)
    (heedsStop : Bool) : (read camera config progress heedsStop).StallsAfter P := by
  refine stallsAfter_bind (stallsAfter_readChunks hprogress heedsStop _ _) fun result => ?_
  split
  · exact stallsAfter_bind (hprogress _) fun _ => stallsAfter_bind (stallsAfter_report _ _) fun _ => trivial
  · trivial

end Flash

end Reflash
