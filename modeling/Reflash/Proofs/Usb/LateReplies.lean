import Reflash.Proofs.Flash.Relayed
import Reflash.Proofs.Usb.Calls
import Reflash.Proofs.Usb.Unsteady

/-!
# Reflash.Proofs.Usb.LateReplies — a dump behind late replies

A hardware monitor queues one reply to each command (`ReplyQueue`).  A read that times out leaves its reply in
the queue, and the next exchange finds it there; as an exchange looks only at the opcode and the dump only at
the length, it is taken for the answer.  From then on all replies are behind.  So the chunks of a dump are
chunks of the flash, but each of them may be an earlier one, by as many places as reads were late (`dump_lags`).
-/

namespace Reflash

open Program

/-- The replies to flash reads are the echo of the opcode and the bytes that were asked for. -/
def Monitor.Serves (answer : Bytes → Bytes) (flash : Bytes) : Prop :=
  ∀ offset size : UInt32, offset.toNat + size.toNat ≤ flash.length →
    answer (flashRead offset size) = littleEndian 4 readFlash.toNat ++ flash.slice offset.toNat size.toNat

namespace Usb

variable {σ : Type} {env : Environment (bus.sum host) σ} {m : MonitorChannel} {answer : Bytes → Bytes}

/-- A hardware monitor that queues the reply to every command it takes, on a bus where a read brings the oldest
reply, or times out and leaves it where it is. -/
structure ReplyQueue (env : Environment (bus.sum host) σ) (m : MonitorChannel) (answer : Bytes → Bytes) where
  /-- The commands whose replies have not been read, oldest first. -/
  pending : σ → List Bytes
  taken : ∀ s data millis, (env (.inl (.bulkOut m.handle m.out data millis)) s).1 = some (.ok ()) →
    pending (env (.inl (.bulkOut m.handle m.out data millis)) s).2 = pending s ++ [data]
  refused : ∀ s data millis e, (env (.inl (.bulkOut m.handle m.out data millis)) s).1 = some (.error e) →
    pending (env (.inl (.bulkOut m.handle m.out data millis)) s).2 = pending s
  delivered : ∀ s length millis reply, (env (.inl (.bulkIn m.handle m.input length millis)) s).1 =
    some (.ok reply) →
    ∃ oldest, pending s = oldest :: pending (env (.inl (.bulkIn m.handle m.input length millis)) s).2 ∧
      reply = (answer oldest).take length
  late : ∀ s length millis e, (env (.inl (.bulkIn m.handle m.input length millis)) s).1 = some (.error e) →
    e = .timeout ∧ pending (env (.inl (.bulkIn m.handle m.input length millis)) s).2 = pending s
  /-- The host has no part in it. -/
  apart : ∀ s c, pending (env (.inr c) s).2 = pending s

/-- Whether a reply was not there in time. -/
def isLate (m : MonitorChannel) : Event (bus.sum host) → Bool
  | ⟨.inl (.bulkIn h endpoint _ _), some (.error .timeout)⟩ => h = m.handle && endpoint = m.input
  | _ => false

/-- How many reads of replies were late. -/
def lateReads (m : MonitorChannel) (H : BusHistory) : Nat := H.countP (isLate m)

@[simp] theorem lateReads_nil : lateReads m [] = 0 := rfl

@[simp] theorem lateReads_append (H₁ H₂ : BusHistory) : lateReads m (H₁ ++ H₂) = lateReads m H₁ + lateReads m H₂ :=
  List.countP_append

/-- What a read brings in. -/
abbrev received? (answer : Bytes → Bytes) (request : Bytes) : Bytes := (answer request).take maxReply

/-! ## Exchanges on the bus -/

/-- Calls that are made on the host or are exchanges with one camera. -/
def MonitorCall (camera : Camera) : (cameras.sum host).Call → Prop
  | .inl c => ∃ request timeout, c = .exchange camera request timeout
  | .inr _ => True

theorem OnHost.monitorCall {camera : Camera} (c : (cameras.sum host).Call) (hc : OnHost c) :
    MonitorCall camera c := by
  cases c with
  | inl c => exact hc.elim
  | inr c => trivial

theorem OnHost.not_exchange (c : (cameras.sum host).Call) (hc : OnHost c) : kindOf c ≠ .exchange := by
  rcases c with c | c
  · exact hc.elim
  · cases c with
    | write w =>
      rw [kindOf]
      split <;> nofun
    | _ => simp

namespace ReplyQueue

variable (queue : ReplyQueue env m answer) {s : σ} {H : BusHistory}

/-- An exchange goes over the queue, and leaves one more reply there if and only if it was late. -/
theorem exchanged {request : Bytes} {timeout : Nanos} {result : Except LinkError Bytes} (hgives : env.Gives s H)
    (hf : (m.command request timeout).Finishes H result) :
    Flash.Exchanged (received? answer) request (queue.pending s) result (queue.pending (env.after s H)) ∧
      (queue.pending (env.after s H)).length = (queue.pending s).length + lateReads m H := by
  rcases finishes_command hf with ⟨e, rfl, rfl⟩ | ⟨e, rfl, rfl⟩ | ⟨reply, rfl, hreply⟩
  · have hrefused := queue.refused _ _ _ _ hgives.1
    simp only [Environment.after_cons, Environment.after_nil, hrefused]
    exact ⟨.refused, rfl⟩
  · have htaken := queue.taken _ _ _ hgives.1
    obtain ⟨rfl, hlate⟩ := queue.late _ _ _ _ hgives.2.1
    simp only [Environment.after_cons, Environment.after_nil, hlate, htaken]
    exact ⟨.late, by simp [lateReads, isLate]⟩
  · have htaken := queue.taken _ _ _ hgives.1
    obtain ⟨oldest, hpending, rfl⟩ := queue.delivered _ _ _ _ hgives.2.1
    rw [htaken] at hpending
    refine ⟨.answered hpending hreply, ?_⟩
    have hlength := congrArg List.length hpending
    simp only [List.length_append, List.length_cons, List.length_nil, Nat.add_right_cancel_iff] at hlength
    simp [← hlength, lateReads, isLate]

theorem relayed {camera : Camera} {hub hub' : Hub} {h : History} (hm : hub.Monitors camera m)
    (hcalls : ∀ e ∈ h, MonitorCall camera e.call) (hgives : env.Gives s H)
    (hc : CarriedOut Hub.answer hub h H hub') :
    Flash.Relayed (received? answer) camera (queue.pending s) h (queue.pending (env.after s H)) ∧
      (queue.pending (env.after s H)).length = (queue.pending s).length + lateReads m H := by
  induction hc generalizing s with
  | nil => exact ⟨.nil, rfl⟩
  | @cons c a hub₁ hub₂ hub₃ h H₁ H₂ hf _ ih =>
    obtain ⟨hcall, hrest⟩ := List.forall_mem_cons.mp hcalls
    obtain ⟨hgives₁, hgives₂⟩ := (env.gives_append s H₁ H₂).mp hgives
    rw [env.after_append]
    rcases c with c | c
    · obtain ⟨request, timeout, rfl⟩ := hcall
      obtain ⟨hcommand, rfl⟩ := (Hub.finishes_exchange hm).mp hf
      obtain ⟨hexchanged, hlength⟩ := queue.exchanged hgives₁ hcommand
      obtain ⟨hrelayed, hlengths⟩ := ih hm hrest hgives₂
      exact ⟨.exchange hexchanged hrelayed, by rw [hlengths, hlength, lateReads_append, Nat.add_assoc]⟩
    · obtain ⟨rfl, rfl⟩ := Hub.finishes_answer_host.mp hf
      obtain ⟨hrelayed, hlengths⟩ := ih hm hrest hgives₂
      simp only [Environment.after_cons, Environment.after_nil, queue.apart] at hrelayed hlengths ⊢
      exact ⟨.told hrelayed, hlengths⟩

end ReplyQueue

/-! ## Chunks of the flash -/

section Chunks

variable {config : BackupConfig} {flash : Bytes} {lag i c : Nat}

/-- What came in reply to the request for a chunk of the flash is that chunk. -/
theorem eq_piece_of_readFrom (hserves : Monitor.Serves answer flash)
    (hflash : config.flashSize.toNat ≤ flash.length) (hsize : config.chunkSize ≤ Monitor.maxFlashRead)
    (hi : i < config.count) {data : Bytes} (hread : Flash.ReadFrom (received? answer) config lag i c data) :
    data = config.plan.piece flash c := by
  have hc : c < config.count := Nat.lt_of_le_of_lt hread.le hi
  have hsize' : config.chunkSize.toNat ≤ 1016 := UInt32.le_iff_toNat_le.mp hsize
  have hoffset := config.plan.offset_lt hc
  have hchunk : (config.plan.chunk c).length ≤ 1016 ∧
      c * config.stride + (config.plan.chunk c).length ≤ config.flashSize.toNat := by
    simp only [BackupConfig.plan, BackupConfig.stride, ChunkPlan.chunk, ChunkPlan.stride] at hoffset ⊢
    omega
  have hfits : (config.offset c).toNat + (config.size c).toNat ≤ flash.length := by
    rw [BackupConfig.toNat_offset hc, BackupConfig.toNat_size]
    exact Nat.le_trans hchunk.2 hflash
  have hreceived : received? answer (config.request c) =
      littleEndian 4 Monitor.readFlash.toNat ++ config.plan.piece flash c := by
    rw [received?, BackupConfig.request, hserves _ _ hfits, BackupConfig.toNat_offset hc, BackupConfig.toNat_size]
    refine List.take_of_length_le ?_
    simp only [List.length_append, length_littleEndian, Bytes.slice, List.length_take, maxReply]
    omega
  have hreply := hread.reply
  rw [hreceived, BackupConfig.request, Monitor.flashRead, Monitor.reply?_command_eq_some_iff] at hreply
  exact (List.append_cancel_left hreply).symm

/-- Where nothing is behind, the chunks are the flash. -/
theorem flatMap_piece_eq_take (hflash : config.flashSize.toNat ≤ flash.length) :
    (List.range config.count).flatMap (config.plan.piece flash) = flash.take config.flashSize.toNat := by
  have hlength : (flash.take config.flashSize.toNat).length = config.plan.total := List.length_take_of_le hflash
  rw [← ChunkPlan.flatMap_piece hlength]
  exact List.flatMap_congr fun i _ => (ChunkPlan.piece_take i).symm

end Chunks

/-! ## The lag of a dump -/

/-- The calls of a dump that are made on cameras are exchanges with the one that is dumped. -/
theorem only_monitorCall {camera : Camera} {config : BackupConfig} {progress : Single → Action Unit}
    {heedsStop : Bool} (hprogress : ∀ x, (progress x).Only OnHost) :
    (Flash.read camera config progress heedsStop).Only (MonitorCall camera) :=
  Flash.only_read_of (fun _ _ => ⟨_, _, rfl⟩) trivial (fun _ => trivial)
    (fun x => (hprogress x).mono OnHost.monitorCall) heedsStop

/-- A dump that succeeds over a queue of replies is made of chunks of the flash, of the right lengths, but in
the place of each of them may be one that lies before it, by at most as many places as reads were late.  If none
was, the dump is the flash. -/
theorem dump_lags (queue : ReplyQueue env m answer) {s : σ} {flash dump : Bytes} {config : BackupConfig}
    {camera : Camera} {hub hub' : Hub} {progress : Single → Action Unit} {heedsStop : Bool}
    (hserves : Monitor.Serves answer flash) (hflash : config.flashSize.toNat ≤ flash.length)
    (hsize : config.chunkSize ≤ Monitor.maxFlashRead) (hm : hub.Monitors camera m) (hempty : queue.pending s = [])
    (hprogress : ∀ x, (progress x).Only OnHost)
    (hrun : ((Hub.onBus (Flash.read camera config progress heedsStop) hub).run env s).1 =
      .finished (.ok dump, hub')) :
    let late := lateReads m ((Hub.onBus (Flash.read camera config progress heedsStop) hub).history env s)
    ∃ source : Nat → Nat, dump = (List.range config.count).flatMap (fun i => config.plan.piece flash (source i)) ∧
      (∀ i < config.count, source i ≤ i ∧ i ≤ source i + late ∧
        (config.plan.piece flash (source i)).length = (config.plan.chunk i).length) ∧
      (late = 0 → dump = flash.take config.flashSize.toNat) := by
  intro late
  obtain ⟨h, hread, hcarried⟩ := finishes_expand.mp (finishes_history hrun)
  obtain ⟨hrelayed, hlate⟩ :=
    queue.relayed hm ((only_monitorCall hprogress).calls hread.begins) (env.gives_history _ s) hcarried
  rw [hempty] at hrelayed hlate
  have hquiet : ∀ x, (progress x).Only fun c => kindOf c ≠ .exchange :=
    fun x => (hprogress x).mono OnHost.not_exchange
  obtain ⟨piece, rfl, hpieces⟩ := Flash.finishes_read_relayed hquiet hread hrelayed
  rw [hlate, List.length_nil, Nat.zero_add] at hpieces
  choose! source hsource using hpieces
  have hpiece : ∀ i < config.count, piece i = config.plan.piece flash (source i) := fun i hi =>
    eq_piece_of_readFrom hserves hflash hsize hi (hsource i hi)
  refine ⟨source, List.flatMap_congr fun i hi => hpiece i (List.mem_range.mp hi), fun i hi => ?_, fun hnone => ?_⟩
  · have hread := hsource i hi
    exact ⟨hread.le, hread.le_add, by rw [← hpiece i hi, hread.length, BackupConfig.toNat_size]⟩
  · rw [← flatMap_piece_eq_take hflash]
    refine List.flatMap_congr fun i hi => ?_
    have hi := List.mem_range.mp hi
    have hread := hsource i hi
    have hbound : i ≤ source i + late := hread.le_add
    rw [hpiece i hi, show source i = i by have := hread.le; omega]

/-! ## An unsteady bus -/

namespace Unsteady

def replyQueue (flash : Bytes) : ReplyQueue (world flash) monitor (reply flash) where
  pending := Unsteady.pending
  taken _ _ _ _ := rfl
  refused _ _ _ _ h := nomatch h
  delivered u length _ r h := by
    simp only [world, answerBus] at h ⊢
    split at h
    · exact ⟨_, ‹_›, by simpa using h.symm⟩
    · simp at h
  late u length _ e h := by
    simp only [world, answerBus] at h ⊢
    split at h
    · simp at h
    · exact ⟨by simpa using h.symm, rfl⟩
  apart _ _ := rfl

theorem serves (flash : Bytes) : Monitor.Serves (reply flash) flash := by
  intro offset size _
  simp [reply, Monitor.flashRead]

/-- Two chunks of two bytes. -/
def chunked : BackupConfig := { flashSize := 4, chunkSize := 2 }

/-- The first read is late. -/
def behind : Unsteady := { late := [true] }

/-- The dump of `chunked` over the open channel. -/
def dumpChunked : BusAction (Except BackupError Bytes × Hub) :=
  opened.onBus (Flash.read Obliging.unit chunked (fun _ => .done ()) false)

theorem run_dumpChunked_behind :
    (dumpChunked.run (world [0, 1, 2, 3]) behind).1 = .finished (.ok [0, 1, 0, 1], opened) := by
  decide +kernel

end Unsteady

/-- The reply to the first read of four bytes of flash is late: the second chunk is the first one again. -/
theorem dump_lags_unsteady :
    lateReads Unsteady.monitor (Unsteady.dumpChunked.history (Unsteady.world [0, 1, 2, 3]) Unsteady.behind) = 1 ∧
      ∃ source : Nat → Nat, [0, 1, 0, 1] =
        (List.range 2).flatMap (fun i => Unsteady.chunked.plan.piece [0, 1, 2, 3] (source i)) ∧
          ∀ i < 2, source i ≤ i ∧ i ≤ source i + 1 := by
  have hlate : lateReads Unsteady.monitor (Unsteady.dumpChunked.history (Unsteady.world [0, 1, 2, 3])
      Unsteady.behind) = 1 := by
    decide +kernel
  have hquiet : ∀ _ : Single, (Program.done () : Action Unit).Only OnHost := fun _ => trivial
  obtain ⟨source, hdump, hsource, -⟩ :=
    dump_lags (Unsteady.replyQueue [0, 1, 2, 3]) (Unsteady.serves _) (by decide)
      (by decide) ⟨_, rfl, rfl⟩ rfl hquiet Unsteady.run_dumpChunked_behind
  refine ⟨hlate, source, hdump, fun i hi => ?_⟩
  obtain ⟨hle, hbound, -⟩ := hsource i hi
  exact ⟨hle, hlate ▸ hbound⟩

/-- So a dump that succeeds is not always the flash. -/
theorem dump_not_always_flash : ¬ ∀ (σ : Type) (env : Environment (bus.sum host) σ) (m : MonitorChannel)
    (answer : Bytes → Bytes) (queue : ReplyQueue env m answer) (s : σ) (flash dump : Bytes) (config : BackupConfig)
    (camera : Camera) (hub hub' : Hub),
    Monitor.Serves answer flash → config.flashSize.toNat ≤ flash.length →
    config.chunkSize ≤ Monitor.maxFlashRead → hub.Monitors camera m → queue.pending s = [] →
    ((Hub.onBus (Flash.read camera config (fun _ => .done ()) false) hub).run env s).1 =
      .finished (.ok dump, hub') →
    dump = flash.take config.flashSize.toNat := by
  intro hfaithful
  have hdump :=
    hfaithful Unsteady (Unsteady.world [0, 1, 2, 3]) Unsteady.monitor _ (Unsteady.replyQueue [0, 1, 2, 3])
      Unsteady.behind [0, 1, 2, 3] _ Unsteady.chunked Obliging.unit Unsteady.opened
      _ (Unsteady.serves _) (by decide) (by decide) ⟨_, rfl, rfl⟩ rfl Unsteady.run_dumpChunked_behind
  exact absurd hdump (by decide)

end Usb

end Reflash
