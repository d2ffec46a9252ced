import Mathlib.Algebra.Order.Floor.Div
import Reflash.Proofs.Clock
import Reflash.Proofs.Dfu.Rounds

/-!
# Reflash.Proofs.Bounds — how many calls a program makes

`p.AtMost counted n t` says that no run of `p` which begins at the time `t` makes more than `n` of the
calls that are counted.  Bounds add up along a sequence (`atMost_bind`).  A loop that looks at the clock
once a round pauses before its next round, so the rounds that begin before the deadline are no more than
the pauses that fit before it (`ceilDiv_pause`): that bounds the queries of a wait and the listings of a
search by what is left of their time.
-/

namespace Reflash

open Program

/-- Before a deadline that is still to come, a pause fits one time more than after it. -/
theorem ceilDiv_pause {timeout pause passed passed' : Nat} (hpause : 0 < pause) (hearly : passed < timeout)
    (hpassed : passed + pause ≤ passed') : (timeout - passed') ⌈/⌉ pause + 1 ≤ (timeout - passed) ⌈/⌉ pause := by
  have hle : timeout - passed ≤ pause * ((timeout - passed) ⌈/⌉ pause) := (ceilDiv_le_iff_le_mul hpause).mp le_rfl
  cases hc : (timeout - passed) ⌈/⌉ pause with
  | zero =>
    rw [hc, Nat.mul_zero] at hle
    omega
  | succ c =>
    rw [hc, Nat.mul_succ] at hle
    have hfits : (timeout - passed') ⌈/⌉ pause ≤ c := (ceilDiv_le_iff_le_mul hpause).mpr (by omega)
    omega

theorem ceilDiv_le_ceilDiv {a b : Nat} (hab : a ≤ b) (c : Nat) : a ⌈/⌉ c ≤ b ⌈/⌉ c := by
  rw [Nat.ceilDiv_eq_add_pred_div, Nat.ceilDiv_eq_add_pred_div]
  exact Nat.div_le_div_right (by omega)

/-- No run that begins at the time `t` makes more of these calls. -/
def Program.AtMost {α : Type} (counted : (cameras.sum host).Call → Bool) (n : Nat) (t : Nanos) (p : Action α) :
    Prop :=
  ∀ h, Moves t h → p.Begins h → h.countP (fun e => counted e.call) ≤ n

/-- The calls that are counted are all of one kind. -/
def CountsOnly (kind : CallKind) (counted : (cameras.sum host).Call → Bool) : Prop :=
  ∀ c, kindOf c ≠ kind → counted c = false

section CountsOnly

variable {kind : CallKind} {counted : (cameras.sum host).Call → Bool} {kinds : List CallKind}
  (hcounted : CountsOnly kind counted)

include hcounted

theorem CountsOnly.of_ofKinds (hkinds : kind ∉ kinds) (c : (cameras.sum host).Call) (hc : ofKinds kinds c) :
    counted c = false :=
  hcounted c (ne_of_mem_of_not_mem hc hkinds)

theorem CountsOnly.only {α : Type} {p : Action α} (hkinds : kind ∉ kinds) (hp : p.Only (ofKinds kinds)) :
    p.Only fun c => counted c = false :=
  hp.mono (hcounted.of_ofKinds hkinds)

end CountsOnly

section AtMost

variable {α β ε δ : Type} {counted : (cameras.sum host).Call → Bool} {m n : Nat} {t : Nanos}

theorem Program.AtMost.mono {p : Action α} (hp : p.AtMost counted m t) (hmn : m ≤ n) : p.AtMost counted n t :=
  fun h hm hb => Nat.le_trans (hp h hm hb) hmn

theorem Program.Only.atMost {p : Action α} (hp : p.Only fun c => counted c = false) : p.AtMost counted 0 t := by
  intro h _ hb
  refine Nat.le_of_eq (List.countP_eq_zero.mpr fun e he => ?_)
  simp [hp.calls hb e he]

/-- The second part begins when the first one has finished. -/
theorem atMost_bind {p : Action α} {f : α → Action β} (hp : p.AtMost counted m t)
    (hf : ∀ a h, Moves t h → p.Finishes h a → (f a).AtMost counted n (clockAfter t h)) :
    (p.bind f).AtMost counted (m + n) t := by
  intro h hm hb
  rcases begins_bind.mp hb with hb | ⟨a, h₁, h₂, rfl, hfin, hb⟩
  · have hfirst := hp h hm hb
    omega
  · obtain ⟨hm₁, hm₂⟩ := moves_append.mp hm
    have hfirst := hp h₁ hm₁ hfin.begins
    have hsecond := hf a h₁ hm₁ hfin h₂ hm₂ hb
    rw [List.countP_append]
    omega

/-- Calls that are not counted, before what is. -/
theorem atMost_after {p : Action α} {f : α → Action β} (hp : p.Only fun c => counted c = false)
    (hf : ∀ a h, Moves t h → p.Finishes h a → (f a).AtMost counted n (clockAfter t h)) :
    (p.bind f).AtMost counted n t :=
  (atMost_bind hp.atMost hf).mono (Nat.le_of_eq (Nat.zero_add n))

@[simp] theorem atMost_done (a : α) : (Program.done a : Action α).AtMost counted n t := by
  intro h _ hb
  simp [begins_done.mp hb]

theorem atMost_perform (c : (cameras.sum host).Call) : (perform c : Action _).AtMost counted 1 t := by
  intro h _ hb
  rcases begins_perform.mp hb with rfl | ⟨a?, rfl⟩
  · exact Nat.zero_le 1
  · exact List.countP_le_length

namespace Attempt

/-- The same of an attempt, whenever it begins. -/
def AtMost (counted : (cameras.sum host).Call → Bool) (n : Nat) (x : Attempt ε α) : Prop :=
  ∀ t, Program.AtMost counted n t x.run

theorem AtMost.mono {x : Attempt ε α} (hx : x.AtMost counted m) (hmn : m ≤ n) : x.AtMost counted n :=
  fun t => (hx t).mono hmn

theorem Only.atMost {x : Attempt ε α} (hx : x.Only fun c => counted c = false) : x.AtMost counted 0 :=
  fun _ => Program.Only.atMost hx

theorem atMost_bind {x : Attempt ε α} {f : α → Attempt ε β} (hx : x.AtMost counted m)
    (hf : ∀ a, (f a).AtMost counted n) :
    (x >>= f).AtMost counted (m + n) := by
  intro t
  rw [run_bind]
  refine Reflash.atMost_bind (hx t) fun r h _ _ => ?_
  cases r with
  | error e => exact atMost_done _
  | ok a => exact hf a _

theorem atMost_after {x : Attempt ε α} {f : α → Attempt ε β} (hx : x.Only fun c => counted c = false)
    (hf : ∀ a, (f a).AtMost counted n) : (x >>= f).AtMost counted n :=
  (atMost_bind hx.atMost hf).mono (Nat.le_of_eq (Nat.zero_add n))

/-- Calls that are not counted, after what is. -/
theorem atMost_before {x : Attempt ε α} {f : α → Attempt ε β} (hx : x.AtMost counted n)
    (hf : ∀ a, (f a).Only fun c => counted c = false) : (x >>= f).AtMost counted n :=
  atMost_bind hx fun a => (hf a).atMost

theorem atMost_of {f : δ → ε} {x : Action (Except δ α)} (hx : ∀ t, x.AtMost counted n t) :
    (Attempt.of f x).AtMost counted n := by
  intro t
  rw [run_of]
  exact Reflash.atMost_bind (hx t) fun _ _ _ _ => atMost_done (n := 0) _

theorem atMost_discard {x : Attempt ε α} (hx : x.AtMost counted n) : (discard x).AtMost counted n := by
  intro t
  rw [run_discard]
  refine Reflash.atMost_bind (n := 0) (hx t) fun r _ _ _ => ?_
  cases r <;> exact atMost_done _

end Attempt

end AtMost

/-! ## Rounds before a deadline -/

section Round

variable {α : Type} {counted : (cameras.sum host).Call → Bool} {start t timeout pause : Nat} {n : Nat}

/-- The end of a round: the loop goes on only after a pause, and only if the deadline is still to come. -/
theorem atMost_roundEnd {late : α} {next : Action α} (hpause : 0 < pause) (hstart : start ≤ t)
    (hnow : counted (.inr .now) = false) (hsleep : counted (.inr (.sleep pause)) = false)
    (hnext : ∀ t', start ≤ t' → next.AtMost counted ((timeout - (t' - start)) ⌈/⌉ pause + 1) t') :
    ((tell .now).bind fun now : Nanos => if timeout ≤ now - start then .done late
      else (tell (.sleep pause)).bind fun _ => next).AtMost counted ((timeout - (t - start)) ⌈/⌉ pause) t := by
  refine atMost_after (only_tell.mpr hnow) fun now h hm hf => ?_
  obtain rfl := finishes_tell.mp hf
  have hlater : t ≤ now := hm.1
  show Program.AtMost _ _ now _
  split
  · exact atMost_done _
  rename_i hearly
  refine atMost_after (only_tell.mpr hsleep) fun u h' _ hf' => ?_
  obtain rfl := finishes_tell.mp hf'
  show Program.AtMost _ _ (now + pause) _
  have hsooner : (timeout - (now - start)) ⌈/⌉ pause ≤ (timeout - (t - start)) ⌈/⌉ pause :=
    ceilDiv_le_ceilDiv (by omega) pause
  have hfits : (timeout - (now + pause - start)) ⌈/⌉ pause + 1 ≤ (timeout - (now - start)) ⌈/⌉ pause :=
    ceilDiv_pause hpause (by omega) (by omega)
  exact (hnext (now + pause) (by omega)).mono (Nat.le_trans hfits hsooner)

end Round

/-- Whether a call asks a loader for its status. -/
def isPoll : (cameras.sum host).Call → Bool
  | .inl (.transfer _ packet _) => packet.request = DfuRequest.getStatus.code
  | _ => false

theorem countsOnly_isPoll : CountsOnly .transfer isPoll := by
  intro c hc
  cases c with
  | inl c => cases c <;> first | rfl | exact absurd rfl hc
  | inr c => rfl

theorem Dfu.polls_queryStatus {channel : ControlChannel} (timeout : Nanos) (t : Nanos) :
    (queryStatus channel timeout).AtMost isPoll 1 t := by
  refine atMost_bind (n := 0) (atMost_perform _) fun reply _ _ _ => ?_
  split <;> exact atMost_done _

namespace Wait

variable {w : Wait} {channel : ControlChannel}

/-- A wait asks once more than its pauses fit into the time that is left. -/
theorem polls_loop (hpause : 0 < w.interval) {start t : Nanos} (ht : start ≤ t) (rounds : Nat)
    (last : Option DeviceStatus) :
    (w.loop channel start rounds last).AtMost isPoll ((w.timeout - (t - start)) ⌈/⌉ w.interval + 1) t := by
  induction rounds generalizing t last with
  | zero =>
    intro h _ hb
    simp [begins_stalled.mp hb]
  | succ rounds ih =>
    have hquiet : ∀ {α : Type} {p : Action α}, p.Only (ofKinds [.stop, .log]) → p.Only fun c => isPoll c = false :=
      countsOnly_isPoll.only (by simp)
    refine atMost_after (hquiet (only_shouldStop (by simp))) fun stop h₁ hm₁ _ => ?_
    split
    · exact atMost_done _
    -- One query now; the others are those of a wait that goes on after a pause.
    rw [Nat.add_comm]
    refine atMost_bind (Dfu.polls_queryStatus _ _) fun reply h₂ hm₂ _ => ?_
    refine atMost_after (hquiet (only_reportReply (fun _ => by simp) _)) fun _ h₃ hm₃ _ => ?_
    have hlater : t ≤ clockAfter (clockAfter (clockAfter t h₁) h₂) h₃ := hm₁.le.trans (hm₂.le.trans hm₃.le)
    split
    · exact atMost_done _
    refine (atMost_roundEnd hpause (ht.trans hlater) rfl rfl fun t' ht' => ih ht' _).mono ?_
    exact ceilDiv_le_ceilDiv (Nat.sub_le_sub_left (Nat.sub_le_sub_right hlater start) w.timeout) _

/-- A wait from its beginning. -/
theorem polls_run (hpause : 0 < w.interval) (t : Nanos) :
    (w.run channel).AtMost isPoll (w.timeout ⌈/⌉ w.interval + 1) t := by
  refine atMost_after (only_tell.mpr rfl) fun start h _ hf => ?_
  obtain rfl := finishes_tell.mp hf
  have hloop : (w.loop channel start (roundsWithin w.timeout w.interval) none).AtMost isPoll
      ((w.timeout - (start - start)) ⌈/⌉ w.interval + 1) start := polls_loop hpause (Nat.le_refl start) _ none
  rwa [Nat.sub_self, Nat.sub_zero] at hloop

end Wait

/-! ## Searches -/

/-- Whether a call lists the cameras. -/
def isScan : (cameras.sum host).Call → Bool
  | .inl .list => true
  | _ => false

theorem countsOnly_isScan : CountsOnly .list isScan := by
  intro c hc
  cases c with
  | inl c => cases c <;> first | rfl | exact absurd rfl hc
  | inr c => rfl

namespace Search

variable {s : Search}

/-- A look at the cameras lists them once. -/
theorem scans_scan (t : Nanos) : s.scan.AtMost isScan 1 t := by
  refine atMost_bind (n := 0) (atMost_perform _) fun reply h _ _ => Program.Only.atMost ?_
  split
  · exact countsOnly_isScan.only (by simp) (only_pick _)
  · exact only_bind (only_report.mpr rfl) fun _ => trivial

theorem scans_loop (hpause : 0 < s.interval) {start t : Nanos} (ht : start ≤ t) (rounds : Nat) :
    (s.loop start rounds).AtMost isScan ((s.timeout - (t - start)) ⌈/⌉ s.interval + 1) t := by
  induction rounds generalizing t with
  | zero =>
    intro h _ hb
    simp [begins_stalled.mp hb]
  | succ rounds ih =>
    have hstop : (shouldStop s.heedsStop).Only fun c => isScan c = false := only_shouldStop rfl
    refine atMost_after hstop fun stop h₁ hm₁ _ => ?_
    split
    · exact atMost_done _
    rw [Nat.add_comm]
    refine atMost_bind (scans_scan _) fun found? h₂ hm₂ _ => ?_
    have hlater : t ≤ clockAfter (clockAfter t h₁) h₂ := hm₁.le.trans hm₂.le
    split
    · refine (Program.Only.atMost ?_).mono (Nat.zero_le _)
      exact only_bind (only_tell.mpr rfl) fun _ => only_bind (only_report.mpr rfl) fun _ => trivial
    · refine (atMost_roundEnd hpause (ht.trans hlater) rfl rfl fun t' ht' => ih ht').mono ?_
      exact ceilDiv_le_ceilDiv (Nat.sub_le_sub_left (Nat.sub_le_sub_right hlater start) s.timeout) _

/-- A search lists the cameras once more than its pauses fit into its time. -/
theorem scans_run (hpause : 0 < s.interval) (t : Nanos) :
    s.run.AtMost isScan (s.timeout ⌈/⌉ s.interval + 1) t := by
  refine atMost_after (only_tell.mpr rfl) fun start h _ hf => ?_
  obtain rfl := finishes_tell.mp hf
  refine atMost_after (only_report.mpr rfl) fun u h' _ hf' => ?_
  obtain rfl := finishes_report.mp hf'
  have hloop := scans_loop (s := s) hpause (Nat.le_refl start) (roundsWithin s.timeout s.interval)
  rwa [Nat.sub_self, Nat.sub_zero] at hloop

end Search

/-! ## Dumps -/

/-- Whether a call reads the flash. -/
def isFlashRead : (cameras.sum host).Call → Bool
  | .inl (.exchange _ _ _) => true
  | _ => false

theorem countsOnly_isFlashRead : CountsOnly .exchange isFlashRead := by
  intro c hc
  cases c with
  | inl c => cases c <;> first | rfl | exact absurd rfl hc
  | inr c => rfl

namespace Flash

variable {camera : Camera} {config : BackupConfig} {progress : Single → Action Unit}

/-- A chunk is asked for once for each attempt. -/
theorem reads_readChunk {offset size : UInt32} (left : Nat) (last : LinkError) (t : Nanos) :
    (readChunk camera config offset size left last).AtMost isFlashRead left t := by
  induction left generalizing last t with
  | zero => exact atMost_done _
  | succ left ih =>
    refine Program.AtMost.mono (atMost_bind (n := left) (atMost_perform _) fun reply _ _ _ => ?_)
      (Nat.add_comm 1 left).le
    split
    · exact atMost_done _
    · exact atMost_after (only_report.mpr rfl) fun _ _ _ _ => ih _ _

theorem reads_readChunks (hprogress : ∀ x, (progress x).Only fun c => isFlashRead c = false)
    (heedsStop : Bool) (left : Nat) (done : List Bytes) (t : Nanos) :
    (readChunks camera config progress heedsStop left done).AtMost isFlashRead
      (left * config.attempts.toNat) t := by
  induction left generalizing done t with
  | zero => exact atMost_done _
  | succ left ih =>
    refine atMost_after (only_shouldStop rfl) fun stop _ _ _ => ?_
    split
    · exact atMost_done _
    refine atMost_after (hprogress _) fun _ _ _ _ => ?_
    rw [Nat.succ_mul, Nat.add_comm]
    refine atMost_bind (reads_readChunk _ _ _) fun reply _ _ _ => ?_
    split
    · exact ih _ _
    · exact atMost_done _

/-- A dump makes no more reads than it has attempts at its chunks. -/
theorem reads_read (hprogress : ∀ x, (progress x).Only fun c => isFlashRead c = false)
    (heedsStop : Bool) (t : Nanos) :
    (read camera config progress heedsStop).AtMost isFlashRead (config.count * config.attempts.toNat) t := by
  refine atMost_bind (n := 0) (reads_readChunks hprogress heedsStop _ _ t) fun result _ _ _ =>
    Program.Only.atMost ?_
  split
  · exact only_bind (hprogress _) fun _ => only_bind (only_report.mpr rfl) fun _ => trivial
  · trivial

end Flash

/-! ## Downloads -/

namespace Dfu

variable {channel : ControlChannel} {config : TransferConfig} {progress : Single → Action Unit}
  {transaction : UInt16} {image : Bytes}

theorem polls_prepare : Attempt.AtMost isPoll 1 (prepare channel config) := by
  refine Attempt.atMost_after (Attempt.only_discard (Attempt.only_of (only_ask.mpr rfl))) fun _ => ?_
  refine Attempt.atMost_before (Attempt.atMost_of (polls_queryStatus _)) fun status => ?_
  refine Attempt.only_bind (Attempt.only_lift (only_report.mpr rfl)) fun _ => ?_
  split
  · exact Attempt.only_pure _
  · exact Attempt.only_pure _
  · exact Attempt.only_throw _

theorem polls_awaitChunk (hpause : 0 < config.chunkPoll) :
    Attempt.AtMost isPoll (config.chunkTimeout ⌈/⌉ config.chunkPoll + 1) (awaitChunk channel config transaction) :=
  Attempt.atMost_before (Attempt.atMost_of (Wait.polls_run (w := chunkWait config) hpause)) fun _ =>
    Attempt.only_decided _

theorem polls_sendChunks (hprogress : ∀ x, (progress x).Only fun c => isPoll c = false)
    (hpause : 0 < config.chunkPoll) (heedsStop : Bool) (total : Nat) (chunks : List Chunk) (image : Bytes)
    (sent : Nat) (transaction : UInt16) :
    Attempt.AtMost isPoll (chunks.length * (config.chunkTimeout ⌈/⌉ config.chunkPoll + 1))
      (sendChunks channel config heedsStop progress total chunks image sent transaction) := by
  induction chunks generalizing image sent transaction with
  | nil =>
    refine (Attempt.Only.atMost ?_).mono (Nat.zero_le _)
    exact Attempt.only_bind (Attempt.only_lift (only_report.mpr rfl)) fun _ => Attempt.only_pure _
  | cons chunk chunks ih =>
    refine Attempt.atMost_after (Attempt.only_lift (only_shouldStop rfl)) fun stop => ?_
    split
    · refine (Attempt.Only.atMost ?_).mono (Nat.zero_le _)
      exact Attempt.only_bind (Attempt.only_lift (only_abort_of rfl fun _ => rfl)) fun _ => Attempt.only_throw _
    refine Attempt.atMost_after (Attempt.only_discard (Attempt.only_of (only_ask.mpr rfl))) fun _ => ?_
    refine Attempt.atMost_after (Attempt.only_lift (hprogress _)) fun _ => ?_
    rw [List.length_cons, Nat.succ_mul, Nat.add_comm]
    exact Attempt.atMost_bind (polls_awaitChunk hpause) fun _ => ih _ _ _

/-- A download waits for each chunk. -/
theorem polls_download (hprogress : ∀ x, (progress x).Only fun c => isPoll c = false)
    (hpause : 0 < config.chunkPoll) (heedsStop : Bool) : Attempt.AtMost isPoll
      ((image.length ⌈/⌉ max config.maxChunk 1) * (config.chunkTimeout ⌈/⌉ config.chunkPoll + 1))
      (download channel config heedsStop image progress) := by
  unfold download
  split
  · exact (Attempt.Only.atMost (Attempt.only_throw _)).mono (Nat.zero_le _)
  · refine Attempt.AtMost.mono (polls_sendChunks hprogress hpause heedsStop _ _ _ _ _) (Nat.le_of_eq ?_)
    rw [ChunkPlan.length_chunks]
    rfl

theorem polls_manifest (hpause : 0 < config.manifestPoll) :
    Attempt.AtMost isPoll (config.manifestTimeout ⌈/⌉ config.manifestPoll + 1) (manifest channel config) := by
  refine Attempt.atMost_after (Attempt.only_lift (only_report.mpr rfl)) fun _ => ?_
  exact Attempt.atMost_before (Attempt.atMost_of (Wait.polls_run (w := manifestWait config) hpause)) fun _ =>
    Attempt.only_decided _

end Dfu

end Reflash
