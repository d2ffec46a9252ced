import Reflash.Proofs.Flash.Dump
import Reflash.Proofs.Stops

/-!
# Reflash.Proofs.Flash.Requests — what a dump asks for, request by request

`Flash.readings` says of each chunk what came of it.  Here the requests of a dump stand in one list, in the
order in which they were made.  `Flash.InOrder` is the grammar of the chunks that were read: one chunk after the
other, each asked for until a reply is accepted.  `Flash.Tried` is the attempts at a chunk that failed.  At
every moment of a run the requests are some chunks in order and then attempts at the next one
(`Flash.begins_readChunks`); a dump that succeeds consists of all the chunks in order, and one that fails ends
with the last attempt at one of them (`Flash.finishes_readChunks`).
-/

namespace Reflash

open Program

/-! ## Numbers -/

namespace BackupConfig

variable (config : BackupConfig)

/-- There are no more chunks than bytes. -/
theorem count_le : config.count ≤ config.flashSize.toNat := by
  by_contra hlt
  have hoffset := config.plan.offset_lt (i := config.flashSize.toNat) (Nat.lt_of_not_le hlt)
  have hle := Nat.le_mul_of_pos_right config.flashSize.toNat config.plan.stride_pos
  exact absurd hoffset (Nat.not_lt_of_le hle)

end BackupConfig

namespace Flash

/-! ## Requests -/

/-- A request for chunk `k`, and the reply to it. -/
abbrev requested (camera : Camera) (config : BackupConfig) (k : Nat) (reply? : Option (Except LinkError Bytes)) :
    Event (cameras.sum host) :=
  .asked (.exchange camera (config.request k) config.requestTimeout) reply?

/-- The requests to hardware monitors among some calls. -/
def requestsOf (h : History) : History := h.filter fun e => kindOf e.call = .exchange

/-- Attempts at chunk `k` that failed, each with a failure of the link or a reply of another length. -/
def Tried (camera : Camera) (config : BackupConfig) (k : Nat) (failures : List LinkError) (h : History) : Prop :=
  ∃ replies : List (Except LinkError Bytes),
    h = replies.map (fun reply => requested camera config k (some reply)) ∧
    replies.map (checkLength (config.size k)) = failures.map .error

/-- The chunks from `first` up to `next` were read one after the other: each was asked for until a reply had the
length that was asked for, after fewer failures than it has attempts. -/
inductive InOrder (camera : Camera) (config : BackupConfig) (next : Nat) : Nat → List Bytes → History → Prop
  | done : InOrder camera config next next [] []
  | chunk {k : Nat} {failures : List LinkError} {data : Bytes} {pieces : List Bytes} {tried rest : History} :
    Tried camera config k failures tried → failures.length < config.attempts.toNat →
    data.length = (config.size k).toNat →
    InOrder camera config next (k + 1) pieces rest →
    InOrder camera config next k (data :: pieces) (tried ++ requested camera config k (some (.ok data)) :: rest)

/-- At most `attempts` attempts at chunk `k`, all of which failed, except that the world may have
died in the last one. -/
def Trying (camera : Camera) (config : BackupConfig) (k attempts : Nat) (h : History) : Prop :=
  ∃ failures tried, Tried camera config k failures tried ∧
    (h = tried ∧ failures.length ≤ attempts ∨ h = tried ++ [requested camera config k none] ∧
      failures.length < attempts)

section Requests

variable {camera : Camera} {config : BackupConfig} {h h₁ h₂ : History} {k next : Nat}

@[simp] theorem requestsOf_nil : requestsOf [] = [] := rfl

@[simp] theorem requestsOf_append : requestsOf (h₁ ++ h₂) = requestsOf h₁ ++ requestsOf h₂ := List.filter_append ..

@[simp] theorem requestsOf_told (c : HostCall) (a? : Option c.Answer) :
    requestsOf (.told c a? :: h) = requestsOf h := by
  refine List.filter_cons_of_neg ?_
  cases c with
  | write w => simp only [kindOf]; split <;> simp
  | _ => simp

@[simp] theorem requestsOf_exchange (request : Bytes) (timeout : Nanos)
    (reply? : Option (Except LinkError Bytes)) :
    requestsOf (.asked (.exchange camera request timeout) reply? :: h) =
      .asked (.exchange camera request timeout) reply? :: requestsOf h :=
  List.filter_cons_of_pos rfl

theorem requestsOf_eq_nil (hh : ∀ e ∈ h, kindOf e.call ≠ .exchange) : requestsOf h = [] :=
  List.filter_eq_nil_iff.mpr fun e he hkind => hh e he (of_decide_eq_true hkind)

theorem tried_nil : Tried camera config k [] [] := ⟨[], rfl, rfl⟩

theorem Tried.cons {reply : Except LinkError Bytes} {e : LinkError} {failures : List LinkError}
    (hreply : checkLength (config.size k) reply = .error e) (ht : Tried camera config k failures h) :
    Tried camera config k (e :: failures) (requested camera config k (some reply) :: h) := by
  obtain ⟨replies, rfl, hreplies⟩ := ht
  exact ⟨reply :: replies, rfl, by rw [List.map_cons, List.map_cons, hreply, hreplies]⟩

theorem trying_nil (attempts : Nat) : Trying camera config k attempts [] :=
  ⟨[], [], tried_nil, .inl ⟨rfl, Nat.zero_le attempts⟩⟩

theorem Trying.cons {reply : Except LinkError Bytes} {e : LinkError} {attempts : Nat}
    (hreply : checkLength (config.size k) reply = .error e) (ht : Trying camera config k attempts h) :
    Trying camera config k (attempts + 1) (requested camera config k (some reply) :: h) := by
  obtain ⟨failures, tried, htried, ⟨rfl, hle⟩ | ⟨rfl, hlt⟩⟩ := ht
  · exact ⟨e :: failures, _, htried.cons hreply, .inl ⟨rfl, Nat.succ_le_succ hle⟩⟩
  · exact ⟨e :: failures, _, htried.cons hreply, .inr ⟨rfl, Nat.succ_lt_succ hlt⟩⟩

/-! ## Chunks that were read -/

theorem InOrder.length_pieces {pieces : List Bytes} (hr : InOrder camera config next k pieces h) :
    k + pieces.length = next := by
  induction hr with
  | done => rfl
  | chunk _ _ _ _ ih =>
    rw [List.length_cons]
    omega

/-- Every piece has the length of its chunk. -/
theorem InOrder.lengths {pieces : List Bytes} (hr : InOrder camera config next k pieces h) :
    pieces.map List.length = (List.range' k pieces.length).map fun i => (config.plan.chunk i).length := by
  induction hr with
  | done => rfl
  | chunk _ _ hdata _ ih =>
    rw [List.map_cons, List.length_cons, List.range'_succ, List.map_cons, ih, hdata, BackupConfig.toNat_size]

/-- All the pieces together are as long as the flash. -/
theorem InOrder.length_flatten {pieces : List Bytes} (hr : InOrder camera config config.count 0 pieces h) :
    pieces.flatten.length = config.flashSize.toNat := by
  have hcount : pieces.length = config.count := by simpa using hr.length_pieces
  rw [List.length_flatten, hr.lengths, hcount, ← List.range_eq_range', config.plan.sum_length]
  exact Nat.min_eq_left config.plan.total_le

/-! ## One chunk -/

/-- A run that begins with one call to a camera. -/
theorem begins_ask_bind {α : Type} {c : CameraCall} {f : c.Answer → Action α} :
    @Program.Begins (cameras.sum host) α ((ask c).bind f) h ↔
      h = [] ∨ h = [.asked c none] ∨ ∃ a h', h = .asked c (some a) :: h' ∧ (f a).Begins h' :=
  begins_call

/-- What comes before the requests makes none. -/
theorem begins_after_quiet {α β : Type} {p : Action α} {f : α → Action β}
    (hp : p.Only fun c => kindOf c ≠ .exchange) (hb : (p.bind f).Begins h) :
    requestsOf h = [] ∨ ∃ a h₁ h₂, h = h₁ ++ h₂ ∧ p.Finishes h₁ a ∧ requestsOf h = requestsOf h₂ ∧
      (f a).Begins h₂ := by
  rcases begins_bind.mp hb with hb | ⟨a, h₁, h₂, rfl, hfin, hb⟩
  · exact .inl (requestsOf_eq_nil (hp.calls hb))
  · refine .inr ⟨a, h₁, h₂, rfl, hfin, ?_, hb⟩
    rw [requestsOf_append, requestsOf_eq_nil (hp.calls hfin.begins), List.nil_append]

/-- A chunk that is being read has had failures only, and then perhaps one reply of its length. -/
theorem begins_readChunk {left : Nat} {last : LinkError}
    (hb : (readChunk camera config (config.offset k) (config.size k) left last).Begins h) :
    Trying camera config k left (requestsOf h) ∨ ∃ failures tried data, Tried camera config k failures tried ∧
      requestsOf h = tried ++ [requested camera config k (some (.ok data))] ∧ failures.length < left ∧
        data.length = (config.size k).toNat := by
  induction left generalizing last h with
  | zero =>
    obtain rfl := begins_done.mp hb
    exact .inl (trying_nil 0)
  | succ left ih =>
    simp only [readChunk, bind_eq] at hb
    rcases begins_ask_bind.mp hb with rfl | rfl | ⟨reply, h', rfl, hrest⟩
    · exact .inl (trying_nil _)
    · exact .inl ⟨[], [], tried_nil, .inr ⟨requestsOf_exchange _ _ none, Nat.succ_pos left⟩⟩
    split at hrest
    · rename_i data hcheck
      obtain rfl := begins_done.mp hrest
      obtain ⟨rfl, hlength⟩ := checkLength_eq_ok.mp hcheck
      exact .inr ⟨[], [], data, tried_nil, requestsOf_exchange _ _ _, Nat.succ_pos left, hlength⟩
    · rename_i e hcheck
      rw [requestsOf_exchange]
      rcases begins_after_quiet (only_report.mpr (by simp)) hrest with hnil | ⟨u, h₁, h₂, rfl, -, hsame, hnext⟩
      · rw [hnil]
        exact .inl ((trying_nil left).cons hcheck)
      rw [hsame]
      rcases ih hnext with htrying | ⟨failures, tried, data, htried, hrequests, hlength, hdata⟩
      · exact .inl (htrying.cons hcheck)
      · refine .inr ⟨e :: failures, _, data, htried.cons hcheck, ?_, Nat.succ_lt_succ hlength, hdata⟩
        rw [hrequests]
        rfl

/-- A chunk was read after fewer failures than it had attempts, or all of its attempts failed. -/
theorem finishes_readChunk {left : Nat} {last : LinkError} {r : Except LinkError Bytes}
    (hf : (readChunk camera config (config.offset k) (config.size k) left last).Finishes h r) :
    ∃ failures tried, Tried camera config k failures tried ∧
      ((∃ data, r = .ok data ∧ requestsOf h = tried ++ [requested camera config k (some (.ok data))] ∧
          failures.length < left ∧ data.length = (config.size k).toNat) ∨
        r = .error (failures.getLastD last) ∧ requestsOf h = tried ∧ failures.length = left) := by
  induction left generalizing last h with
  | zero =>
    obtain ⟨rfl, rfl⟩ := finishes_done.mp hf
    exact ⟨[], [], tried_nil, .inr ⟨rfl, rfl, rfl⟩⟩
  | succ left ih =>
    simp only [readChunk, bind_eq, finishes_bind, finishes_ask] at hf
    obtain ⟨reply, h₁, h₂, rfl, rfl, hf⟩ := hf
    split at hf
    · rename_i data hcheck
      obtain ⟨rfl, rfl⟩ := finishes_done.mp hf
      obtain ⟨rfl, hlength⟩ := checkLength_eq_ok.mp hcheck
      exact ⟨[], [], tried_nil, .inl ⟨data, rfl, requestsOf_exchange _ _ _, Nat.succ_pos left, hlength⟩⟩
    · rename_i e hcheck
      simp only [finishes_bind, finishes_report] at hf
      obtain ⟨u, h₃, h₄, rfl, rfl, hf⟩ := hf
      rw [List.singleton_append, List.singleton_append, requestsOf_exchange, requestsOf_told]
      obtain ⟨failures, tried, htried, ⟨data, rfl, hrequests, hlength, hdata⟩ | ⟨rfl, hrequests, hlength⟩⟩ := ih hf
      · refine ⟨e :: failures, _, htried.cons hcheck, .inl ⟨data, rfl, ?_, Nat.succ_lt_succ hlength, hdata⟩⟩
        rw [hrequests]
        rfl
      · refine ⟨e :: failures, _, htried.cons hcheck, .inr ⟨?_, ?_, congrArg Nat.succ hlength⟩⟩
        · rw [List.getLastD_cons]
        · rw [hrequests]
          rfl

/-! ## The chunks of a dump -/

variable {progress : Single → Action Unit} {heedsStop : Bool}

/-- At any moment the requests are chunks in order, and then attempts at the next one. -/
theorem begins_readChunks {left : Nat} {done : List Bytes}
    (hprogress : ∀ x, (progress x).Only fun c => kindOf c ≠ .exchange) (hleft : left ≤ config.count)
    (hb : (readChunks camera config progress heedsStop left done).Begins h) :
    ∃ next pieces read current, next ≤ config.count ∧ requestsOf h = read ++ current ∧
      InOrder camera config next (config.count - left) pieces read ∧
      Trying camera config next config.attempts.toNat current ∧ (next = config.count → current = []) := by
  induction left generalizing done h with
  | zero =>
    obtain rfl := begins_done.mp hb
    exact ⟨config.count, [], [], [], Nat.le_refl _, rfl, .done, trying_nil _, fun _ => rfl⟩
  | succ left ih =>
    obtain ⟨first, hfirst⟩ : ∃ first, config.count - (left + 1) = first := ⟨_, rfl⟩
    have hlt : first < config.count := by omega
    have hnext : config.count - left = first + 1 := by omega
    have hnothing : requestsOf h = [] → ∃ next pieces read current, next ≤ config.count ∧
        requestsOf h = read ++ current ∧
        InOrder camera config next first pieces read ∧ Trying camera config next config.attempts.toNat current ∧
        (next = config.count → current = []) :=
      fun hnil => ⟨first, [], [], [], Nat.le_of_lt hlt, hnil, .done, trying_nil _, fun _ => rfl⟩
    simp only [readChunks, bind_eq, hfirst] at hb
    rw [hfirst]
    rcases begins_after_quiet (only_shouldStop (by simp)) hb with hnil | ⟨stop, h₁, h₂, rfl, -, hsame, hb⟩
    · exact hnothing hnil
    split at hb
    · obtain rfl := begins_done.mp hb
      exact hnothing hsame
    rcases begins_after_quiet (hprogress _) hb with hnil | ⟨u, h₃, h₄, rfl, -, hsame', hb⟩
    · exact hnothing (hsame.trans hnil)
    rw [hsame, hsame']
    rcases begins_bind.mp hb with hb | ⟨reply, h₅, h₆, rfl, hchunk, hb⟩
    · rcases begins_readChunk hb with htrying | ⟨failures, tried, data, htried, hrequests, hlength, hdata⟩
      · exact ⟨first, [], [], _, Nat.le_of_lt hlt, rfl, .done, htrying, fun heq => absurd heq (Nat.ne_of_lt hlt)⟩
      · exact ⟨first + 1, [data], _, [], hlt, (List.append_nil _).symm,
          hrequests ▸ .chunk htried hlength hdata .done, trying_nil _, fun _ => rfl⟩
    · obtain ⟨failures, tried, htried, ⟨data, rfl, hrequests, hlength, hdata⟩ | ⟨rfl, hrequests, hlength⟩⟩ :=
        finishes_readChunk hchunk
      · obtain ⟨next, pieces, read, current, hle, hrest, hread, htrying, hend⟩ := ih (by omega) hb
        rw [hnext] at hread
        refine ⟨next, data :: pieces, _, current, hle, ?_, .chunk htried hlength hdata hread, htrying, hend⟩
        rw [requestsOf_append, hrequests, hrest]
        simp
      · obtain rfl := begins_done.mp hb
        refine ⟨first, [], [], tried, Nat.le_of_lt hlt, ?_, .done,
          ⟨failures, tried, htried, .inl ⟨rfl, Nat.le_of_eq hlength⟩⟩, fun heq => absurd heq (Nat.ne_of_lt hlt)⟩
        rw [List.append_nil, hrequests, List.nil_append]

/-- A dump ends with all its chunks in order, or gives up at one of them with the last failure, or heeds a stop. -/
theorem finishes_readChunks {left : Nat} {done : List Bytes} {r : Except BackupError Bytes}
    (hprogress : ∀ x, (progress x).Only fun c => kindOf c ≠ .exchange) (hleft : left ≤ config.count)
    (hf : (readChunks camera config progress heedsStop left done).Finishes h r) :
    Heeded h ∨
    (∃ pieces, r = .ok (done.reverse.flatten ++ pieces.flatten) ∧
      InOrder camera config config.count (config.count - left) pieces (requestsOf h)) ∨
    ∃ k < config.count, ∃ pieces read failures tried cause,
      r = .error (.chunkFailed (config.offset k) config.attempts cause) ∧ requestsOf h = read ++ tried ∧
        InOrder camera config k (config.count - left) pieces read ∧ Tried camera config k failures tried ∧
        failures.length = config.attempts.toNat ∧ failures.getLast? = some cause := by
  induction left generalizing done h with
  | zero =>
    obtain ⟨rfl, rfl⟩ := finishes_done.mp hf
    exact .inr (.inl ⟨[], by simp, .done⟩)
  | succ left ih =>
    obtain ⟨first, hfirst⟩ : ∃ first, config.count - (left + 1) = first := ⟨_, rfl⟩
    have hlt : first < config.count := by omega
    have hnext : config.count - left = first + 1 := by omega
    rw [hfirst]
    simp only [readChunks, bind_eq, finishes_bind, hfirst] at hf
    obtain ⟨stop, h₁, h₂, rfl, hstop, hf⟩ := hf
    cases stop with
    | true => exact .inl (heeded_append.mpr (.inl (heeded_of_shouldStop hstop)))
    | false =>
    simp only [Bool.false_eq_true, if_false, finishes_bind] at hf
    obtain ⟨u, h₃, h₄, rfl, hprog, reply, own, post, rfl, hchunk, hf⟩ := hf
    have hlook : requestsOf h₁ = [] :=
      requestsOf_eq_nil ((only_shouldStop (P := fun c => kindOf c ≠ .exchange) (by simp)).calls hstop.begins)
    have hhear : requestsOf h₃ = [] := requestsOf_eq_nil ((hprogress _).calls hprog.begins)
    rw [requestsOf_append, requestsOf_append, requestsOf_append, hlook, hhear, List.nil_append, List.nil_append]
    obtain ⟨failures, tried, htried, ⟨data, rfl, hrequests, hlength, hdata⟩ | ⟨rfl, hrequests, hlength⟩⟩ :=
      finishes_readChunk hchunk
    · rcases ih (by omega) hf with hheeded | ⟨pieces, rfl, hread⟩ |
        ⟨k, hk, pieces, read, failures', tried', cause, rfl, hrest, hread, hend⟩
      · exact .inl (by simp [hheeded])
      · rw [hnext] at hread
        refine .inr (.inl ⟨data :: pieces, by simp, ?_⟩)
        rw [hrequests, List.append_assoc]
        exact .chunk htried hlength hdata hread
      · rw [hnext] at hread
        refine .inr (.inr ⟨k, hk, data :: pieces, _, failures', tried', cause, rfl, ?_,
          .chunk htried hlength hdata hread, hend⟩)
        rw [hrequests, hrest]
        simp
    · obtain ⟨rfl, rfl⟩ := finishes_done.mp hf
      have hlast : failures.getLast? = some (failures.getLastD (.failed "no attempt made")) := by
        have hattempts := config.attempts_pos
        cases failures with
        | nil =>
          rw [← hlength] at hattempts
          cases hattempts
        | cons e failures => rw [List.getLastD_eq_getLast?, List.getLast?_cons, Option.getD_some]
      refine .inr (.inr ⟨first, hlt, [], [], failures, tried, _, rfl, ?_, .done, htried, hlength, hlast⟩)
      rw [hrequests, requestsOf_nil, List.append_nil, List.nil_append]

/-- The notes at the end of a dump are no requests. -/
theorem begins_read (hprogress : ∀ x, (progress x).Only fun c => kindOf c ≠ .exchange)
    (hb : (read camera config progress heedsStop).Begins h) : ∃ next pieces done current, next ≤ config.count ∧
      requestsOf h = done ++ current ∧ InOrder camera config next 0 pieces done ∧
      Trying camera config next config.attempts.toNat current ∧ (next = config.count → current = []) := by
  have hchunks : ∀ {h'}, (readChunks camera config progress heedsStop config.count []).Begins h' →
      requestsOf h = requestsOf h' → ∃ next pieces done current, next ≤ config.count ∧
      requestsOf h = done ++ current ∧ InOrder camera config next 0 pieces done ∧
      Trying camera config next config.attempts.toNat current ∧ (next = config.count → current = []) := by
    intro h' hb' hsame
    have hcalls := begins_readChunks hprogress (Nat.le_refl _) hb'
    rwa [Nat.sub_self, ← hsame] at hcalls
  simp only [read, bind_eq] at hb
  rcases begins_bind.mp hb with hb | ⟨result, h₁, h₂, rfl, hread, hb⟩
  · exact hchunks hb rfl
  · refine hchunks hread.begins ?_
    have hnotes : requestsOf h₂ = [] := by
      refine requestsOf_eq_nil (Only.calls (P := fun c => kindOf c ≠ .exchange) ?_ hb)
      split
      · exact only_bind (hprogress _) fun _ => only_bind (only_report.mpr (by simp)) fun _ => trivial
      · trivial
    rw [requestsOf_append, hnotes, List.append_nil]

theorem finishes_read {r : Except BackupError Bytes}
    (hprogress : ∀ x, (progress x).Only fun c => kindOf c ≠ .exchange)
    (hf : (read camera config progress heedsStop).Finishes h r) (hcalm : ¬ Heeded h) :
    (∃ pieces, r = .ok pieces.flatten ∧ InOrder camera config config.count 0 pieces (requestsOf h)) ∨
    ∃ k < config.count, ∃ pieces done failures tried cause,
      r = .error (.chunkFailed (config.offset k) config.attempts cause) ∧ requestsOf h = done ++ tried ∧
        InOrder camera config k 0 pieces done ∧ Tried camera config k failures tried ∧
        failures.length = config.attempts.toNat ∧ failures.getLast? = some cause := by
  simp only [read, bind_eq, finishes_bind] at hf
  obtain ⟨result, h₁, h₂, rfl, hread, hf⟩ := hf
  rw [heeded_append, not_or] at hcalm
  have hend := finishes_readChunks hprogress (Nat.le_refl _) hread
  rw [Nat.sub_self] at hend
  rcases hend.resolve_left hcalm.1 with ⟨pieces, rfl, hpieces⟩ |
    ⟨k, hk, pieces, done, failures, tried, cause, rfl, hgiven⟩
  · simp only [finishes_bind, finishes_report] at hf
    obtain ⟨u, h₃, h₄, rfl, hprog, u', h₅, h₆, rfl, rfl, hf⟩ := hf
    obtain ⟨rfl, rfl⟩ := finishes_done.mp hf
    refine .inl ⟨pieces, rfl, ?_⟩
    rw [requestsOf_append, requestsOf_append, requestsOf_eq_nil ((hprogress _).calls hprog.begins)]
    simpa using hpieces
  · obtain ⟨rfl, rfl⟩ := finishes_done.mp hf
    rw [List.append_nil]
    exact .inr ⟨k, hk, pieces, done, failures, tried, cause, rfl, hgiven⟩

end Requests

/-! ## Exact, or failed -/

/-- Whatever the hardware monitor replies, a dump that nobody stops is exact or fails.  The chunks fit their
words, so no product and no difference of them is cut off.  At every moment the requests are chunks in order and
then attempts at the next one.  A dump that succeeds is the accepted replies of all the chunks in order, as long
as the flash; one that fails names the chunk at which all attempts failed, with the last of these failures, and
asked for nothing after it. -/
theorem read_is_exact_or_fails {σ : Type} (env : Environment (cameras.sum host) σ) (s : σ) (camera : Camera)
    (config : BackupConfig) (progress : Single → Action Unit)
    (hprogress : ∀ x, (progress x).Only fun c => kindOf c ≠ .exchange)
    (hends : ∀ x, (progress x).StallsAfter fun _ => False) (heedsStop : Bool)
    (hcalm : ¬ Heeded ((read camera config progress heedsStop).history env s)) :
    let c := max config.chunkSize.toNat 1
    let f := config.flashSize.toNat
    let m := max config.maxAttempts.toNat 1
    let n := (f + c - 1) / c
    let program := read camera config progress heedsStop
    let requests := requestsOf (program.history env s)
    (n < 2 ^ 32 ∧ config.attempts.toNat = m ∧ ∀ k < n, k * c < f ∧ f < 2 ^ 32 ∧
      (config.offset k).toNat = k * c ∧ (config.size k).toNat = min c (f - k * c) ∧
      config.request k = Monitor.flashRead (config.offset k) (config.size k) ∧
      (config.request k).wordAt 8 4 = k * c ∧ (config.request k).wordAt 12 4 = min c (f - k * c)) ∧
    (∃ next ≤ n, ∃ pieces done current, requests = done ++ current ∧ InOrder camera config next 0 pieces done ∧
      Trying camera config next m current ∧ (next = n → current = [])) ∧
    (program.run env s).1 ≠ .stalled ∧
    ∀ result, (program.run env s).1 = .finished result →
      (∃ pieces, result = .ok pieces.flatten ∧ InOrder camera config n 0 pieces requests ∧
        pieces.flatten.length = f) ∨
      ∃ k < n, ∃ pieces done failures tried cause,
        result = .error (.chunkFailed (config.offset k) config.attempts cause) ∧ requests = done ++ tried ∧
          InOrder camera config k 0 pieces done ∧ Tried camera config k failures tried ∧ failures.length = m ∧
          failures.getLast? = some cause := by
  intro c f m n program requests
  have hm : config.attempts.toNat = m := config.toNat_attempts
  refine ⟨⟨?_, hm, fun k hk => ?_⟩, ?_, fun hstalled => ?_, fun result hrun => ?_⟩
  · exact Nat.lt_of_le_of_lt config.count_le config.flashSize.toNat_lt
  · have hoffset : (config.offset k).toNat = k * c := BackupConfig.toNat_offset hk
    have hsize : (config.size k).toNat = min c (f - k * c) := BackupConfig.toNat_size
    refine ⟨config.plan.offset_lt hk, config.flashSize.toNat_lt, hoffset, hsize, rfl, ?_, ?_⟩
    · rw [← hoffset]
      exact Monitor.wordAt_command_first _ _ _ _ _
    · rw [← hsize]
      exact Monitor.wordAt_command_second _ _ _ _ _
  · obtain ⟨next, pieces, done, current, hnext, hrequests, hdone, htrying, hend⟩ :=
      begins_read hprogress (begins_history env program s)
    exact ⟨next, hnext, pieces, done, current, hrequests, hdone, hm ▸ htrying, hend⟩
  · obtain ⟨e, -, hfalse⟩ := (stallsAfter_read (P := fun _ => False) hends heedsStop).exists_call hstalled
    exact hfalse
  · rw [← hm]
    refine (finishes_read hprogress (finishes_history hrun) hcalm).imp_left ?_
    rintro ⟨pieces, rfl, hpieces⟩
    exact ⟨pieces, rfl, hpieces, hpieces.length_flatten⟩

/-- A world in which hardware monitors give these replies, one after the other, and are gone after the last one. -/
def replying : Environment (cameras.sum host) (List (Except LinkError Bytes) × Obliging)
  | .inl (.exchange _ _ _), (reply :: replies, o) => (some reply, replies, o)
  | .inl (.exchange _ _ _), ([], o) => (some (.error .disconnected), [], o)
  | c, (replies, o) => ((Obliging.world c o).1, replies, (Obliging.world c o).2)

/-- Five bytes in chunks of two, with two attempts to each: one dump with a failure and a short reply, and one
that is given up at its second chunk. -/
theorem read_is_exact_or_fails_replying :
    let o : Obliging := { camera := Obliging.unit }
    let config : BackupConfig := { flashSize := 5, chunkSize := 2, maxAttempts := 2 }
    let program := read Obliging.unit config (fun _ => .done ()) false
    let good : List (Except LinkError Bytes) := [.error .busy, .ok [1, 2], .ok [3], .ok [3, 4], .ok [5]]
    let bad : List (Except LinkError Bytes) := [.ok [1, 2], .ok [3], .error .busy, .ok [3, 4]]
    (program.run replying (good, o)).1 = .finished (.ok [1, 2, 3, 4, 5]) ∧
      (∃ pieces, pieces.flatten = [1, 2, 3, 4, 5] ∧
        InOrder Obliging.unit config config.count 0 pieces (requestsOf (program.history replying (good, o)))) ∧
      (program.run replying (bad, o)).1 = .finished (.error (.chunkFailed 2 2 .busy)) ∧
      ∃ k < config.count, config.offset k = 2 ∧ ∃ pieces done failures tried,
        requestsOf (program.history replying (bad, o)) = done ++ tried ∧
        InOrder Obliging.unit config k 0 pieces done ∧
          Tried Obliging.unit config k failures tried ∧ failures.getLast? = some .busy := by
  intro o config program good bad
  have hgood : (program.run replying (good, o)).1 = .finished (.ok [1, 2, 3, 4, 5]) := by decide +kernel
  have hbad : (program.run replying (bad, o)).1 = .finished (.error (.chunkFailed 2 2 .busy)) := by decide +kernel
  refine ⟨hgood, ?_, hbad, ?_⟩
  · have h := read_is_exact_or_fails replying (good, o) Obliging.unit config (fun _ => .done ()) (fun _ => trivial)
      (fun _ => trivial) false (by decide +kernel)
    rcases h.2.2.2 _ hgood with ⟨pieces, hresult, hpieces, -⟩ |
      ⟨k, hk, pieces, done, failures, tried, cause, hresult, -⟩
    · exact ⟨pieces, (Except.ok.inj hresult).symm, hpieces⟩
    · cases hresult
  · have h := read_is_exact_or_fails replying (bad, o) Obliging.unit config (fun _ => .done ()) (fun _ => trivial)
      (fun _ => trivial) false (by decide +kernel)
    rcases h.2.2.2 _ hbad with ⟨pieces, hresult, -⟩ |
      ⟨k, hk, pieces, done, failures, tried, cause, hresult, hrequests, hdone, htried, -, hlast⟩
    · cases hresult
    · obtain ⟨hoffset, -, rfl⟩ := BackupError.chunkFailed.inj (Except.error.inj hresult)
      exact ⟨k, hk, hoffset.symm, pieces, done, failures, tried, hrequests, hdone, htried, hlast⟩

end Flash

end Reflash
