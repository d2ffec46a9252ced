import Reflash.Proofs.Flash.Dump

/-!
# Reflash.Proofs.Flash.Relayed — a dump over a queue of replies

Where the replies to a camera's requests wait in a queue, an exchange that ends too early leaves one there, and
the next exchange takes it for the reply to its own request.  `Relayed answer camera pending h pending'` is a
history over such a queue.  The requests that wait trail behind the chunk that is being read, by no more than
their number (`Trailing`), and so does what a chunk is read from (`ReadFrom`, `finishes_read_relayed`).
-/

namespace Reflash

open Program

namespace Flash

variable {answer : Bytes → Bytes} {camera : Camera} {config : BackupConfig} {pending pending' : List Bytes}
  {h h₁ h₂ : History} {i c n lag : Nat}

/-! ## Exchanges over a queue -/

/-- One exchange: from the requests that wait for their replies before it to those that wait after it. -/
inductive Exchanged (answer : Bytes → Bytes) (request : Bytes) :
    List Bytes → Except LinkError Bytes → List Bytes → Prop
  | refused {pending : List Bytes} {e : LinkError} : Exchanged answer request pending (.error e) pending
  | late {pending : List Bytes} {e : LinkError} : Exchanged answer request pending (.error e)
      (pending ++ [request])
  | answered {pending rest : List Bytes} {oldest : Bytes} {result : Except LinkError Bytes} :
    pending ++ [request] = oldest :: rest →
    (∀ data, result = .ok data → Monitor.reply? request (answer oldest) = some data) →
    Exchanged answer request pending result rest

/-- A history in which the exchanges with a camera go over a queue, and nothing else is asked of any camera. -/
inductive Relayed (answer : Bytes → Bytes) (camera : Camera) : List Bytes → History → List Bytes → Prop
  | nil {pending : List Bytes} : Relayed answer camera pending [] pending
  | told {pending pending' : List Bytes} {c : HostCall} {a? : Option c.Answer} {h : History} :
    Relayed answer camera pending h pending' → Relayed answer camera pending (.told c a? :: h) pending'
  | exchange {pending pending' next : List Bytes} {request : Bytes} {timeout : Nanos}
      {result : Except LinkError Bytes}
      {h : History} : Exchanged answer request pending result next → Relayed answer camera next h pending' →
    Relayed answer camera pending (.asked (.exchange camera request timeout) (some result) :: h) pending'

theorem Exchanged.length_le {request : Bytes} {result : Except LinkError Bytes}
    (hx : Exchanged answer request pending result pending') : pending.length ≤ pending'.length := by
  cases hx with
  | refused => exact Nat.le_refl _
  | late => simp
  | answered heq _ => simpa using Nat.le_of_eq (congrArg List.length heq)

namespace Relayed

/-- What is behind stays behind: no exchange takes two replies. -/
theorem length_le (hr : Relayed answer camera pending h pending') : pending.length ≤ pending'.length := by
  induction hr with
  | nil => exact Nat.le_refl _
  | told _ ih => exact ih
  | exchange hx _ ih => exact Nat.le_trans hx.length_le ih

theorem split (hr : Relayed answer camera pending (h₁ ++ h₂) pending') :
    ∃ next, Relayed answer camera pending h₁ next ∧ Relayed answer camera next h₂ pending' := by
  induction h₁ generalizing pending with
  | nil => exact ⟨pending, .nil, hr⟩
  | cons e h₁ ih =>
    cases hr with
    | told hr =>
      obtain ⟨next, h₁r, h₂r⟩ := ih hr
      exact ⟨next, .told h₁r, h₂r⟩
    | exchange hx hr =>
      obtain ⟨next, h₁r, h₂r⟩ := ih hr
      exact ⟨next, .exchange hx h₁r, h₂r⟩

theorem eq_of_quiet (hr : Relayed answer camera pending h pending') (hquiet : ∀ e ∈ h, kindOf e.call ≠ .exchange) :
    pending' = pending := by
  induction hr with
  | nil => rfl
  | told _ ih => exact ih fun e he => hquiet e (List.mem_cons_of_mem _ he)
  | exchange => exact absurd rfl (hquiet _ List.mem_cons_self)

end Relayed

/-! ## Chunks behind the one that is read -/

/-- Chunks below `n` whose replies are in the queue, oldest first: each is behind by no more than there are
replies from its own on. -/
def Trailing (n : Nat) : List Nat → Prop
  | [] => True
  | c :: rest => c < n ∧ n ≤ c + (rest.length + 1) ∧ Trailing n rest

/-- One more request, for the last chunk that was asked for or the one after it. -/
theorem Trailing.push {chunks : List Nat} (hchunks : Trailing n chunks) (hle : i ≤ n) (hlt : n ≤ i + 1) :
    Trailing (i + 1) (chunks ++ [i]) := by
  induction chunks with
  | nil => exact ⟨Nat.lt_succ_self i, Nat.le_refl _, trivial⟩
  | cons c rest ih =>
    obtain ⟨hc, hbound, hrest⟩ := hchunks
    rw [List.cons_append]
    exact ⟨Nat.lt_of_lt_of_le hc hlt, by simp; omega, ih hrest⟩

/-- The bytes of chunk `i` came in reply to the request for chunk `c`, at most `lag` chunks before. -/
structure ReadFrom (answer : Bytes → Bytes) (config : BackupConfig) (lag i c : Nat) (data : Bytes) : Prop where
  le : c ≤ i
  le_add : i ≤ c + lag
  reply : Monitor.reply? (config.request i) (answer (config.request c)) = some data
  length : data.length = (config.size i).toNat

theorem ReadFrom.mono {lag' : Nat} {data : Bytes} (hdata : ReadFrom answer config lag i c data)
    (hlag : lag ≤ lag') :
    ReadFrom answer config lag' i c data :=
  { hdata with le_add := Nat.le_trans hdata.le_add (Nat.add_le_add_left hlag c) }

/-- One more exchange for chunk `i`.  What is left in the queue trails behind as before, and what was taken out
of it by no more than what is left. -/
theorem Exchanged.trailing {chunks : List Nat} {result : Except LinkError Bytes} (hle : i ≤ n) (hlt : n ≤ i + 1)
    (hchunks : Trailing n chunks)
    (hx : Exchanged answer (config.request i) (chunks.map config.request) result pending) :
    ∃ n' rest, i ≤ n' ∧ n' ≤ i + 1 ∧ Trailing n' rest ∧ pending = rest.map config.request ∧
      ∀ data, result = .ok data → data.length = (config.size i).toNat →
        n' = i + 1 ∧ ∃ c, ReadFrom answer config rest.length i c data := by
  have hpush := hchunks.push hle hlt
  cases hx with
  | refused => exact ⟨n, chunks, hle, hlt, hchunks, rfl, nofun⟩
  | late => exact ⟨i + 1, chunks ++ [i], Nat.le_succ i, Nat.le_refl _, hpush, by simp, nofun⟩
  | answered heq hreply =>
    have hmap : chunks.map config.request ++ [config.request i] = (chunks ++ [i]).map config.request := by simp
    obtain ⟨c, rest, hcons, rfl, rfl⟩ := List.map_eq_cons_iff.mp (hmap.symm.trans heq)
    rw [hcons] at hpush
    obtain ⟨hc, hbound, hrest⟩ := hpush
    exact ⟨i + 1, rest, Nat.le_succ i, Nat.le_refl _, hrest, rfl, fun data hdata hlength =>
      ⟨rfl, c, Nat.le_of_lt_succ hc, by omega, hreply data hdata, hlength⟩⟩

/-! ## The dump -/

theorem finishes_readChunk_relayed {left : Nat} {last : LinkError} {data : Bytes} {chunks : List Nat} (hle : i ≤ n)
    (hlt : n ≤ i + 1) (hchunks : Trailing n chunks)
    (hf : (readChunk camera config (config.offset i) (config.size i) left last).Finishes h (.ok data))
    (hr : Relayed answer camera (chunks.map config.request) h pending) :
    ∃ c rest, pending = rest.map config.request ∧ Trailing (i + 1) rest ∧
      ReadFrom answer config rest.length i c data := by
  induction left generalizing last h n chunks with
  | zero => simp [readChunk] at hf
  | succ left ih =>
    simp only [readChunk, bind_eq, finishes_bind, finishes_ask] at hf
    obtain ⟨reply, h₁, h₂, rfl, rfl, hf⟩ := hf
    cases hr with
    | exchange hx hr =>
      obtain ⟨n', rest, hle', hlt', hrest, rfl, htaken⟩ := hx.trailing hle hlt hchunks
      split at hf
      · rename_i data' hcheck
        obtain ⟨rfl, hdata⟩ := finishes_done.mp hf
        obtain rfl := Except.ok.inj hdata
        obtain ⟨rfl, hlength⟩ := checkLength_eq_ok.mp hcheck
        obtain ⟨rfl, c, hread⟩ := htaken _ rfl hlength
        cases hr with
        | nil => exact ⟨c, rest, rfl, hrest, hread⟩
      · simp only [finishes_bind, finishes_report] at hf
        obtain ⟨u, h₃, h₄, rfl, rfl, hf⟩ := hf
        cases hr with
        | told hr => exact ih hle' hlt' hrest hf hr

theorem finishes_readChunks_relayed {progress : Single → Action Unit} {heedsStop : Bool} {left : Nat}
    {done : List Bytes} {dump : Bytes} {chunks : List Nat}
    (hprogress : ∀ x, (progress x).Only fun c => kindOf c ≠ .exchange) (hleft : left ≤ config.count)
    (hchunks : Trailing (config.count - left) chunks)
    (hf : (readChunks camera config progress heedsStop left done).Finishes h (.ok dump))
    (hr : Relayed answer camera (chunks.map config.request) h pending) :
    ∃ piece : Nat → Bytes, dump = done.reverse.flatten ++ (List.range' (config.count - left) left).flatMap piece ∧
      ∀ i, config.count - left ≤ i → i < config.count →
        ∃ c, ReadFrom answer config pending.length i c (piece i) := by
  induction left generalizing done h chunks with
  | zero =>
    obtain ⟨rfl, hdump⟩ := finishes_done.mp hf
    obtain rfl := Except.ok.inj hdump
    exact ⟨fun _ => [], by simp, by omega⟩
  | succ left ih =>
    obtain ⟨first, hfirst⟩ : ∃ first, config.count - (left + 1) = first := ⟨_, rfl⟩
    have hnext : config.count - left = first + 1 := by omega
    rcases finishes_readChunks_succ hprogress hfirst hf with heq | ⟨pre, own, post, last, rfl, hpre,
      ⟨data, hchunk, hf⟩ | ⟨e, -, -, heq⟩⟩
    · cases heq
    · obtain ⟨next, hprer, hr⟩ := hr.split
      obtain rfl := hprer.eq_of_quiet hpre
      obtain ⟨next, hownr, hpostr⟩ := hr.split
      rw [hfirst] at hchunks ⊢
      obtain ⟨c, rest, rfl, hrest, hread⟩ :=
        finishes_readChunk_relayed (Nat.le_refl _) (Nat.le_succ _) hchunks hchunk hownr
      obtain ⟨piece, rfl, hpieces⟩ := ih (by omega) (hnext ▸ hrest) hf hpostr
      rw [hnext] at hpieces ⊢
      refine ⟨Function.update piece first data, by rw [flatMap_update]; simp, fun i hle hlt => ?_⟩
      by_cases hifirst : i = first
      · subst hifirst
        rw [Function.update_self]
        exact ⟨c, hread.mono (by simpa using hpostr.length_le)⟩
      · rw [Function.update_of_ne hifirst]
        exact hpieces i (by omega) hlt
    · cases heq

/-- A dump that begins with an empty queue: each chunk was read from a request that is behind by no more than
there are replies left over in the end. -/
theorem finishes_read_relayed {progress : Single → Action Unit} {heedsStop : Bool} {dump : Bytes}
    (hprogress : ∀ x, (progress x).Only fun c => kindOf c ≠ .exchange)
    (hf : (read camera config progress heedsStop).Finishes h (.ok dump))
    (hr : Relayed answer camera [] h pending) :
    ∃ piece : Nat → Bytes, dump = (List.range config.count).flatMap piece ∧
      ∀ i < config.count, ∃ c, ReadFrom answer config pending.length i c (piece i) := by
  obtain ⟨h₁, h₂, rfl, hchunks, hquiet⟩ := readChunks_of_finishes_read hprogress hf
  obtain ⟨next, hr₁, hr₂⟩ := hr.split
  obtain rfl := hr₂.eq_of_quiet hquiet
  have hempty : Trailing (config.count - config.count) [] := trivial
  obtain ⟨piece, rfl, hpieces⟩ := finishes_readChunks_relayed hprogress (Nat.le_refl _) hempty hchunks hr₁
  exact ⟨piece, by simp [List.range_eq_range'], fun i hi => hpieces i (by omega) hi⟩

end Flash

end Reflash
