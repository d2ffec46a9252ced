import Mathlib.Data.List.Induction
import Reflash.Proofs.Rules
import Reflash.Proofs.Session.Stopping

/-!
# Reflash.Proofs.Dfu.Callback — when the progress of a download is heard of

Whoever starts a transfer hears of its progress by a callback.  A `Tally` of the calls so far says what is owed:
after a download that the channel took with data, the callback with the fraction that is sent; after the empty
one, the pause that lets the loader settle, and then the callback with one.  A transfer makes the call that is
owed before any other, and calls back only when it owes it (`obeys_transfer`), so it calls back once for every
download that was taken (`CallsBack`).
-/

namespace Reflash

open Program

namespace Dfu

/-! ## Rounds that keep to a rule -/

section Rounds

variable {channel : ControlChannel} {config : TransferConfig} {heedsStop : Bool} {progress : Single → Action Unit}
  {total sent : Nat} {image : Bytes} {transaction : UInt16} {x : Single} {γ : Type} {R : Rule (cameras.sum host) γ}
  {failed : γ → Prop} {Q : Nat → γ → Prop} {g : γ}

/-- The kinds of calls that a transfer makes itself. -/
def ownKinds : List CallKind := [.transfer, .clock, .log, .stop]

/-- A call of a transfer that sends no part of the image. -/
def Quiet (c : (cameras.sum host).Call) : Prop := kindOf c ∈ ownKinds ∧ ¬ Requests .download c

theorem quiet_of_ofKinds {kinds : List CallKind} (hown : kinds ⊆ ownKinds) (hkinds : .transfer ∉ kinds)
    (c : (cameras.sum host).Call) (hc : ofKinds kinds c) : Quiet c :=
  ⟨hown hc, not_requests_of_ofKinds hc hkinds⟩

theorem quiet_transfer {packet : ControlPacket} {timeout : Nanos}
    (hpacket : packet.request ≠ DfuRequest.download.code) :
    Quiet (.inl (.transfer channel packet timeout)) :=
  ⟨by simp [ownKinds], fun hc => hpacket (requests_transfer.mp hc)⟩

theorem quiet_awaitChunk : Attempt.Only Quiet (awaitChunk channel config transaction) :=
  only_awaitChunk_of (quiet_transfer (by decide)) (quiet_of_ofKinds (by simp [ownKinds]) (by simp))

theorem quiet_manifest : Attempt.Only Quiet (manifest channel config) :=
  only_manifest_of (quiet_transfer (by decide)) (quiet_of_ofKinds (by simp [ownKinds]) (by simp))

theorem quiet_abort : (abort channel config).Only Quiet :=
  only_abort_of (quiet_transfer (by decide)) fun _ => ⟨by simp [ownKinds], not_requests_of_ne (by simp)⟩

theorem quiet_shouldStop : (shouldStop heedsStop).Only Quiet :=
  only_shouldStop ⟨by simp [ownKinds], not_requests_of_ne (by simp)⟩

section

variable (hquiet : ∀ n c, Quiet c → R.Keeps (Q n) c) (hfailed : ∀ n g, Q n g → failed g)

include hquiet hfailed

theorem obeys_quiet {ε α : Type} {y : Attempt ε α} (hy : y.Only Quiet) (n : Nat) (hg : Q n g) :
    y.Obeys R failed (fun _ => Q n) g :=
  Attempt.obeys_of_only (Program.Only.mono hy (hquiet n)) (hfailed n) hg

variable (hround : ∀ n transaction payload g, Q n g → payload ≠ [] → n + payload.length ≤ total →
  (do send channel config transaction payload; progress (Single.quotient (n + payload.length) total) :
    Attempt TransferError Unit).Obeys R failed (fun _ => Q (n + payload.length)) g)

include hround

/-- A rule that the sending of each chunk obeys, with what follows from it for what is sent, and that nothing
else in a round disturbs. -/
theorem obeys_sendChunks {chunks : List Chunk} (hchunks : ∀ chunk ∈ chunks, 0 < chunk.length)
    (himage : (chunks.map (·.length)).sum = image.length) (htotal : sent + image.length = total) (hg : Q sent g) :
    (sendChunks channel config heedsStop progress total chunks image sent transaction).Obeys R failed
      (fun _ => Q total) g := by
  induction chunks generalizing image sent transaction g with
  | nil =>
    obtain rfl : image = [] := List.length_eq_zero_iff.mp (by simpa using himage.symm)
    obtain rfl : sent = total := by simpa using htotal
    refine obeys_quiet hquiet hfailed ?_ _ hg
    refine Attempt.only_bind (Attempt.only_lift (only_report.mpr ?_)) fun _ => Attempt.only_pure _
    exact ⟨by simp [ownKinds], not_requests_of_ne (by simp)⟩
  | cons chunk chunks ih =>
    have hpos : 0 < chunk.length := hchunks chunk List.mem_cons_self
    rw [List.map_cons, List.sum_cons] at himage
    have htake : (image.take chunk.length).length = chunk.length := by
      rw [List.length_take]
      omega
    have hrest : (image.drop chunk.length).length = image.length - chunk.length := List.length_drop
    have hchunk :
        (sendChunk channel config heedsStop progress (Single.quotient (sent + chunk.length) total) transaction
        (image.take chunk.length)).Obeys R failed (fun _ => Q (sent + chunk.length)) g := by
      refine Attempt.obeys_bind (obeys_quiet hquiet hfailed (Attempt.only_lift quiet_shouldStop) sent hg)
        fun stop g₁ hg₁ => ?_
      split
      · refine Attempt.obeys_bind (obeys_quiet hquiet hfailed (Attempt.only_lift quiet_abort) sent hg₁)
          fun _ g₂ hg₂ => ?_
        exact Attempt.obeys_throw (hfailed sent g₂ hg₂)
      · have hpayload : image.take chunk.length ≠ [] := List.length_pos_iff.mp (by omega)
        have hpart := hround sent transaction (image.take chunk.length) g₁ hg₁ hpayload (by omega)
        rw [htake] at hpart
        rw [← LawfulMonad.bind_assoc]
        exact Attempt.obeys_bind hpart fun _ _ hg₂ => obeys_quiet hquiet hfailed quiet_awaitChunk _ hg₂
    rw [sendChunks_cons]
    exact Attempt.obeys_bind hchunk fun _ g' hg' =>
      ih (fun c hc => hchunks c (List.mem_cons_of_mem _ hc)) (by omega) (by omega) hg'

theorem obeys_download (hg : Q 0 g) (htotal : image.length = total) :
    (download channel config heedsStop image progress).Obeys R failed (fun _ => Q total) g := by
  unfold download
  split
  · exact Attempt.obeys_throw (hfailed 0 g hg)
  subst htotal
  refine obeys_sendChunks hquiet hfailed hround (fun chunk hchunk => ?_) ?_ (Nat.zero_add _) hg
  · rw [ChunkPlan.chunks_eq] at hchunk
    obtain ⟨i, hi, rfl⟩ := List.mem_map.mp hchunk
    exact ChunkPlan.chunk_length_pos _ (List.mem_range.mp hi)
  · have htotal := ChunkPlan.total_le ⟨image.length, config.maxChunk⟩
    rw [ChunkPlan.chunks_eq, List.map_map]
    exact (ChunkPlan.sum_length _ _).trans (Nat.min_eq_left htotal)

end

end Rounds

/-! ## What is owed -/

/-- The data of a download that the channel took. -/
def accepted? : Event (cameras.sum host) → Option Bytes
  | ⟨.inl (.transfer _ packet _), some (.ok _)⟩ =>
    if packet.request = DfuRequest.download.code then some packet.data else none
  | _ => none

/-- The next call that a transfer owes to whoever hears of its progress. -/
inductive Owed where
  | nothing
  /-- The pause before the last callback. -/
  | settling
  | callback (x : Single)

/-- How much of an image is sent, and what is owed. -/
structure Tally where
  sent : Nat := 0
  owed : Owed := .nothing

/-- A call that was owed is made; a download that was taken is owed for. -/
def Tally.hear (total : Nat) (t : Tally) (e : Event (cameras.sum host)) : Tally :=
  match t.owed with
  | .callback _ => { t with owed := .nothing }
  | .settling => { t with owed := .callback .one }
  | .nothing =>
    match accepted? e with
    | none => t
    | some [] => { t with owed := .settling }
    | some (byte :: data) =>
      let sent := t.sent + (byte :: data).length
      ⟨sent, .callback (Single.quotient sent total)⟩

/-- What is owed is done next.  A transfer for which nothing is owed makes no calls but its own. -/
def bookkeeping (mark : Single → HostCall) (settle : Nanos) (total : Nat) : Rule (cameras.sum host) Tally where
  step := Tally.hear total
  allows t c :=
    match t.owed with
    | .nothing => kindOf c ∈ ownKinds
    | .settling => c = .inr (.sleep settle)
    | .callback x => c = .inr (mark x)

/-- A callback that makes one call. -/
def callback (mark : Single → HostCall) (x : Single) : Action Unit := (tell (mark x)).bind fun _ => .done ()

section Bookkeeping

variable {channel : ControlChannel} {config : TransferConfig} {heedsStop : Bool}
  {mark : Single → HostCall} {settle : Nanos} {total n : Nat} {image payload : Bytes} {transaction : UInt16}
  {t : Tally} {h : History}

theorem requests_of_accepted? {c : (cameras.sum host).Call} {a? : Option ((cameras.sum host).Answer c)}
    {data : Bytes} (he : accepted? ⟨c, a?⟩ = some data) : Requests .download c := by
  unfold accepted? at he
  split at he
  · rename_i heq
    cases heq
    split_ifs at he with hrequest
    exact requests_transfer.mpr hrequest
  · cases he

theorem accepted?_of_not_requests {c : (cameras.sum host).Call} (hc : ¬ Requests .download c)
    (a? : Option ((cameras.sum host).Answer c)) : accepted? ⟨c, a?⟩ = none := by
  cases he : accepted? ⟨c, a?⟩ with
  | none => rfl
  | some data => exact absurd (requests_of_accepted? he) hc

/-- Nothing is owed, and so much is sent. -/
def Clear (n : Nat) (t : Tally) : Prop := t = ⟨n, .nothing⟩

theorem keeps_quiet (n : Nat) (c : (cameras.sum host).Call) (hc : Quiet c) :
    (bookkeeping mark settle total).Keeps (Clear n) c := by
  rintro t rfl
  refine ⟨hc.1, fun answer => ?_⟩
  show Tally.hear total ⟨n, .nothing⟩ ⟨c, some answer⟩ = _
  simp only [Tally.hear, accepted?_of_not_requests hc.2]

theorem obeys_callback {x : Single} (ht : t = ⟨n, .callback x⟩) :
    (callback mark x).Obeys (bookkeeping mark settle total) (fun _ => Clear n) t := by
  subst ht
  have htell : (tell (mark x)).Obeys (bookkeeping mark settle total) (fun _ => Clear n) ⟨n, .callback x⟩ :=
    obeys_tell.mpr ⟨rfl, fun _ => rfl⟩
  exact obeys_bind htell fun _ _ ht => ht

/-- After a download that the channel took, something is owed. -/
theorem obeys_send {post : Tally → Prop} (ht : Clear n t)
    (hpost : ∀ reply,
      post (t.hear total (.asked (.transfer channel (.download transaction payload) config.requestTimeout)
        (some (.ok reply))))) :
    (send channel config transaction payload).Obeys (bookkeeping mark settle total) (fun t => ∃ n, Clear n t)
      (fun _ => post) t := by
  subst ht
  refine Attempt.obeys_discard
    (Attempt.obeys_of (obeys_ask.mpr ⟨by simp [bookkeeping, ownKinds], fun answer => ?_⟩))
  cases answer with
  | ok reply => exact hpost reply
  | error e => exact ⟨n, rfl⟩

theorem obeys_round (ht : Clear n t) (hpayload : payload ≠ []) :
    (do send channel config transaction payload; callback mark (Single.quotient (n + payload.length) total) :
      Attempt TransferError Unit).Obeys (bookkeeping mark settle total) (fun t => ∃ n, Clear n t)
        (fun _ => Clear (n + payload.length)) t := by
  obtain ⟨byte, data, rfl⟩ := List.exists_cons_of_ne_nil hpayload
  have hsend : (send channel config transaction (byte :: data)).Obeys (bookkeeping mark settle total)
      (fun t => ∃ n, Clear n t)
      (fun _ t => t = ⟨n + (byte :: data).length, .callback (Single.quotient (n + (byte :: data).length) total)⟩)
      t :=
    obeys_send ht fun reply => by
      subst ht
      rfl
  exact Attempt.obeys_bind hsend fun _ t' ht' => Attempt.obeys_lift (obeys_callback ht')

theorem obeys_finish (ht : Clear n t) : (finish channel config (callback mark) transaction).Obeys
    (bookkeeping mark config.settleDelay total) (fun t => ∃ n, Clear n t) (fun _ => Clear n) t := by
  have hsend : (send channel config transaction []).Obeys (bookkeeping mark config.settleDelay total)
      (fun t => ∃ n, Clear n t) (fun _ t => t = ⟨n, .settling⟩) t := obeys_send ht fun reply => by
    subst ht
    rfl
  have hsleep : ∀ t, t = ⟨n, .settling⟩ →
      (tell (.sleep config.settleDelay)).Obeys (bookkeeping mark config.settleDelay total)
      (fun _ t => t = ⟨n, .callback .one⟩) t := by
    rintro t rfl
    exact obeys_tell.mpr ⟨rfl, fun _ => rfl⟩
  refine Attempt.obeys_bind hsend fun _ t₁ ht₁ => ?_
  refine Attempt.obeys_bind (Attempt.obeys_lift (hsleep t₁ ht₁)) fun _ t₂ ht₂ => ?_
  exact Attempt.obeys_lift (obeys_callback ht₂)

/-- A transfer does what it owes at once, and owes nothing in the end. -/
theorem obeys_transfer : (transfer channel config heedsStop image (callback mark)).Obeys
    (bookkeeping mark config.settleDelay image.length) (fun t => ∃ n, Clear n t)
    (fun _ t => ∃ n, Clear n t) {} := by
  have hfailed : ∀ n t, Clear n t → ∃ n, Clear n t := fun n t ht => ⟨n, ht⟩
  have hround : ∀ n transaction payload t, Clear n t → payload ≠ [] → n + payload.length ≤ image.length →
      (do send channel config transaction payload
          callback mark (Single.quotient (n + payload.length) image.length) : Attempt TransferError Unit).Obeys
        (bookkeeping mark config.settleDelay image.length) (fun t => ∃ n, Clear n t)
        (fun _ => Clear (n + payload.length)) t :=
    fun n transaction payload t ht hpayload _ => obeys_round ht hpayload
  refine Attempt.obeys_bind (obeys_download keeps_quiet hfailed hround rfl rfl) fun next t₁ ht₁ => ?_
  refine Attempt.obeys_bind (obeys_finish ht₁) fun _ t₂ ht₂ => ?_
  exact (obeys_quiet keeps_quiet hfailed (Attempt.only_discard quiet_manifest) _ ht₂).mono fun _ _ ht₃ => ⟨_, ht₃⟩

/-! ## What was done -/

/-- The data that the channel took, download by download. -/
def taken (h : History) : List Bytes := h.filterMap accepted?

/-- How often a transfer called back; its own calls are of other kinds. -/
def callbacks (h : History) : Nat := h.countP fun e => kindOf e.call ∉ ownKinds

theorem accepted?_of_ne {e : Event (cameras.sum host)} (he : kindOf e.call ≠ .transfer) : accepted? e = none :=
  accepted?_of_not_requests (not_requests_of_ne he) e.answer?

theorem taken_concat (h : History) (e : Event (cameras.sum host)) :
    taken (h ++ [e]) = taken h ++ (accepted? e).toList := by
  cases he : accepted? e <;> simp [taken, he]

theorem callbacks_concat_of_mem {e : Event (cameras.sum host)} (he : kindOf e.call ∈ ownKinds) :
    callbacks (h ++ [e]) = callbacks h := by
  rw [callbacks, List.countP_append, List.countP_singleton,
    if_neg (by rw [decide_eq_true_eq]; exact not_not.mpr he)]
  rfl

theorem callbacks_concat_of_not_mem {e : Event (cameras.sum host)} (he : kindOf e.call ∉ ownKinds) :
    callbacks (h ++ [e]) = callbacks h + 1 := by
  rw [callbacks, List.countP_append, List.countP_singleton, if_pos (decide_eq_true he)]
  rfl

/-- How many callbacks are owed. -/
def Owed.count : Owed → Nat
  | .nothing => 0
  | .settling | .callback _ => 1

/-- The tally of a transfer that made these calls: it called back for every download, or still
owes it for the last one. -/
structure Tally.Tells (h : History) (t : Tally) : Prop where
  sent : t.sent = ((taken h).map List.length).sum
  count : callbacks h + t.owed.count = (taken h).length

theorem Tally.Tells.hear (hmark : ∀ x, kindOf (.inr (mark x)) ∉ ownKinds) (ht : t.Tells h)
    {e : Event (cameras.sum host)} (he : (bookkeeping mark settle total).allows t e.call) :
    (t.hear total e).Tells (h ++ [e]) := by
  obtain ⟨sent, owed⟩ := t
  obtain ⟨hsent, hcount⟩ := ht
  -- What is allowed depends on what is owed; only a download that is taken while nothing is owed adds to it.
  cases owed with
  | nothing =>
    have hown : callbacks (h ++ [e]) = callbacks h := callbacks_concat_of_mem he
    cases hpayload : accepted? e with
    | none =>
      simp only [Tally.hear, hpayload]
      exact ⟨by simpa [taken_concat, hpayload] using hsent, by simpa [taken_concat, hpayload, hown] using hcount⟩
    | some payload =>
      cases payload <;> simp only [Tally.hear, hpayload] <;>
        exact ⟨by simpa [taken_concat, hpayload] using hsent,
          by simpa [taken_concat, hpayload, hown, Owed.count] using hcount⟩
  | settling =>
    have hkind : kindOf e.call = .clock := (congrArg kindOf he).trans rfl
    have hown : callbacks (h ++ [e]) = callbacks h :=
      callbacks_concat_of_mem (hkind ▸ (by decide : CallKind.clock ∈ ownKinds))
    have hnone : accepted? e = none := accepted?_of_ne (hkind ▸ (by decide : CallKind.clock ≠ .transfer))
    have htaken : taken (h ++ [e]) = taken h := by simp [taken_concat, hnone]
    refine ⟨htaken ▸ hsent, ?_⟩
    rw [hown, htaken]
    exact hcount
  | callback x =>
    have hkind : kindOf e.call ∉ ownKinds := (congrArg kindOf he) ▸ hmark x
    have hback : callbacks (h ++ [e]) = callbacks h + 1 := callbacks_concat_of_not_mem hkind
    have hnone : accepted? e = none := accepted?_of_ne fun htransfer =>
      hkind (htransfer ▸ (by decide : CallKind.transfer ∈ ownKinds))
    have htaken : taken (h ++ [e]) = taken h := by simp [taken_concat, hnone]
    refine ⟨htaken ▸ hsent, ?_⟩
    rw [hback, htaken]
    exact hcount

/-- In the calls `h` of a transfer of `total` bytes, the callback comes right after each download that
the channel took with data, with the fraction that is sent then; and after the empty one the loader
settles, and the callback comes with one.  There is one callback for every download, but for the last one
as long as it is owed. -/
structure CallsBack (mark : Single → HostCall) (settle : Nanos) (total : Nat) (h : History) : Prop where
  data : ∀ before e e' after payload, h = before ++ e :: e' :: after → accepted? e = some payload → payload ≠ [] →
    e'.call = .inr (mark (Single.quotient ((taken (before ++ [e])).map List.length).sum total))
  settle : ∀ before e e' after, h = before ++ e :: e' :: after → accepted? e = some [] →
    e'.call = .inr (.sleep settle)
  last : ∀ before e e' e'' after, h = before ++ e :: e' :: e'' :: after → accepted? e = some [] →
    e''.call = .inr (mark .one)
  once : ∀ before, before <+: h → callbacks before ≤ (taken before).length ∧
    (taken before).length ≤ callbacks before + 1

/-- The tally after calls that were allowed. -/
theorem tells_after (hmark : ∀ x, kindOf (.inr (mark x)) ∉ ownKinds)
    (hh : (bookkeeping mark settle total).Permits {} h) :
    ((bookkeeping mark settle total).after {} h).Tells h := by
  induction h using List.reverseRecOn with
  | nil => exact ⟨rfl, rfl⟩
  | append_singleton h e ih =>
    rw [Rule.after_concat]
    exact (ih (hh.of_prefix (List.prefix_append h [e]))).hear hmark (hh h e [] rfl)

section Owed

variable {c : (cameras.sum host).Call} (hc : (bookkeeping mark settle total).allows t c)

include hc

theorem call_of_settling (ht : t.owed = .settling) : c = .inr (.sleep settle) := by
  simpa only [bookkeeping, ht] using hc

theorem call_of_callback {x : Single} (ht : t.owed = .callback x) : c = .inr (mark x) := by
  simpa only [bookkeeping, ht] using hc

/-- A download is sent only when nothing is owed. -/
theorem owed_of_requests (hmark : ∀ x, kindOf (.inr (mark x)) ∉ ownKinds) (hrequests : Requests .download c) :
    t.owed = .nothing := by
  have hkind : kindOf c = .transfer := hrequests.kindOf_eq
  cases howed : t.owed with
  | nothing => rfl
  | settling =>
    rw [call_of_settling hc howed] at hkind
    cases hkind
  | callback x =>
    rw [call_of_callback hc howed] at hkind
    exact absurd (hkind ▸ (by decide : CallKind.transfer ∈ ownKinds)) (hmark x)

end Owed

theorem hear_owed_of_settling {e : Event (cameras.sum host)} (ht : t.owed = .settling) :
    (t.hear total e).owed = .callback .one := by
  rw [Tally.hear, ht]

/-- What is owed after a download that was taken. -/
theorem hear_owed_of_accepted? {e : Event (cameras.sum host)} (ht : t.owed = .nothing)
    (hpayload : accepted? e = some payload) :
    (t.hear total e).owed =
      if payload = [] then .settling else .callback (Single.quotient (t.hear total e).sent total) := by
  unfold Tally.hear
  rw [ht, hpayload]
  cases payload <;> rfl

/-- Whoever does what is owed next calls back as often as something is taken, and at once. -/
theorem callsBack_of_permits (hmark : ∀ x, kindOf (.inr (mark x)) ∉ ownKinds)
    (hh : (bookkeeping mark settle total).Permits {} h) : CallsBack mark settle total h := by
  have htells : ∀ before, before <+: h → ((bookkeeping mark settle total).after {} before).Tells before :=
    fun before hbefore =>
    tells_after hmark (hh.of_prefix hbefore)
  have howed : ∀ before e after payload, h = before ++ e :: after → accepted? e = some payload →
      ((bookkeeping mark settle total).after {} (before ++ [e])).owed = if payload = [] then .settling else
        .callback (Single.quotient ((taken (before ++ [e])).map List.length).sum total) := by
    intro before e after payload heq hpayload
    have hclear := owed_of_requests (hh before e after heq) hmark (requests_of_accepted? hpayload)
    rw [← (htells (before ++ [e]) ⟨after, by simp [heq]⟩).sent, Rule.after_concat]
    exact hear_owed_of_accepted? hclear hpayload
  refine ⟨fun before e e' after payload heq hpayload hne => ?_, fun before e e' after heq hpayload => ?_,
    fun before e e' e'' after heq hpayload => ?_, fun before hbefore => ?_⟩
  · exact call_of_callback (hh (before ++ [e]) e' after (by simp [heq]))
      ((howed _ _ _ _ heq hpayload).trans (if_neg hne))
  · exact call_of_settling (hh (before ++ [e]) e' after (by simp [heq]))
      ((howed _ _ _ _ heq hpayload).trans (if_pos rfl))
  · have hsettling := (howed _ _ _ _ heq hpayload).trans (if_pos rfl)
    refine call_of_callback (hh (before ++ [e] ++ [e']) e'' after (by simp [heq])) ?_
    rw [Rule.after_concat]
    exact hear_owed_of_settling hsettling
  · have hcount := (htells before hbefore).count
    cases howed : ((bookkeeping mark settle total).after {} before).owed <;>
      simp only [howed, Owed.count] at hcount <;> omega

/-- A transfer calls back once for each download that was taken, whatever becomes of it; if it
ends, no callback is owed. -/
theorem transfer_calls_back {σ : Type} (env : Environment (cameras.sum host) σ) (s : σ)
    (hmark : ∀ x, kindOf (.inr (mark x)) ∉ ownKinds) :
    let h := (transfer channel config heedsStop image (callback mark)).run.history env s
    CallsBack mark config.settleDelay image.length h ∧
      ∀ r, ((transfer channel config heedsStop image (callback mark)).run.run env s).1 = .finished r →
        callbacks h = (taken h).length := by
  intro h
  have hb := begins_history env (transfer channel config heedsStop image (callback mark)).run s
  have hh : (bookkeeping mark config.settleDelay image.length).Permits {} h := obeys_transfer.permits hb
  refine ⟨callsBack_of_permits hmark hh, fun r hr => ?_⟩
  have hcount := (tells_after hmark hh).count
  obtain ⟨n, hclear⟩ : ∃ n, Clear n ((bookkeeping mark config.settleDelay image.length).after {} h) := by
    have hpost := obeys_transfer.of_finishes (finishes_history hr)
    cases r <;> exact hpost
  rw [hclear] at hcount
  exact hcount

end Bookkeeping

end Dfu

end Reflash
