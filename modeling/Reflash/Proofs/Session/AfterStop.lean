import Reflash.Proofs.Guarded
import Reflash.Proofs.Session.Truncation

/-!
# Reflash.Proofs.Session.AfterStop — what a session still does after a request to stop

Every step of a session that is risky comes right after a look at the request (`careful_run`), so nothing risky
begins once there is one.  What has begun is brought to its end: a chunk that the loader took is waited for, and
after the last chunk the image is ended and the loader is given its time to program it (`stop_starts_nothing`).
-/

namespace Reflash

open Program

variable {h : History}

theorem careful_of_kinds {α : Type} {p : Action α} {kinds : List CallKind} (hp : p.Only (ofKinds kinds))
    (hkinds : ∀ k ∈ kinds, k ∉ [CallKind.restart, .list, .openControl, .exchange, .transfer]) : p.Careful :=
  careful_of_only (hp.mono fun _ hc => not_risky_of_ofKinds hc hkinds)

/-! ## Searches and backups -/

theorem Search.careful_loop {s : Search} (hs : s.heedsStop = true) (start : Nanos) (rounds : Nat) :
    (s.loop start rounds).Careful := by
  induction rounds with
  | zero => exact fun _ _ _ hc _ => absurd hc not_comesTo_stalled
  | succ rounds ih =>
    have hlook : shouldStop s.heedsStop = tell .stopRequested := by
      rw [hs]
      rfl
    have hclock : (tell .now).Careful := careful_of_only (only_tell.mpr (not_risky_of_kind (by simp)))
    have hscan : s.scan.CarefulOnceLooked := by
      refine onceLooked_bind (onceLooked_ask .list) fun listing => ?_
      cases listing with
      | ok found => exact careful_of_kinds (only_pick found) (by decide)
      | error e =>
        exact careful_of_only (only_bind (only_report.mpr (not_risky_of_kind (by simp))) fun _ => trivial)
    rw [loop, hlook]
    refine careful_look (careful_done _) (onceLooked_bind hscan fun camera? => ?_)
    cases camera? with
    | some camera =>
      refine careful_bind hclock fun now => careful_of_only ?_
      exact only_bind (only_report.mpr (not_risky_of_kind (by simp))) fun _ => trivial
    | none =>
      refine careful_bind hclock fun now => ?_
      split
      · exact careful_done _
      · exact careful_bind (careful_of_only (only_tell.mpr (not_risky_of_kind (by simp)))) fun _ => ih

theorem Search.careful_run {s : Search} (hs : s.heedsStop = true) : s.run.Careful := by
  refine careful_bind (careful_of_only (only_tell.mpr (not_risky_of_kind (by simp)))) fun start => ?_
  refine careful_bind (careful_of_only (only_report.mpr (not_risky_of_kind (by simp)))) fun _ => ?_
  exact careful_loop hs start _

theorem Flash.careful_readChunks {camera : Camera} {config : BackupConfig} {progress : Single → Action Unit}
    (hprogress : ∀ x, (progress x).Only fun c => isEvent c = false) (left : Nat) (done : List Bytes) :
    (readChunks camera config progress true left done).Careful := by
  induction left generalizing done with
  | zero => exact careful_done _
  | succ left ih =>
    refine careful_look (careful_done _) ?_
    refine onceLooked_quiet (hprogress _) fun _ => ?_
    refine onceLooked_bind (onceLooked_of_only rfl (only_readChunk_of (.inl rfl) (fun r => .inr rfl) _ _))
      fun reply => ?_
    cases reply with
    | ok data => exact ih (data :: done)
    | error e => exact careful_done _

theorem Flash.careful_read {camera : Camera} {config : BackupConfig} {progress : Single → Action Unit}
    (hprogress : ∀ x, (progress x).Only fun c => isEvent c = false) :
    (read camera config progress true).Careful := by
  refine careful_bind (careful_readChunks hprogress _ _) fun result => ?_
  cases result with
  | ok flash =>
    refine careful_of_only (only_bind ((hprogress _).mono fun _ => not_risky_of_not_isEvent) fun _ => ?_)
    exact only_bind (only_report.mpr (not_risky_of_not_isEvent rfl)) fun _ => trivial
  | error e => exact careful_done _

/-! ## Steps of a session -/

namespace Session

variable {config : UpdateConfig} {image : FirmwareImage} {camera : Camera} {identity : String}

theorem eventless_note (line : String) : (note line).Only fun c => isEvent c = false :=
  only_bind (only_tell.mpr rfl) fun _ => only_tell.mpr rfl

theorem eventless_enterPhase {phase : Phase} (hphase : phase.isTerminal = false) :
    (enterPhase phase).Only fun c => isEvent c = false := by
  refine only_bind (only_tell.mpr rfl) fun _ => only_tell.mpr ?_
  rw [isEvent, kindOf, Write.isVerdict, hphase]
  rfl

theorem eventless_setProgress (n : Nat) : (setProgress n).Only fun c => isEvent c = false := only_tell.mpr rfl

/-- What makes no event does nothing risky. -/
theorem careful_lift {ε α : Type} {p : Action α} (hp : p.Only fun c => isEvent c = false) :
    (liftM p : Attempt ε α).Careful :=
  Attempt.careful_of_only (Attempt.only_lift (hp.mono fun _ => not_risky_of_not_isEvent))

theorem careful_secure : (secure config camera identity).Careful := by
  unfold secure
  split
  · exact Attempt.careful_pure _
  · rename_i backup
    refine Attempt.careful_bind (Attempt.careful_of_only (Attempt.only_lift ?_)) fun offered => ?_
    · exact only_ask.mpr (not_risky_of_kind (by simp))
    split
    · refine Attempt.careful_bind (careful_lift (eventless_enterPhase rfl)) fun _ => ?_
      refine Attempt.careful_bind (careful_lift (eventless_setProgress _)) fun _ => ?_
      refine Attempt.careful_bind (careful_lift (eventless_note _)) fun _ => ?_
      refine Attempt.careful_bind (Attempt.careful_of (Flash.careful_read fun x => eventless_setProgress _))
        fun flash => ?_
      refine Attempt.careful_bind (Attempt.careful_of (careful_of_kinds Flash.only_persist (by decide)))
        fun path => ?_
      exact Attempt.careful_bind (careful_lift (eventless_note _)) fun _ => careful_lift (eventless_setProgress _)
    · exact careful_lift (eventless_note _)

theorem careful_switchMode : (switchMode camera).Careful := by
  refine Attempt.careful_ensureLive (Attempt.onceLooked_quiet (eventless_enterPhase rfl) fun _ => ?_)
  exact Attempt.onceLooked_bind (Attempt.onceLooked_of (onceLooked_ask _)) fun _ => careful_lift (eventless_note _)

theorem careful_findRecovery : (findRecovery config identity).Careful := by
  refine Attempt.careful_ensureLive (Program.Careful.onceLooked ?_)
  refine Attempt.careful_bind (careful_lift (eventless_enterPhase rfl)) fun _ => ?_
  refine Attempt.careful_bind (Attempt.careful_of (Search.careful_run rfl)) fun recovery => ?_
  refine Attempt.careful_bind (careful_lift (eventless_note _)) fun _ => ?_
  exact Attempt.careful_bind (careful_lift (eventless_setProgress _)) fun _ => Attempt.careful_pure _

theorem careful_openChannel : (openChannel camera).Careful := by
  refine Attempt.careful_ensureLive (Attempt.onceLooked_quiet (eventless_enterPhase rfl) fun _ => ?_)
  exact Attempt.onceLooked_quiet (eventless_note _) fun _ => Attempt.onceLooked_of (onceLooked_ask _)

theorem careful_awaitReturn (identity? : Option String) : (awaitReturn config identity?).Careful := by
  cases identity? with
  | none => exact careful_lift (eventless_note _)
  | some identity =>
    refine Attempt.careful_ensureLive (Program.Careful.onceLooked ?_)
    refine Attempt.careful_bind (careful_lift (eventless_enterPhase rfl)) fun _ => ?_
    refine Attempt.careful_bind (careful_lift (eventless_note _)) fun _ => ?_
    refine Attempt.careful_bind (Attempt.careful_of (Search.careful_run rfl)) fun found => ?_
    refine Attempt.careful_bind (Attempt.careful_of_only (Attempt.only_lift ?_)) fun version => ?_
    · exact only_ask.mpr (not_risky_of_kind (by simp))
    split
    · exact Attempt.careful_bind (careful_lift (eventless_note _)) fun _ => careful_lift (eventless_setProgress _)
    · exact Attempt.careful_bind (careful_lift (eventless_note _)) fun _ => careful_lift (eventless_setProgress _)

/-- A stage with a channel makes no risky call but one that brings data. -/
theorem Stage.careful_of_channel {a : Stage} {channel : ControlChannel} (ha : a.channel? = some channel)
    (hdata : ∀ h ch packet timeout next, (a.advance config image).run.ComesTo h
      (.inl (.transfer ch packet timeout)) next →
      packet.CarriesData → Guarded h (.inl (.transfer ch packet timeout))) : (a.advance config image).Careful := by
  have hapart : ∀ k ∈ [CallKind.restart, .list, .openControl, .exchange], k ∉ Dfu.downloadKinds := by decide
  intro h c next hc hrisky
  rcases hrisky with hkind | ⟨ch, packet, timeout, rfl, hpacket⟩
  · have hcall : Dfu.Calls channel c := hc.only (only_advance_channel ha)
    exact absurd hcall.ofKinds (hapart _ hkind)
  · exact hdata h ch packet timeout next hc hpacket

/-- A chunk is sent right after a look. -/
theorem careful_sending {channel : ControlChannel} {identity? : Option String} :
    ((Stage.sending channel identity?).advance config image).Careful := by
  refine Stage.careful_of_channel rfl fun h ch packet timeout next hc hdata => ?_
  obtain ⟨next', hc', -⟩ := Stage.comesTo_sending hc
  obtain ⟨k, x, transaction, payload, h₁, h₂, next'', image', sent, rfl, -, -, hround, -⟩ :=
    Dfu.comesTo_download spares_heedTransfer (by simp) hc'
  have hprogress : (heedTransfer x).Only fun c => kindOf c ≠ .transfer := only_tell.mpr (by simp [Write.isVerdict])
  obtain ⟨rfl, -⟩ := Dfu.comesTo_download_sendChunk hdata.1 hprogress hround
  exact (guarded_looked _).append_left h₁

/-- No stage but the one that sends the chunks brings data. -/
theorem Stage.dataless_advance {a : Stage} (ha : ∀ channel identity?, a ≠ sending channel identity?) :
    (a.advance config image).Only fun c => ∀ channel packet timeout, c = .inl (.transfer channel packet timeout) →
      ¬ packet.CarriesData := by
  refine only_advance_of ha (fun _ hdata => ?_) (fun hdata => ?_) fun _ hdata => hdata.2 rfl
  · exact absurd hdata.1 (by decide : DfuRequest.detach.code ≠ DfuRequest.download.code)
  · exact absurd hdata.1 (by decide : DfuRequest.getStatus.code ≠ DfuRequest.download.code)

theorem Stage.careful_advance (a : Stage) : (a.advance config image).Careful := by
  cases a with
  | identifying camera => exact careful_of_kinds (only_advance (identifying camera)) (by simp [kinds])
  | securing camera identity => exact Attempt.careful_bind careful_secure fun _ => Attempt.careful_pure _
  | switching camera identity => exact Attempt.careful_bind careful_switchMode fun _ => Attempt.careful_pure _
  | finding identity => exact Attempt.careful_bind careful_findRecovery fun _ => Attempt.careful_pure _
  | recognising camera => exact careful_of_kinds (only_advance (recognising camera)) (by simp [kinds])
  | opening camera identity? => exact Attempt.careful_bind careful_openChannel fun _ => Attempt.careful_pure _
  | sending channel identity? => exact careful_sending
  | returning identity? =>
    exact Attempt.careful_bind (careful_awaitReturn identity?) fun _ => Attempt.careful_pure _
  | completed => exact Attempt.careful_pure _
  | _ =>
    refine careful_of_channel rfl fun h channel packet timeout next hc hdata => ?_
    exact absurd hdata (hc.only (dataless_advance (by simp)) channel packet timeout rfl)

/-- A session comes to no risky call without a look right before it. -/
theorem careful_run : (run config image camera).Careful := by
  intro h c next hc hrisky
  have hkind : kindOf c ∉ [CallKind.log, .record, .verdict] := fun hk =>
    not_risky_of_kind (fun hrisk => (by decide : ∀ k ∈ [CallKind.log, .record, .verdict],
      k ∉ [CallKind.restart, .list, .openControl, .exchange, .transfer]) _ hk hrisk) hrisky
  obtain ⟨h₀, h₁, h₂, stage, next', rfl, -, -, hadv, -⟩ := comesTo_run hc hkind
  rw [← List.append_assoc]
  exact (stage.careful_advance h₂ c next' hadv hrisky).append_left (h₀ ++ h₁)

end Session

/-! ## Work that is carried through -/

/-- The run begins with calls of `A`, in which no request is heeded; or it breaks off in such calls, because the
world died or its clock stood still. -/
def Environment.Carries {σ : Type} (env : Environment (cameras.sum host) σ) (s : σ) (p : Action Unit)
    (A : History → Prop) :
    Prop :=
  ∃ part rest, p.history env s = part ++ rest ∧ ¬ Heeded part ∧
    (A part ∨ rest = [] ∧ (p.run env s).1 ≠ .finished ())

section Carries

variable {σ : Type} {env : Environment (cameras.sum host) σ} {s : σ} {A : History → Prop}

theorem carries_nil {p : Action Unit} (hA : A []) : env.Carries s p A := ⟨[], _, rfl, not_heeded_nil, .inl hA⟩

theorem Environment.Carries.mono {p : Action Unit} {B : History → Prop} (hp : env.Carries s p A)
    (hAB : ∀ h, A h → B h) :
    env.Carries s p B := by
  obtain ⟨part, rest, hh, hnot, hA⟩ := hp
  exact ⟨part, rest, hh, hnot, hA.imp_left (hAB part)⟩

/-- What does not look at the request is carried through, and then what comes after it. -/
theorem carries_bind {α : Type} {p : Action α} {f : α → Action Unit} (hp : p.Only fun c => kindOf c ≠ .stop)
    (hf : ∀ a h s', p.Finishes h a → env.Carries s' (f a) fun rest => A (h ++ rest)) :
    env.Carries s (p.bind f) A := by
  have hnot : ¬ Heeded (p.history env s) := fun hmem => hp.calls (begins_history env p s) _ hmem rfl
  rcases bind_splits env p f s with ⟨a, s', hrun, hh, hr⟩ | ⟨hh, hcut⟩
  · obtain ⟨part, rest, hpart, hnot', hA⟩ := hf a (p.history env s) s' (finishes_history (by rw [hrun]))
    refine ⟨p.history env s ++ part, rest, ?_, ?_, ?_⟩
    · rw [hh, hpart, List.append_assoc]
    · rw [heeded_append, not_or]
      exact ⟨hnot, hnot'⟩
    · rwa [hr]
  · exact ⟨_, [], by rw [hh, List.append_nil], hnot, .inr ⟨rfl, hcut ()⟩⟩

end Carries

namespace Wait

variable {w : Wait} {channel : ControlChannel}

/-- Notes, and then a whole wait. -/
def Awaited (w : Wait) (channel : ControlChannel) (h : History) : Prop :=
  ∃ notes polls, h = notes ++ polls ∧ Within [.log, .record] notes ∧ (∀ e ∈ polls, w.Polls channel e.call) ∧
    w.Concluded channel polls

/-- Notes and a wait, which need not be over. -/
def Awaiting (w : Wait) (channel : ControlChannel) (h : History) : Prop :=
  ∀ e ∈ h, w.Polls channel e.call ∨ ofKinds [.log, .record] e.call

theorem Awaited.awaiting (hh : w.Awaited channel h) : w.Awaiting channel h := by
  obtain ⟨notes, polls, rfl, hnotes, hpolls, -⟩ := hh
  intro e he
  rcases List.mem_append.mp he with he | he
  · exact .inr (hnotes e he)
  · exact .inl (hpolls e he)

theorem Awaiting.not_heeded (hh : w.Awaiting channel h) : ¬ Heeded h := by
  intro hmem
  rcases hh _ hmem with (heq | hc) | hc
  · cases heq
  · simp at hc
  · simp at hc

/-- Where the last query reports a state that is waited for, the wait ends with it. -/
theorem Decides.eq_ok {start : Nanos} {x : Exchange} {r : Except WaitError DeviceStatus} {status : DeviceStatus}
    (hd : w.Decides start h x r) (hx : x.Reports status) (hs : status.state ∈ w.accepted) : r = .ok status := by
  have ⟨_, p, hp, _⟩ := hx
  match r, hd with
  | .ok _, ⟨hx', _⟩ => rw [hx.unique hx']
  | .error (.link e), ⟨_, he, _⟩ =>
    rw [hp] at he
    cases he
  | .error (.timeout _ _ _), ⟨⟨_, hopen⟩, _⟩ =>
    rcases hopen with hbusy | ⟨status', hx', hs'⟩
    · rw [hp] at hbusy
      cases hbusy
    · rw [hx.unique hx'] at hs
      exact absurd hs hs'

section Carries

variable (channel) (hw : w.heedsStop = false) {p : Action Unit} (hp : p.Only (ofKinds [.log, .record]))
  (f : Except WaitError DeviceStatus → Action Unit) {σ : Type} (env : Environment (cameras.sum host) σ) (s : σ)

include hw hp

/-- Behind some notes, a wait that heeds no request is carried through; then the program goes on with its
result. -/
theorem carried_through :
    let q := p.bind fun _ => (w.run channel).bind f
    (∃ waiting r s', q.history env s = waiting ++ (f r).history env s' ∧ q.run env s = (f r).run env s' ∧
        w.Awaited channel waiting ∧ ∀ x status, (wire channel waiting).getLast? = some x → x.Reports status →
          status.state ∈ w.accepted → r = .ok status) ∨
      w.Awaiting channel (q.history env s) ∧ (q.run env s).1 ≠ .finished () := by
  intro q
  have hpolls : (w.run channel).Only (w.Polls channel) := only_run_of_deaf hw
  rcases bind_splits env p (fun _ => (w.run channel).bind f) s with ⟨u, s₁, hrun, hh, hr⟩ | ⟨hh, hcut⟩
  · have hnotes := hp.within (begins_history env p s)
    rcases bind_splits env (w.run channel) f s₁ with ⟨r, s₂, hrun', hh', hr'⟩ | ⟨hh', hcut⟩
    · have hfin : (w.run channel).Finishes ((w.run channel).history env s₁) r := finishes_history (by rw [hrun'])
      have hall := hpolls.calls hfin.begins
      have hnot : r ≠ .error .stopped := unstopped_run _ r hfin (Awaiting.not_heeded fun e he => .inl (hall e he))
      obtain ⟨start, rest, polls, x, heq, hwire, hopen, hd⟩ := finishes_run hnot hfin
      refine .inl ⟨p.history env s ++ (w.run channel).history env s₁, r, s₂, ?_, hr.trans hr',
        ⟨_, _, rfl, hnotes, hall, start, rest, polls, x, r, heq, hwire, hopen, hd⟩, ?_⟩
      · rw [hh, hh', List.append_assoc]
      · intro y status hlast hy hs
        have hquiet : wire channel (p.history env s) = [] :=
          wire_eq_nil_of_only hp (by simp) (begins_history env p s)
        rw [wire_append, hquiet, heq, wire_host, hwire, List.nil_append, List.getLast?_concat] at hlast
        obtain rfl := Option.some.inj hlast
        exact hd.eq_ok hy hs
    · refine .inr ⟨?_, by rw [hr]; exact hcut ()⟩
      rw [hh, hh']
      intro e he
      rcases List.mem_append.mp he with he | he
      · exact .inr (hnotes e he)
      · exact .inl (hpolls.calls (begins_history env _ s₁) e he)
  · refine .inr ⟨?_, hcut ()⟩
    rw [hh]
    exact fun e he => .inr (hp.within (begins_history env p s) e he)

theorem carries : env.Carries s (p.bind fun _ => (w.run channel).bind f) (w.Awaited channel) := by
  rcases carried_through channel hw hp f env s with ⟨waiting, r, s', hh, -, hwait, -⟩ | ⟨hwait, hcut⟩
  · exact ⟨waiting, _, hh, hwait.awaiting.not_heeded, .inl hwait⟩
  · exact ⟨_, [], (List.append_nil _).symm, hwait.not_heeded, .inr ⟨rfl, hcut⟩⟩

end Carries

end Wait

/-! ## The end of an image -/

namespace Dfu

/-- The end of an image whose chunks are all acknowledged: the empty download and, if the channel took it, the
pause and the whole manifest wait. -/
inductive Ended (config : TransferConfig) (image : Bytes) (channel : ControlChannel) : History → Prop
  | refused {notes : History} {e : LinkError} : Within [.log] notes →
      Ended config image channel
        (notes ++ [.asked (.transfer channel (endPacket config image) config.requestTimeout) (some (.error e))])
  | waited {notes waiting : History} {reply : ControlPacket} : Within [.log] notes →
      (manifestWait config).Awaited channel waiting →
      Ended config image channel
        (notes ++ .asked (.transfer channel (endPacket config image) config.requestTimeout) (some (.ok reply)) ::
          .told (.sleep config.settleDelay) (some ()) :: waiting)

end Dfu

namespace Session

variable {config : UpdateConfig} {image : FirmwareImage} {camera : Camera} {channel : ControlChannel}
  {identity? : Option String} {transaction : UInt16}

/-- After the chunks a session sends the empty download, lets the loader settle and waits for it. -/
theorem proceed_ending : ∃ (notes : Action Unit) (f : Except WaitError DeviceStatus → Action Unit),
    notes.Only (ofKinds [.log, .record]) ∧
    proceed config image (.sending channel identity?) (.ok (.ending channel identity? transaction)) =
      (ask (.transfer channel (.download transaction []) config.transfer.requestTimeout)).bind fun
        | .ok _ => (tell (.sleep config.transfer.settleDelay)).bind fun _ =>
            notes.bind fun _ => ((Dfu.manifestWait config.transfer).run channel).bind f
        | .error e => conclude (.error (.transfer (.link e))) := by
  obtain ⟨f, hmanifest⟩ : ∃ f : Except WaitError DeviceStatus → Action (Except UpdateError Unit),
      ((Stage.manifesting channel identity?).complete config image 2).run =
        (report .info "running post download processes").bind fun _ =>
          ((Dfu.manifestWait config.transfer).run channel).bind f := by
    apply Exists.intro
    rw [Stage.complete, Attempt.run_bind_eq, Stage.advance, Attempt.run_bind_eq,
      Attempt.run_discard, Attempt.run_of, Dfu.manifest, Attempt.run_lift_bind]
    simp only [Attempt.run_bind_eq, Attempt.run_of, Program.bind_assoc]
    rfl
  refine ⟨(heedTransfer .one).bind fun _ => report .info "running post download processes",
    fun r => (f r).bind conclude, ?_, ?_⟩
  · exact only_bind (only_tell.mpr (by simp [Write.isVerdict])) fun _ => only_report.mpr (by simp)
  · show ((Stage.ending channel identity? transaction).complete config image 3).run.bind conclude = .call _ _
    rw [Stage.complete, Attempt.run_bind_eq, Stage.advance, Attempt.run_bind_eq, Attempt.run_of, Dfu.finish,
      Dfu.run_send_bind]
    simp only [Program.bind]
    congr
    funext reply
    cases reply with
    | error e => rfl
    | ok packet =>
      simp only [Attempt.run_lift_bind, Attempt.run_lift, Program.bind_assoc]
      show _ = (tell _).bind _
      congr
      funext u
      congr
      funext u'
      show ((Stage.manifesting channel identity?).complete config image 2).run.bind conclude = _
      rw [hmanifest, Program.bind_assoc]
      simp only [Program.bind_assoc]

/-- Once the last chunk is acknowledged, a session ends the image. -/
theorem ends_image {σ : Type} (env : Environment (cameras.sum host) σ) (s : σ) (text : String)
    (hend : .download transaction [] = Dfu.endPacket config.transfer image.data) :
    env.Carries s ((report .info text).bind fun _ =>
      proceed config image (.sending channel identity?) (.ok (.ending channel identity? transaction)))
      (Dfu.Ended config.transfer image.data channel) := by
  obtain ⟨notes, f, hnotes, hproceed⟩ := @proceed_ending config image channel identity? transaction
  have hlog : (report .info text).Only (ofKinds [.log]) := only_report.mpr (by simp)
  refine carries_bind (hlog.ne_kind (by simp)) fun _ h s₁ hreport => ?_
  have hquiet := hlog.within hreport.begins
  rw [hproceed, hend]
  refine carries_bind (only_ask.mpr (by simp)) fun reply h' s₂ hsent => ?_
  obtain rfl := finishes_ask.mp hsent
  cases reply with
  | error e => exact carries_nil (.refused hquiet)
  | ok packet =>
    refine carries_bind (only_tell.mpr (by simp)) fun _ h'' s₃ hslept => ?_
    obtain rfl := finishes_tell.mp hslept
    exact (Wait.carries channel rfl hnotes f env s₃).mono fun waiting hwait => .waited hquiet hwait

/-! ## The chunk that is on its way -/

/-- Before the first chunk nothing is downloaded. -/
theorem not_download_of_walk {h : History}
    (hw : Stage.Walk config image (.start camera) h (.sending channel identity?)) :
    ∀ e ∈ h, ¬ Requests .download e.call := by
  obtain ⟨status, h₁, h₂, rfl, hprior, hprepare⟩ := Stage.walk_sending hw
  intro e he
  rcases List.mem_append.mp he with he | he
  · exact not_requests_of_ne (hprior.not_transfer (Nat.le_refl 5) e he)
  · exact Program.Only.calls Dfu.not_requests_prepare hprepare.begins e he

theorem downloads_eq_nil_of_not_requests {h : History} (hh : ∀ e ∈ h, ¬ Requests .download e.call) :
    downloads (wire channel h) = [] := by
  have hpackets : ∀ x ∈ wire channel h, ¬ x.packet.IsDownload := by
    refine packet_of_mem_wire (P := fun packet => ¬ packet.IsDownload) fun e he packet timeout hcall => ?_
    have hnot := hh e he
    rwa [hcall, requests_transfer] at hnot
  refine downloads_eq_nil fun x hx => ?_
  have hnot := hpackets x hx
  rw [← Exchange.isDownload_iff] at hnot
  simpa using hnot

/-- A chunk that was taken is waited for; and if it was the last one and is acknowledged, the image is ended. -/
theorem comesTo_chunk {packet : ControlPacket} {timeout : Nanos}
    {next : Except LinkError ControlPacket → Action Unit}
    (hc : (run config image camera).ComesTo h (.inl (.transfer channel packet timeout)) next)
    (hdata : packet.CarriesData) :
    ∃ x f, (∀ reply, next (.ok reply) =
        (heedTransfer x).bind fun _ => ((Dfu.chunkWait config.transfer).run channel).bind f) ∧
      ((downloads (wire channel h)).length + 1 = (Dfu.imagePackets config.transfer image.data).length →
        ∃ text identity? transaction, .download transaction [] = Dfu.endPacket config.transfer image.data ∧
          ∀ status : DeviceStatus, status.code = .ok → status.state ≠ .error → f (.ok status) =
            (report .info text).bind fun _ =>
              proceed config image (.sending channel identity?)
              (.ok (.ending channel identity? transaction))) := by
  obtain ⟨h₀, h₁, h₂, stage, next', rfl, hnote, hw, hadv, rfl⟩ := comesTo_run hc (by simp)
  obtain ⟨ch, identity?, rfl⟩ : ∃ ch identity?, stage = .sending ch identity? := by
    by_contra hnot
    have hdataless : (stage.advance config image).Only _ := Stage.dataless_advance fun ch identity? heq =>
      hnot ⟨ch, identity?, heq⟩
    exact hadv.only hdataless channel packet timeout rfl hdata
  obtain ⟨next₁, hc₁, rfl⟩ := Stage.comesTo_sending hadv
  obtain ⟨k, x, number, payload, h₃, h₄, next₂, image', sent, rfl, hk, hdelivered, hround, rfl⟩ :=
    Dfu.comesTo_download spares_heedTransfer (by simp) hc₁
  have hprogress : (heedTransfer x).Only fun c => kindOf c ≠ .transfer := only_tell.mpr (by simp [Write.isVerdict])
  obtain ⟨rfl, rfl, rfl, hnext⟩ := Dfu.comesTo_download_sendChunk hdata.1 hprogress hround
  have hwait : (Dfu.awaitChunk channel config.transfer number).run =
      ((Dfu.chunkWait config.transfer).run channel).bind fun r => Attempt.andThen
        (fun status => Attempt.decided (Dfu.chunkVerdict number status))
        (r.mapError (Dfu.chunkFailure number)) := by
    rw [Dfu.awaitChunk, Attempt.run_bind_eq, Attempt.run_of, Program.bind_assoc]
    rfl
  refine ⟨x, fun r => (((Attempt.andThen (fun status => Attempt.decided (Dfu.chunkVerdict number status))
    (r.mapError (Dfu.chunkFailure number))).bind (Attempt.andThen fun _ =>
      Dfu.afterRound channel config.transfer image.data heedTransfer k image' sent)).bind fun r =>
        .done ((r.mapError .transfer).map (.ending channel identity?))).bind
          (proceed config image (.sending channel identity?)), fun reply => ?_, fun hlast => ?_⟩
  · dsimp only
    rw [hnext reply, hwait]
    simp only [Program.bind_assoc]
  · have hsent : downloads (wire channel (h₀ ++ (h₁ ++ (h₃ ++ [.looked false])))) =
        (Dfu.imagePackets config.transfer image.data).take k := by
      have hnotes : ∀ e ∈ h₀, ¬ Requests .download e.call := fun e he =>
        not_requests_of_ofKinds (only_noteImage.within hnote.begins e he) (by simp)
      rw [wire_append, wire_append, wire_append, downloads_append, downloads_append, downloads_append,
        downloads_eq_nil_of_not_requests hnotes, downloads_eq_nil_of_not_requests (not_download_of_walk hw),
        hdelivered.downloads_eq fun p hp => Dfu.isDownload_of_mem_imagePackets p (List.mem_of_mem_take hp)]
      simp
    have hcount : k + 1 = (Dfu.imagePackets config.transfer image.data).length := by
      have hlt := (List.getElem?_eq_some_iff.mp hk).1
      rw [hsent, List.length_take] at hlast
      omega
    obtain ⟨text, transaction, hafter, hend⟩ := Dfu.afterRound_last hcount
    refine ⟨text, identity?, transaction, hend, fun status hcode hstate => ?_⟩
    have hok : Dfu.chunkVerdict number status = .ok () := Dfu.chunkVerdict_eq_ok.mpr ⟨hcode, hstate⟩
    show (((Attempt.decided (Dfu.chunkVerdict number status)).run.bind _).bind _).bind _ = _
    rw [hok]
    show ((Dfu.afterRound channel config.transfer image.data heedTransfer k image' sent).run.bind _).bind _ = _
    rw [hafter, Attempt.run_lift_bind, Program.bind_assoc, Program.bind_assoc]
    rfl

/-! ## A session that is asked to stop -/

/-- What a session still does once it has heeded a request is no event but an ABORT. -/
theorem not_heeded_of_comesTo {h : History} {c : (cameras.sum host).Call}
    {next : (cameras.sum host).Answer c → Action Unit} (hc : (run config image camera).ComesTo h c next)
    (hkind : kindOf c ∉ [CallKind.log, .record, .verdict]) (habort : ¬ Requests .abort c) : ¬ Heeded h := by
  intro hheeded
  obtain ⟨before, after, rfl⟩ := List.append_of_mem hheeded
  have hb := hc.dies
  rw [List.append_assoc, List.cons_append] at hb
  obtain ⟨next', hlook, hrest⟩ := begins_append_cons.mp hb
  obtain ⟨-, ⟨⟩, hb⟩ := hrest.resolve_left nofun
  have hlast : ⟨c, none⟩ ∈ after ++ [(⟨c, none⟩ : Event (cameras.sum host))] := by simp
  rcases comesTo_stop hlook with ⟨e, -, heq⟩ | ⟨channel, -, heq⟩
  · rw [heq] at hb
    exact hkind ((only_conclude _).calls hb _ hlast)
  · have hgiveUp : (giveUp config channel).Only fun c => Requests .abort c ∨
        kindOf c ∈ [CallKind.log, .record, .verdict] := by
      refine only_bind (Dfu.only_abort_of (.inl (requests_transfer.mpr rfl)) fun r => .inr (by simp)) fun _ => ?_
      exact (only_conclude _).mono fun c hc => .inr hc
    rw [heq] at hb
    exact (hgiveUp.calls hb _ hlast).elim habort hkind

/-- A session that has sent its chunks does not give the download up any more. -/
theorem abortless_end {h : History} {text : String} (hb : ((report .info text).bind fun _ =>
    proceed config image (.sending channel identity?) (.ok (.ending channel identity? transaction))).Begins h) :
    ∀ e ∈ h, ¬ Requests .abort e.call := by
  have hcomplete : ∀ h', ((Stage.ending channel identity? transaction).complete config image 3).Begins h' →
      ∀ e ∈ h', ¬ Requests .abort e.call := by
    intro h' hb'
    refine Stage.calls_of_begins_complete (P := fun c => ¬ Requests .abort c)
      (fun b hle => Stage.abortless_advance ?_) hb'
    rintro ch identity? rfl
    simp [Stage.left] at hle
  have hlog : (report .info text).Only (ofKinds [.log]) := only_report.mpr (by simp)
  have hquiet : ∀ {kinds : List CallKind} {h' : History}, Within kinds h' → .transfer ∉ kinds →
      ∀ e ∈ h', ¬ Requests .abort e.call := fun hh hkinds e he => not_requests_of_ofKinds (hh e he) hkinds
  rcases begins_bind.mp hb with hb | ⟨u, h₁, h₂, rfl, hreport, hb⟩
  · exact hquiet (hlog.within hb) (by simp)
  refine List.forall_mem_append.mpr ⟨hquiet (hlog.within hreport.begins) (by simp), ?_⟩
  rcases begins_bind.mp hb with hb | ⟨r, h₃, h₄, rfl, hf, hb⟩
  · exact hcomplete h₂ hb
  · exact List.forall_mem_append.mpr ⟨hcomplete h₃ hf.begins, hquiet ((only_conclude r).within hb) (by simp)⟩

/-- What follows a chunk that the channel took, in any run of a session. -/
theorem history_after_chunk {σ : Type} {env : Environment (cameras.sum host) σ} {s : σ} {before after : History}
    {packet reply : ControlPacket} {timeout : Nanos} (hdata : packet.CarriesData)
    (hh : (run config image camera).history env s =
      before ++ .asked (.transfer channel packet timeout) (some (.ok reply)) :: after) :
    let cut (rest : History) := rest = [] ∧ ((run config image camera).run env s).1 ≠ .finished ()
    ¬ Heeded before ∧ ∃ waiting rest, after = waiting ++ rest ∧
      ((Dfu.chunkWait config.transfer).Awaited channel waiting ∨
        (Dfu.chunkWait config.transfer).Awaiting channel waiting ∧ cut rest) ∧
      ((downloads (wire channel before)).length + 1 = (Dfu.imagePackets config.transfer image.data).length →
        (∃ x, (wire channel waiting).getLast? = some x ∧ x.Acknowledges) →
        (∀ e ∈ rest, ¬ Requests .abort e.call) ∧ ∃ ending rest', rest = ending ++ rest' ∧ ¬ Heeded ending ∧
          (Dfu.Ended config.transfer image.data channel ending ∨ cut rest')) := by
  intro cut
  have hb := begins_history env (run config image camera) s
  rw [hh] at hb
  obtain ⟨next, hc, -⟩ := begins_append_cons.mp hb
  obtain ⟨s', hafter, hrun⟩ := hc.resumes hh
  obtain ⟨x, f, hnext, hlast⟩ := comesTo_chunk hc hdata
  rw [hnext] at hafter hrun
  have habort : ¬ Requests .abort (.inl (.transfer channel packet timeout) : CameraCall ⊕ HostCall) := by
    rw [requests_transfer, hdata.1]
    exact (by decide : DfuRequest.download.code ≠ DfuRequest.abort.code)
  refine ⟨not_heeded_of_comesTo hc (by simp) habort, ?_⟩
  have hprogress : (heedTransfer x).Only (ofKinds [.log, .record]) := only_tell.mpr (by simp [Write.isVerdict])
  have hcarried := Wait.carried_through (w := Dfu.chunkWait config.transfer) channel rfl hprogress f env s'
  dsimp only at hcarried
  rw [← hafter, ← hrun] at hcarried
  rcases hcarried with ⟨waiting, r, s'', hparts, hr, hwait, hresult⟩ | ⟨hwait, hcut⟩
  · refine ⟨waiting, (f r).history env s'', hparts, .inl hwait, ?_⟩
    rintro hcount ⟨y, hy, status, hreports, hstate, hcode⟩
    -- The wait ended with this status, so the session went on to the end of the image.
    obtain rfl := hresult y status hy hreports (by simp [hstate, Dfu.chunkWait])
    obtain ⟨text, identity?, transaction, hend, hf⟩ := hlast hcount
    rw [hf status hcode (by simp [hstate])] at hr ⊢
    refine ⟨abortless_end (begins_history env _ s''), ?_⟩
    obtain ⟨ending, rest, hparts, hnot, hended⟩ := ends_image env s'' text hend
    refine ⟨ending, rest, hparts, hnot, hended.imp_right ?_⟩
    rintro ⟨hrest, hcut⟩
    rw [← hr] at hcut
    exact ⟨hrest, hcut⟩
  · refine ⟨after, [], (List.append_nil _).symm, .inr ⟨hwait, rfl, hcut⟩,
      fun _ _ => ⟨by simp, [], [], rfl, not_heeded_nil, ?_⟩⟩
    exact .inr ⟨rfl, hcut⟩

/-- Once a session is asked to stop, during its `n`-th event, it comes to no restart, no listing, no opening of
a channel, no new exchange and no download with data: it only makes more attempts at the exchange that was under
way.  A chunk that the channel took is waited for to the end of its wait, as in a session that is not asked to
stop; and if it was the last one and is acknowledged, the image is ended as there, and no ABORT is sent.  Only
the death of the world, or a clock that stands still, cuts this short. -/
theorem stop_starts_nothing {σ : Type} (env : Environment (cameras.sum host) σ) (s : σ) {session : Action Unit}
    (hstart : start config camera image = .ok session) (n : Nat) :
    let stopped := session.history (env.stoppedAt (some n)) (s, 0)
    let unstopped := session.history (env.stoppedAt none) (s, 0)
    let cut (rest : History) := rest = [] ∧ (session.run (env.stoppedAt (some n)) (s, 0)).1 ≠ .finished ()
    (∀ e ∈ (trace stopped).drop n, Risky e.call → kindOf e.call = .exchange ∧
      ∃ m e₀, n = m + 1 ∧ (trace stopped)[m]? = some e₀ ∧ e₀.call = e.call) ∧
    ∀ before channel packet timeout reply after, packet.CarriesData →
      stopped = before ++ .asked (.transfer channel packet timeout) (some (.ok reply)) :: after →
      ∃ waiting rest, after = waiting ++ rest ∧
        before ++ .asked (.transfer channel packet timeout) (some (.ok reply)) :: waiting <+: unstopped ∧
        ((Dfu.chunkWait config.transfer).Awaited channel waiting ∨
          (Dfu.chunkWait config.transfer).Awaiting channel waiting ∧ cut rest) ∧
        ((downloads (wire channel before)).length + 1 = (Dfu.imagePackets config.transfer image.data).length →
          (∃ x, (wire channel waiting).getLast? = some x ∧ x.Acknowledges) →
          ∃ ending rest', rest = ending ++ rest' ∧
            before ++ .asked (.transfer channel packet timeout) (some (.ok reply)) ::
              (waiting ++ ending) <+: unstopped ∧
            (Dfu.Ended config.transfer image.data channel ending ∨ cut rest') ∧
            ∀ e ∈ stopped, ¬ Requests .abort e.call) := by
  obtain ⟨-, -, rfl⟩ := start_eq_ok.mp hstart
  intro stopped unstopped cut
  refine ⟨risky_after_stop careful_run n s, ?_⟩
  intro before channel packet timeout reply after hdata hstopped
  obtain ⟨hbefore, waiting, rest, rfl, hwait, hlast⟩ := history_after_chunk hdata hstopped
  have hwaiting : ¬ Heeded waiting := (hwait.elim Wait.Awaited.awaiting And.left).not_heeded
  -- What follows the chunk is done in the other session as well, as long as no request is heeded in it.
  have hsofar : ∀ {part : History}, ¬ Heeded part →
      ¬ Heeded (before ++ .asked (.transfer channel packet timeout) (some (.ok reply)) :: part) := by
    intro part hpart hheeded
    rcases heeded_append.mp hheeded with hheeded | hheeded
    · exact hbefore hheeded
    · exact hpart ((List.mem_cons.mp hheeded).resolve_left nofun)
  rw [← List.cons_append, ← List.append_assoc] at hstopped
  refine ⟨waiting, rest, rfl, prefix_of_not_heeded env n hstopped (hsofar hwaiting), hwait, fun hcount hack => ?_⟩
  obtain ⟨hrest, ending, rest', rfl, hending, hended⟩ := hlast hcount hack
  refine ⟨ending, rest', rfl, ?_, hended, ?_⟩
  · rw [← List.append_assoc, List.append_assoc before, List.cons_append] at hstopped
    refine prefix_of_not_heeded env n hstopped (hsofar ?_)
    rw [heeded_append, not_or]
    exact ⟨hwaiting, hending⟩
  · have hb : (run config image camera).Begins stopped := begins_history _ _ _
    rw [hstopped] at hb ⊢
    exact List.forall_mem_append.mpr ⟨not_abort_of_not_heeded hb.of_append (hsofar hwaiting), hrest⟩

/-- A session that is asked to stop while its only chunk is sent: the chunk is waited for,
and nothing risky comes. -/
theorem stop_starts_nothing_obliging :
    let o : Obliging := { camera := Obliging.unit }
    let session := run Obliging.config Obliging.image Obliging.unit
    let stopped := session.history (Obliging.world.stoppedAt (some 17)) (o, 0)
    let chunk : ControlPacket := .download 0 Obliging.image.data
    start Obliging.config Obliging.unit Obliging.image = .ok session ∧
    (∀ e ∈ (trace stopped).drop 17, ¬ Risky e.call) ∧
      ∃ before waiting rest,
        stopped = before ++ .asked (.transfer ⟨0⟩ chunk defaultRequestTimeout) (some (.ok chunk)) ::
          (waiting ++ rest) ∧
          (Dfu.chunkWait Obliging.config.transfer).Awaited ⟨0⟩ waiting := by
  intro o session stopped chunk
  have hstart : start Obliging.config Obliging.unit Obliging.image = .ok session :=
    start_eq_ok.mpr ⟨by decide +kernel, .inr rfl, rfl⟩
  have hsent : .asked (.transfer ⟨0⟩ chunk defaultRequestTimeout) (some (.ok chunk)) ∈ stopped := by decide +kernel
  have hkind : (trace stopped)[16]?.map (fun e => kindOf e.call) = some .transfer := by decide +kernel
  have hfinished : (session.run (Obliging.world.stoppedAt (some 17)) (o, 0)).1 = .finished () := by decide +kernel
  obtain ⟨hrisky, hchunks⟩ := stop_starts_nothing Obliging.world o hstart 17
  refine ⟨hstart, fun e he hr => ?_, ?_⟩
  · obtain ⟨hexchange, m, e₀, hm, hnth, hcall⟩ := hrisky e he hr
    obtain rfl : m = 16 := by omega
    rw [show (trace stopped)[16]? = some e₀ from hnth, Option.map_some, hcall, hexchange] at hkind
    cases hkind
  · obtain ⟨before, after, heq⟩ := List.append_of_mem hsent
    obtain ⟨waiting, rest, rfl, -, hwait, -⟩ := hchunks before _ chunk _ chunk after ⟨rfl, by decide +kernel⟩ heq
    exact ⟨before, waiting, rest, heq, hwait.resolve_right fun hcut => hcut.2.2 hfinished⟩

end Session

end Reflash
