import Reflash.Proofs.Session.Outcome

/-!
# Reflash.Proofs.Session.RightUnit — only the right unit is programmed

A session opens one control channel, and this on the unit with which it began: on the camera itself if it was in
recovery mode already, and else on the camera that a search found again by the identity that was read before the
restart (`RightUnit`).  Every transfer of the session is on that channel, which was prepared before the first
download (`only_right_unit_is_programmed`).
-/

namespace Reflash

open Program

namespace Session

variable {config : UpdateConfig} {image : FirmwareImage} {camera target : Camera}
  {channel : ControlChannel} {h h' : History}

/-- Whether `target` is the unit with which the session of `camera` began, after the calls `h`: either the
camera was in recovery mode from the start, or it was restarted once its identity had been read, and `target` is
the first match of the first listing since then that has one. -/
def RightUnit (config : UpdateConfig) (camera target : Camera) (h : History) : Prop :=
  camera.kind.isRecovery = true ∧ target = camera ∨
  camera.kind.isRecovery = false ∧ ∃ identity before pre search post,
    h = before ++ .asked (.enterRecovery camera) (some (.ok ())) :: (pre ++ (search ++ post)) ∧
    identity ≠ "" ∧ Identified camera identity before ∧ (∀ e ∈ before, kindOf e.call ≠ .list) ∧
    Within [.stop, .log, .record] pre ∧ (searchFor config identity .recovery).Finds target search ∧
    Within [.stop, .log, .record] post

namespace RightUnit

theorem append_left (hr : RightUnit config camera target h) (hh : Within [.log, .record] h') :
    RightUnit config camera target (h' ++ h) := by
  rcases hr with hr | ⟨hmode, identity, before, pre, search, post, rfl, hne, hid, hlist, hpre, hfinds, hpost⟩
  · exact .inl hr
  · refine .inr ⟨hmode, identity, h' ++ before, pre, search,
      post, by simp, hne, hid.append_left, fun e he => ?_, hpre, hfinds, hpost⟩
    rcases List.mem_append.mp he with he | he
    · exact hh.ne (by simp) e he
    · exact hlist e he

theorem append_right (hr : RightUnit config camera target h) (hh : Within [.stop, .log, .record] h') :
    RightUnit config camera target (h ++ h') := by
  rcases hr with hr | ⟨hmode, identity, before, pre, search, post, rfl, hne, hid, hlist, hpre, hfinds, hpost⟩
  · exact .inl hr
  · exact .inr ⟨hmode, identity, before, pre, search, post ++ h', by simp, hne, hid, hlist, hpre, hfinds,
      within_append.mpr ⟨hpost, hh⟩⟩

/-- What a session is about to open a channel on is the right unit. -/
theorem of_walk {identity? : Option String}
    (hw : Stage.Walk config image (.start camera) h (.opening target identity?)) :
    RightUnit config camera target h := by
  rcases Stage.walk_opening hw with ⟨hmode, htarget, -⟩ | ⟨hmode, identity, h₁, h₂, -, rfl, hw, hfind⟩
  · exact .inl ⟨hmode, htarget⟩
  obtain ⟨h₃, h₄, rfl, hw, hswitch⟩ := Stage.walk_finding hw
  obtain ⟨-, -, h₅, h₆, rfl, hidentify, hsecure⟩ := Stage.walk_switching hw
  obtain ⟨pre, own, post, rfl, hpre, hown, hpost⟩ := finishes_identify_ok hidentify
  obtain ⟨pre', post', rfl, hpre', hpost'⟩ := finishes_switchMode_ok hswitch
  obtain ⟨pre'', search, post'', rfl, hpre'', hfinds, hpost''⟩ := finishes_findRecovery_ok hfind
  have hid : Identified camera identity (pre ++ (own ++ post) ++ h₆ ++ pre') :=
    (Identified.of_finishes hown).append_right.append_left.append_right.append_right
  refine .inr ⟨hmode, identity, pre ++ (own ++ post) ++ h₆ ++ pre', post' ++ pre'', search,
    post'', by simp, hid.ne_empty, hid, fun e he => ?_, ?_, hfinds, hpost''.mono (by simp)⟩
  · have hidentify' := (only_identify camera).within hidentify.begins
    have hsecure' := (only_secure config camera identity).within hsecure.begins
    rcases List.mem_append.mp he with he | he
    · rcases List.mem_append.mp he with he | he
      · exact hidentify'.ne (by simp) e he
      · exact hsecure'.ne (by simp) e he
    · exact hpre'.ne (by simp) e he
  · exact within_append.mpr ⟨hpost'.mono (by simp), hpre''⟩

end RightUnit

/-! ## One channel -/

theorem once_openChannel (camera : Camera) :
    (openChannel camera).Once [.stop, .log, .record] (.openControl camera) := by
  refine Attempt.once_bind_of_only (only_ensureLive (by simp)) fun _ => ?_
  refine Attempt.once_bind_of_only (Attempt.only_lift (only_enterPhase (by simp) (by simp) rfl)) fun _ => ?_
  refine Attempt.once_bind_of_only (Attempt.only_lift (only_note (by simp) (by simp) _)) fun _ => ?_
  exact Attempt.once_ask fun h => begins_ask.mp

theorem openControl_mem_kinds {stage : Stage} :
    CallKind.openControl ∈ stage.kinds ↔ ∃ camera identity?, stage = .opening camera identity? := by
  cases stage <;> simp [Stage.kinds]

theorem countOf_openControl_le_one (hb : (run config image camera).Begins h) : countOf .openControl h ≤ 1 := by
  refine countOf_run_le_one (by simp) (fun stage hmem => ?_) (by decide : 0 < 6) (fun stage hmem h' hb' => ?_) hb
  · obtain ⟨camera', identity?, rfl⟩ := openControl_mem_kinds.mp hmem
    rfl
  · obtain ⟨camera', identity?, rfl⟩ := openControl_mem_kinds.mp hmem
    exact (once_openChannel camera' h' (Attempt.begins_bind_pure.mp hb')).countOf_le_one (by simp)

theorem rightUnit_of_begins {a? : Option (Except LinkError ControlChannel)}
    (hb : (run config image camera).Begins (h ++ [.asked (.openControl target) a?])) :
    RightUnit config camera target h := by
  obtain ⟨h₀, h₁, h₂, stage, rfl, hnote, hwalk, hadv, hkind⟩ := stage_of_call hb (by simp)
  obtain ⟨target', identity?, rfl⟩ := openControl_mem_kinds.mp hkind
  obtain ⟨hc, hquiet⟩ := (once_openChannel target' _ (Attempt.begins_bind_pure.mp hadv)).of_concat (by simp)
  obtain rfl := CameraCall.openControl.inj hc
  exact ((RightUnit.of_walk hwalk).append_right hquiet).append_left (only_noteImage.within hnote.begins)

theorem opened_of_begins {packet : ControlPacket} {timeout : Nanos} {a? : Option (Except LinkError ControlPacket)}
    (hb : (run config image camera).Begins (h ++ [.asked (.transfer channel packet timeout) a?])) :
    ∃ target, .asked (.openControl target) (some (.ok channel)) ∈ h := by
  obtain ⟨h₀, h₁, h₂, stage, rfl, hnote, hwalk, hadv, hkind⟩ := stage_of_call hb (by simp)
  obtain ⟨channel', hchannel⟩ : ∃ channel', stage.channel? = some channel' := by
    cases stage with
    | preparing channel' _ | sending channel' _ | ending channel' _ _ | manifesting channel' _ =>
      exact ⟨channel', rfl⟩
    | _ => simp [Stage.kinds] at hkind
  obtain ⟨target, hmem⟩ := hwalk.opened hchannel
  have heq : channel = channel' := by
    rcases Program.Only.calls (Stage.only_advance_channel hchannel) hadv
      (.asked (.transfer channel packet timeout) a?) (by simp) with ⟨packet', timeout', hcall⟩ | hkind'
    · cases hcall
      rfl
    · simp at hkind'
  exact ⟨target, heq ▸ by simp [hmem]⟩

/-! ## The channel is prepared -/

theorem head_of_begins_sending {identity? : Option String}
    (hb : ((Stage.sending channel identity?).complete config image 4).Begins h) :
    ∀ z ∈ (wire channel h).head?, z.packet ≠ .getStatus := by
  rcases Attempt.begins_bind.mp hb with hb | ⟨stage, h₁, h₂, rfl, hf, -⟩
  · exact Dfu.head_of_begins_download (Attempt.begins_of.mp (Attempt.begins_bind_pure.mp hb))
  · obtain ⟨transaction, hsend, -⟩ := Attempt.finishes_bind_pure_ok.mp hf
    have hsend := Attempt.finishes_of_ok.mp hsend
    rw [wire_append, List.head?_append_of_ne_nil _ (Dfu.wire_ne_nil_of_download spares_heedTransfer hsend)]
    exact Dfu.head_of_begins_download hsend.begins

theorem prepared_of_begins_preparing {identity? : Option String}
    (hb : ((Stage.preparing channel identity?).complete config image 5).Begins h) : Prepared (wire channel h) := by
  rcases Attempt.begins_bind.mp hb with hb | ⟨stage, h₁, h₂, rfl, hf, hb⟩
  · exact Dfu.prepared_of_begins_prepare (Attempt.begins_of.mp
      (Attempt.begins_discard.mp (Attempt.begins_bind_pure.mp hb)))
  · cases Stage.advances_of_finishes hf with
    | prepared hprepare =>
      obtain ⟨reply, y, hwire, hy, hidle⟩ := Dfu.wire_of_prepare_ok hprepare
      rw [wire_append, hwire]
      exact .ready rfl ⟨reply, rfl⟩ hy hidle (head_of_begins_sending hb)

theorem prepared_of_begins (hb : (run config image camera).Begins h) : Prepared (wire channel h) := by
  obtain ⟨h₀, h₁, h₂, rfl, hnote, hatt, hend⟩ := parts_of_begins hb
  have hnone : ∀ {h' : History}, (∀ e ∈ h', kindOf e.call ≠ .transfer) → wire channel h' = [] := fun hh =>
    wire_eq_nil fun e he packet timeout hcall => hh e he (by rw [hcall]; rfl)
  rw [wire_append, wire_append, hnone (hnote.ne (by simp)), hnone (hend.ne (by simp)),
    List.nil_append, List.append_nil]
  have hleft : 5 ≤ (Stage.start camera).left := by
    unfold Stage.start
    split <;> simp [Stage.left]
  rw [attempt_eq] at hatt
  rcases Stage.begins_complete_at rfl hleft hatt with ⟨stage, h₃, h₄, hlt, rfl, hw, hadv⟩ |
    ⟨stage, h₃, h₄, heq, rfl, hw, hrest⟩
  · have h₄' := (Stage.within_of_begins_advance hadv).ne (Stage.transfer_not_mem_kinds hlt)
    rw [wire_append, hnone (hw.not_transfer (Nat.le_of_lt hlt)), hnone h₄']
    exact .nil
  · rw [wire_append, hnone (hw.not_transfer (Nat.le_of_eq heq.symm)), List.nil_append]
    cases stage with
    | preparing channel' identity? =>
      by_cases hchannel : channel = channel'
      · subst hchannel
        exact prepared_of_begins_preparing hrest
      · have hother : wire channel h₄ = [] := wire_eq_nil fun e he packet timeout hcall =>
          hchannel (Stage.transfers_of_begins_complete (.inl rfl) hrest e he channel packet timeout hcall)
        rw [hother]
        exact .nil
    | _ => cases heq

/-! ## The guarantee -/

/-- Whatever the listings show: a session opens at most one control channel, on the right unit; its transfers
are on this channel, and the channel was prepared before a download. -/
theorem only_right_unit_is_programmed {σ : Type} (env : Environment (cameras.sum host) σ) (s : σ)
    {session : Action Unit} (hstart : start config camera image = .ok session) :
    countOf .openControl (session.history env s) ≤ 1 ∧
    (∀ before target a? after, session.history env s = before ++ .asked (.openControl target) a? :: after →
      RightUnit config camera target before) ∧
    (∀ before channel packet timeout a? after,
      session.history env s = before ++ .asked (.transfer channel packet timeout) a? :: after →
        ∃ target, .asked (.openControl target) (some (.ok channel)) ∈ before) ∧
    ∀ channel, Prepared (wire channel (session.history env s)) := by
  obtain ⟨-, -, rfl⟩ := start_eq_ok.mp hstart
  have hb := begins_history env (run config image camera) s
  refine ⟨countOf_openControl_le_one hb, fun before target a? after heq => ?_,
    fun before channel packet timeout a? after heq => ?_, fun channel => prepared_of_begins hb⟩
  · rw [heq, List.append_cons] at hb
    exact rightUnit_of_begins hb.of_append
  · rw [heq, List.append_cons] at hb
    exact opened_of_begins hb.of_append

/-- A unit that is found again, opened and prepared. -/
theorem only_right_unit_is_programmed_obliging :
    let o : Obliging := { camera := Obliging.unit }
    let h := (run Obliging.config Obliging.image Obliging.unit).history Obliging.world o
    countOf .openControl h = 1 ∧
      (∃ before target a? after, h = before ++ .asked (.openControl target) a? :: after ∧
        RightUnit Obliging.config Obliging.unit target before) ∧
      (wire ⟨0⟩ h).length = 6 ∧ Prepared (wire ⟨0⟩ h) := by
  intro o h
  have hstart : start Obliging.config Obliging.unit Obliging.image =
      .ok (run Obliging.config Obliging.image Obliging.unit) := start_eq_ok.mpr ⟨by decide +kernel, .inr rfl, rfl⟩
  have hopen : .asked (.openControl ⟨1, ⟨.d400, .recovery⟩, "unit"⟩) (some (.ok ⟨0⟩)) ∈ h := by decide +kernel
  obtain ⟨before, after, hsplit⟩ := List.append_of_mem hopen
  obtain ⟨-, hright, -, hprepared⟩ := only_right_unit_is_programmed Obliging.world o hstart
  exact ⟨by decide +kernel, ⟨before, _, _, after, hsplit, hright _ _ _ _ hsplit⟩, by decide +kernel, hprepared _⟩

end Session

end Reflash
