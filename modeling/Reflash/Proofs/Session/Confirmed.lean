import Reflash.Proofs.Session.Outcome

/-!
# Reflash.Proofs.Session.Confirmed — a session that is done has flashed its unit

A session is done only if the loader took and acknowledged every chunk of the image and then confirmed the image
(`Dfu.Programmed`), and the unit came back in normal mode (`Returned`) or could not be known from the start.  A
stage that fails ends the session in failure (`done_is_confirmed`).
-/

namespace Reflash

open Program

/-- On the wire the image was delivered, its end was sent, and the manifest wait found it programmed. -/
def Dfu.Programmed (config : TransferConfig) (image : Bytes) (w : List Exchange) : Prop :=
  ∃ before chunks reply polls last status,
    w = before ++ (chunks ++ ⟨endPacket config image, some (.ok reply)⟩ :: (polls ++ [last])) ∧
    (∀ x ∈ before, !x.isDownload) ∧ Delivered (imagePackets config image) chunks ∧
    (∀ y ∈ polls, y.LeavesOpen (manifestWait config).accepted) ∧
    last.Reports status ∧ status.state = .manifestWaitReset ∧ status.code = .ok

/-- A listing showed a camera in normal mode that then gave the identity. -/
def Returned (identity : String) (h : History) : Prop :=
  ∃ found pre listing post, h = pre ++ .asked .list (some (.ok listing)) :: post ∧ found ∈ listing ∧
    found.kind.isRecovery = false ∧ Identified found identity post

theorem Returned.append_left {identity : String} {h h' : History} (hr : Returned identity h) :
    Returned identity (h' ++ h) := by
  obtain ⟨found, pre, listing, post, rfl, hmem, hmode, hid⟩ := hr
  exact ⟨found, h' ++ pre, listing, post, by simp, hmem, hmode, hid⟩

theorem Returned.append_right {identity : String} {h h' : History} (hr : Returned identity h) :
    Returned identity (h ++ h') := by
  obtain ⟨found, pre, listing, post, rfl, hmem, hmode, hid⟩ := hr
  exact ⟨found, pre, listing, post ++ h', by simp, hmem, hmode, hid.append_right⟩

/-- The camera was asked for its identity, and gave none. -/
def Unidentified (camera : Camera) (h : History) : Prop :=
  ∃ pre own post reply, h = pre ++ (own ++ post) ∧ (identityOf camera).Finishes own reply ∧
    ∀ identity, reply ≠ .ok (some identity)

namespace Session

variable {config : UpdateConfig} {image : FirmwareImage} {camera target : Camera} {channel : ControlChannel}
  {identity : String} {identity? : Option String} {h : History}

/-! ## The unit at the start -/

/-- When a channel is about to be opened, the unit is known by an identity that the camera gave, or the update
began in recovery mode and the camera gave none. -/
theorem identified_of_walk (hw : Stage.Walk config image (.start camera) h (.opening target identity?)) :
    (∃ identity, identity? = some identity ∧ Identified camera identity h) ∨
      identity? = none ∧ camera.kind.isRecovery = true ∧ Unidentified camera h := by
  rcases Stage.walk_opening hw with ⟨hmode, -, hrecognise⟩ | ⟨-, identity, h₁, h₂, rfl, rfl, hw, -⟩
  · obtain ⟨pre, own, post, reply, rfl, -, hown, rfl, -⟩ := finishes_recognise hrecognise
    cases hreply : reply.toOption.join with
    | none =>
      refine .inr ⟨rfl, hmode, pre, own, post, reply, rfl, hown, fun identity hsome => ?_⟩
      rw [hsome] at hreply
      cases hreply
    | some identity =>
      obtain rfl : reply = .ok (some identity) := by
        cases reply with
        | error e => cases hreply
        | ok identity? =>
          obtain rfl : identity? = some identity := hreply
          rfl
      exact .inl ⟨identity, rfl, (Identified.of_finishes hown).append_right.append_left⟩
  · obtain ⟨h₃, h₄, rfl, hw, -⟩ := Stage.walk_finding hw
    obtain ⟨-, -, h₅, h₆, rfl, hidentify, -⟩ := Stage.walk_switching hw
    obtain ⟨pre, own, post, rfl, -, hown, -⟩ := finishes_identify_ok hidentify
    refine .inl ⟨identity, rfl, ?_⟩
    exact (Identified.of_finishes hown).append_right.append_left.append_right.append_right.append_right

/-! ## The unit at the end -/

theorem returned_of_awaitReturn (hf : (awaitReturn config (some identity)).Finishes h (.ok ())) :
    Returned identity h := by
  obtain ⟨pre, search, post, found, rfl, -, hfinds, -⟩ := finishes_awaitReconnect_ok hf
  obtain ⟨pre', listing, post', rfl, hmem, hmode, hid⟩ := hfinds.listed
  have hmode : found.kind.isRecovery = false := by simpa [searchFor, Wanted.accepts] using hmode
  have hfound : Returned identity (pre' ++ .asked .list (some (.ok listing)) :: post') :=
    ⟨found, pre', listing, post', rfl, hmem, hmode, hid⟩
  exact hfound.append_right.append_left

/-! ## The image -/

/-- The calls that programmed the image. -/
theorem programmed_of_finishes {status status' : DeviceStatus} {transaction : UInt16}
    {h₁ h₂ h₃ h₄ h₅ notes : History} (hopen : (openChannel target).Finishes h₁ (.ok channel))
    (hprepare : (Dfu.prepare channel config.transfer).Finishes h₂ (.ok status))
    (hdownload : (Dfu.download channel config.transfer true image.data heedTransfer).Finishes h₃ (.ok transaction))
    (hfinish : (Dfu.finish channel config.transfer heedTransfer transaction).Finishes h₄ (.ok ()))
    (hmanifest : (Dfu.manifest channel config.transfer).Finishes h₅ (.ok status'))
    (hnotes : Within [.log, .record] notes) :
    Dfu.Programmed config.transfer image.data (wire channel (h₁ ++ (h₂ ++ (h₃ ++ (h₄ ++ (h₅ ++ notes)))))) := by
  have hw₁ : wire channel h₁ = [] := wire_eq_nil_of_only (only_openChannel target) (by simp) hopen.begins
  have hwn : wire channel notes = [] := wire_eq_nil fun e he packet timeout hcall => by
    have := hnotes e he
    simp [hcall] at this
  obtain ⟨reply, y, hw₂, hy, -⟩ := Dfu.wire_of_prepare_ok hprepare
  obtain ⟨hchunks, hend⟩ := Dfu.delivered_of_download spares_heedTransfer hdownload
  obtain ⟨reply', hw₄⟩ := Dfu.wire_of_finish_ok spares_heedTransfer hfinish
  obtain ⟨polls, last, hw₅, hpolls, hlast, hstate, hcode⟩ := Dfu.wire_of_manifest_ok hmanifest
  rw [hend] at hw₄
  refine ⟨wire channel h₂, wire channel h₃, reply', polls, last, status', ?_, ?_, hchunks, hpolls,
    hlast, hstate, hcode⟩
  · simp [hw₁, hw₄, hw₅, hwn]
  · simp only [hw₂, List.mem_cons, List.not_mem_nil, or_false]
    rintro x (rfl | rfl)
    · rfl
    · simp [Exchange.not_isDownload_of_getStatus hy.1]

/-! ## The guarantee -/

/-- A session that is done sent the whole image, had every chunk acknowledged and the image confirmed, and then
saw the unit again that it knew from the start, unless it had begun in recovery mode with a camera that gave no
identity.  A session in which a stage fails is not done. -/
theorem done_is_confirmed {σ : Type} (env : Environment (cameras.sum host) σ) (s : σ) {session : Action Unit}
    (hstart : start config camera image = .ok session) (hmax : config.transfer.maxChunk ≤ ControlPacket.maxChunk) :
    (result env s session = .done → ∃ channel before flashed after,
      session.history env s = before ++ (flashed ++ after) ∧ (∀ e ∈ before, kindOf e.call ≠ .transfer) ∧
      (Dfu.imagePackets config.transfer image.data).flatMap (·.payload) = image.data ∧
      (Dfu.endPacket config.transfer image.data).payload = [] ∧
      Dfu.Programmed config.transfer image.data (wire channel flashed) ∧
      ((∃ identity, Identified camera identity before ∧ Returned identity after) ∨
        camera.kind.isRecovery = true ∧ Unidentified camera before)) ∧
    ∀ h₀ h₁ h₂ rest stage e,
      session.history env s = h₀ ++ (h₁ ++ (h₂ ++ rest)) → (noteImage image).Finishes h₀ () →
      Stage.Walk config image (.start camera) h₁ stage → (stage.advance config image).Finishes h₂ (.error e) →
        ∃ reason, result env s session = .failed reason := by
  obtain ⟨-, -, rfl⟩ := start_eq_ok.mp hstart
  refine ⟨fun hdone => ?_, fun h₀ h₁ h₂ rest stage e heq hnote hwalk hfail =>
    exists_failed_of_ne_done (result_ne_done_of_stage heq hnote hwalk hfail)⟩
  obtain ⟨h₀, h₁, hend, heq, hnote, hw, -⟩ := completed_of_done hdone
  obtain ⟨target, channel, identity?, status, transaction, status', h₂, h₃, h₄, h₅, h₆, h₇, notes, h₈, rfl,
      hw, hopen, hprepare, hdownload, hfinish, hmanifest, hnotes, hreturn⟩ := hw.programmed
  refine ⟨channel, h₀ ++ h₂, h₃ ++ (h₄ ++ (h₅ ++ (h₆ ++ (h₇ ++ notes)))),
    h₈ ++ hend, by simp [heq], fun e he => ?_,
    Dfu.flatMap_payload_imagePackets hmax, Dfu.payload_download (Nat.zero_le _),
    programmed_of_finishes hopen hprepare hdownload hfinish hmanifest hnotes, ?_⟩
  · rcases List.mem_append.mp he with he | he
    · exact (only_noteImage.within hnote.begins).ne (by simp) e he
    · exact hw.not_transfer (Nat.le_succ 5) e he
  · rcases identified_of_walk hw with ⟨identity, rfl, hid⟩ | ⟨rfl, hmode, pre, own, post, reply, rfl, hown, hnone⟩
    · exact .inl ⟨identity, hid.append_left, (returned_of_awaitReturn hreturn).append_right⟩
    · exact .inr ⟨hmode, h₀ ++ pre, own, post, reply, by simp, hown, hnone⟩

/-- An update that is done, of a unit that comes back. -/
theorem done_is_confirmed_obliging :
    let o : Obliging := { camera := Obliging.unit }
    let session := run Obliging.config Obliging.image Obliging.unit
    result Obliging.world o session = .done ∧ ∃ channel before flashed after identity,
      session.history Obliging.world o = before ++ (flashed ++ after) ∧
      Dfu.Programmed Obliging.config.transfer Obliging.image.data (wire channel flashed) ∧
      Identified Obliging.unit identity before ∧ Returned identity after := by
  intro o session
  have hstart : start Obliging.config Obliging.unit Obliging.image = .ok session :=
    start_eq_ok.mpr ⟨by decide +kernel, .inr rfl, rfl⟩
  have hdone : result Obliging.world o session = .done := by decide +kernel
  obtain ⟨channel, before, flashed, after, heq, -, -, -, hprogrammed, ⟨identity, hid, hreturned⟩ | ⟨hmode, -⟩⟩ :=
    (done_is_confirmed Obliging.world o hstart (by decide)).1 hdone
  · exact ⟨hdone, channel, before, flashed, after, identity, heq, hprogrammed, hid, hreturned⟩
  · cases hmode

end Session

end Reflash
