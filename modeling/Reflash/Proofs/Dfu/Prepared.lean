import Reflash.Proofs.Dfu.StopAndWait

/-!
# Reflash.Proofs.Dfu.Prepared — no download to a loader that is not ready

A channel is `Prepared` if what is on its wire begins with a DETACH and one status query, and no download is there
unless both were answered and the loader was idle.
-/

namespace Reflash

open Program

structure Prepared (w : List Exchange) : Prop where
  detach_first : ∀ x rest, w = x :: rest → ∃ millis, x.packet = .detach millis
  status_second : ∀ x y rest, w = x :: y :: rest → y.packet = .getStatus
  status_once : ∀ x y z rest, w = x :: y :: z :: rest → z.packet ≠ .getStatus
  idle_before_download : ∀ z ∈ w, z.isDownload → ∃ x y rest status, w = x :: y :: rest ∧ x.IsAccepted ∧
    y.Reports status ∧ (status.state = .appIdle ∨ status.state = .dfuIdle)

namespace Prepared

variable {millis : UInt16} {x y : Exchange} {rest : List Exchange} {status : DeviceStatus}

theorem not_isDownload_of_detach (hx : x.packet = .detach millis) : x.isDownload = false := by
  rw [Exchange.isDownload, hx]
  rfl

theorem nil : Prepared [] where
  detach_first x rest heq := by simp at heq
  status_second x y rest heq := by simp at heq
  status_once x y z rest heq := by simp at heq
  idle_before_download z hz := by simp at hz

theorem detached (hx : x.packet = .detach millis) : Prepared [x] where
  detach_first x' rest heq := by
    obtain ⟨rfl, -⟩ := List.cons.inj heq
    exact ⟨millis, hx⟩
  status_second x' y rest heq := by simp at heq
  status_once x' y z rest heq := by simp at heq
  idle_before_download z hz hd := by
    obtain rfl := List.mem_singleton.mp hz
    simp [not_isDownload_of_detach hx] at hd

theorem asked (hx : x.packet = .detach millis) (hy : y.packet = .getStatus) : Prepared [x, y] where
  detach_first x' rest heq := by
    obtain ⟨rfl, -⟩ := List.cons.inj heq
    exact ⟨millis, hx⟩
  status_second x' y' rest heq := by
    obtain ⟨rfl, -⟩ := List.cons.inj (List.cons.inj heq).2
    exact hy
  status_once x' y' z rest heq := by simp at heq
  idle_before_download z hz hd := by
    simp only [List.mem_cons, List.not_mem_nil, or_false] at hz
    rcases hz with rfl | rfl
    · simp [not_isDownload_of_detach hx] at hd
    · simp [Exchange.not_isDownload_of_getStatus hy] at hd

/-- An idle loader may be sent anything but another status query. -/
theorem ready (hx : x.packet = .detach millis) (haccepted : x.IsAccepted) (hy : y.Reports status)
    (hidle : status.state = .appIdle ∨ status.state = .dfuIdle) (hrest : ∀ z ∈ rest.head?, z.packet ≠ .getStatus) :
    Prepared (x :: y :: rest) where
  detach_first x' rest heq := by
    obtain ⟨rfl, -⟩ := List.cons.inj heq
    exact ⟨millis, hx⟩
  status_second x' y' rest heq := by
    obtain ⟨rfl, -⟩ := List.cons.inj (List.cons.inj heq).2
    exact hy.1
  status_once x' y' z rest heq := by
    obtain ⟨-, rfl⟩ := List.cons.inj (List.cons.inj heq).2
    exact hrest z rfl
  idle_before_download _ _ _ := ⟨x, y, rest, status, rfl, haccepted, hy, hidle⟩

end Prepared

namespace Dfu

variable {channel : ControlChannel} {config : TransferConfig} {h : History}

theorem wire_of_begins_queryStatus {timeout : Nanos} (hb : (queryStatus channel timeout).Begins h) :
    wire channel h = [] ∨ ∃ reply?, wire channel h = [⟨.getStatus, reply?⟩] := by
  simp only [queryStatus, bind_eq, begins_bind, begins_ask, finishes_ask] at hb
  rcases hb with (rfl | ⟨a?, rfl⟩) | ⟨reply, h₁, h₂, rfl, rfl, hb⟩
  · exact .inl rfl
  · exact .inr ⟨a?, by simp⟩
  · obtain rfl : h₂ = [] := by
      cases reply with
      | ok packet => exact begins_done.mp hb
      | error e => exact begins_done.mp hb
    exact .inr ⟨some reply, by simp⟩

theorem prepared_of_begins_prepare (hb : (prepare channel config).Begins h) : Prepared (wire channel h) := by
  simp only [prepare, Attempt.begins_bind, Attempt.begins_discard, Attempt.begins_of, begins_ask,
    Attempt.finishes_discard_ok, Attempt.finishes_of_ok, finishes_ask, Attempt.begins_lift,
    Attempt.finishes_lift_ok] at hb
  rcases hb with (rfl | ⟨a?, rfl⟩) | ⟨u, h₁, h₂, rfl, ⟨reply, rfl⟩, hb | ⟨status, h₃, h₄, rfl, hquery, hb⟩⟩
  · exact .nil
  · simpa using Prepared.detached rfl
  · rcases wire_of_begins_queryStatus hb with hw | ⟨reply?, hw⟩
    · simpa [hw] using Prepared.detached rfl
    · simpa [hw] using Prepared.asked rfl rfl
  · have hw₄ : wire channel h₄ = [] := by
      simp only [report, begins_tell, finishes_tell] at hb
      rcases hb with (rfl | ⟨u?, rfl⟩) | ⟨u', h₅, h₆, rfl, rfl, hb⟩
      · rfl
      · rfl
      · obtain rfl : h₆ = [] := by
          split at hb
          · exact Attempt.begins_pure.mp hb
          · exact Attempt.begins_pure.mp hb
          · exact Attempt.begins_throw.mp hb
        rfl
    obtain ⟨reply', rfl, -⟩ := finishes_queryStatus.mp hquery
    simpa [hw₄] using Prepared.asked rfl rfl

/-- A channel that was prepared well. -/
theorem wire_of_prepare_ok {status : DeviceStatus} (hf : (prepare channel config).Finishes h (.ok status)) :
    ∃ reply y, wire channel h = [⟨.detach config.detachMillis, some (.ok reply)⟩, y] ∧ y.Reports status ∧
      (status.state = .appIdle ∨ status.state = .dfuIdle) := by
  simp only [prepare, Attempt.finishes_bind_ok, Attempt.finishes_discard_ok, Attempt.finishes_of_ok, finishes_ask,
    Attempt.finishes_lift_ok, finishes_report] at hf
  obtain ⟨u, h₁, h₂, rfl, ⟨reply, rfl⟩, seen, h₃, h₄, rfl, hquery, u', h₅, h₆, rfl, rfl, hf⟩ := hf
  obtain ⟨reply', rfl, hseen⟩ := finishes_queryStatus.mp hquery
  cases reply' with
  | error e => cases hseen
  | ok packet =>
    obtain rfl := Except.ok.inj hseen
    have hidle : h₆ = [] ∧ status = DeviceStatus.decode packet.payload ∧
        (status.state = .appIdle ∨ status.state = .dfuIdle) := by
      split at hf
      · rename_i hstate
        obtain ⟨rfl, hok⟩ := Attempt.finishes_pure.mp hf
        obtain rfl := Except.ok.inj hok
        exact ⟨rfl, rfl, .inl hstate⟩
      · rename_i hstate
        obtain ⟨rfl, hok⟩ := Attempt.finishes_pure.mp hf
        obtain rfl := Except.ok.inj hok
        exact ⟨rfl, rfl, .inr hstate⟩
      · simp at hf
    obtain ⟨rfl, rfl, hidle⟩ := hidle
    exact ⟨reply, ⟨.getStatus, some (.ok packet)⟩, by simp, ⟨rfl, packet, rfl, rfl⟩, hidle⟩

theorem toDevice_ne_getStatus (request : DfuRequest) (value : UInt16) (payload : Bytes) :
    ControlPacket.toDevice request value payload ≠ .getStatus := by
  intro heq
  have htype := congrArg ControlPacket.requestType heq
  simp [ControlPacket.getStatus, ControlPacket.toDevice, ControlPacket.toHost] at htype

variable {heedsStop : Bool} {progress : Single → Action Unit} {total : Nat} {chunks : List Chunk} {image : Bytes}
  {sent : Nat} {transaction : UInt16}

theorem head_of_begins_sendChunks
    (hb : (sendChunks channel config heedsStop progress total chunks image sent transaction).Begins h) :
    ∀ z ∈ (wire channel h).head?, z.packet ≠ .getStatus := by
  cases chunks with
  | nil =>
    simp only [sendChunks, report, Attempt.begins_bind, Attempt.begins_lift, begins_tell, Attempt.finishes_lift_ok,
      finishes_tell, Attempt.begins_pure] at hb
    rcases hb with (rfl | ⟨u?, rfl⟩) | ⟨u, h₁, h₂, rfl, rfl, rfl⟩ <;> simp
  | cons chunk chunks =>
    have hstops : (shouldStop heedsStop).Only (ofKinds [.stop]) := only_shouldStop (by simp)
    simp only [sendChunks, Attempt.begins_bind, Attempt.begins_lift, Attempt.finishes_lift_ok] at hb
    rcases hb with hb | ⟨stop, h₁, h₂, rfl, hstop, hb⟩
    · simp [wire_eq_nil_of_only hstops (by simp) hb]
    have hw₁ : wire channel h₁ = [] := wire_eq_nil_of_only hstops (by simp) hstop.begins
    rw [wire_append, hw₁, List.nil_append]
    split at hb
    · have hquit : (abort channel config).Begins h₂ := by
        simp only [Attempt.throw_bind, Attempt.begins_bind, Attempt.begins_lift, Attempt.finishes_lift_ok,
          Attempt.begins_throw] at hb
        rcases hb with hb | ⟨u, h₃, h₄, rfl, hf, rfl⟩
        · exact hb
        · simpa using hf.begins
      intro z hz
      rw [packet_of_begins_abort hquit z (List.mem_of_mem_head? hz)]
      exact toDevice_ne_getStatus _ _ _
    · simp only [Attempt.begins_bind, begins_send, finishes_send_ok] at hb
      rcases hb with (rfl | ⟨reply?, rfl⟩) | ⟨u, h₃, h₄, rfl, ⟨reply, rfl⟩, -⟩
      · simp
      all_goals
        simp only [List.cons_append, wire_transfer, List.head?_cons, Option.mem_some_iff]
        rintro z rfl
        exact toDevice_ne_getStatus _ _ _

theorem head_of_begins_download (hb : (download channel config heedsStop image progress).Begins h) :
    ∀ z ∈ (wire channel h).head?, z.packet ≠ .getStatus := by
  unfold download at hb
  split at hb
  · simp only [Attempt.throw_bind, Attempt.begins_throw] at hb
    subst hb
    simp
  · exact head_of_begins_sendChunks hb

theorem wire_ne_nil_of_download (hprogress : ∀ x, (progress x).Only (Spares channel)) {next : UInt16}
    (hf : (download channel config heedsStop image progress).Finishes h (.ok next)) : wire channel h ≠ [] := by
  have himage : 0 < image.length := by
    unfold download at hf
    split at hf
    · simp at hf
    · rename_i hne
      exact List.length_pos_iff.mpr (by simpa using hne)
  intro hnil
  have hall := (delivered_of_download hprogress hf).1.downloads_eq isDownload_of_mem_imagePackets
  have hcount := (⟨image.length, config.maxChunk⟩ : ChunkPlan).count_pos himage
  have hlength := congrArg List.length hall
  rw [hnil, imagePackets_eq, List.length_map, List.length_range] at hlength
  simp only [downloads_nil, List.length_nil] at hlength
  omega

end Dfu

end Reflash
