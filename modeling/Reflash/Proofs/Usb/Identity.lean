import Reflash.Proofs.Dfu.LoaderStatus
import Reflash.Proofs.Usb.Calls

/-!
# Reflash.Proofs.Usb.Identity — the serial number of a camera in recovery mode

A camera in recovery mode is asked for its firmware status block, and the status is read from the bytes that
came in, not from the room there was for them (`payload_received`).  The calls that read the serial number have
one upload at most, and what is reported is settled by it (`finishes_serial`): nothing by an old loader, else
the digits of the six bytes of the serial number (`recovery_identity_is_faithful`).
-/

namespace Reflash.Usb

open Program

variable {H H' : BusHistory} {h : Handle} {c c' : UsbCamera} {block block' : Bytes}

/-! ## Uploads -/

/-- The bytes that a call received by an UPLOAD. -/
def upload? : Event (bus.sum host) → Option Bytes
  | ⟨.inl (.control _ packet _), some (.ok bytes)⟩ =>
    if packet.request = DfuRequest.upload.code then some bytes else none
  | _ => none

/-- What was uploaded in some calls. -/
def uploads (H : BusHistory) : List Bytes := H.filterMap upload?

/-- All calls but an UPLOAD. -/
abbrev Uploadless : (bus.sum host).Call → Prop :=
  Transfers (fun _ _ => True) fun _ packet => packet.request ≠ DfuRequest.upload.code

@[simp] theorem uploads_nil : uploads [] = [] := rfl

@[simp] theorem uploads_append : uploads (H ++ H') = uploads H ++ uploads H' := List.filterMap_append

theorem uploads_eq_nil {α : Type} {p : BusAction α} (hp : p.Only Uploadless) (hb : p.Begins H) :
    uploads H = [] := by
  refine List.filterMap_eq_nil_iff.mpr fun e he => ?_
  have hcall := hp.calls hb e he
  unfold upload?
  split
  · exact if_neg hcall
  · rfl

/-- An UPLOAD has one reply, which is put into the packet. -/
theorem finishes_upload {n : Nat} {timeout : Nanos} {result : Except LinkError ControlPacket}
    (hf : (dfuTransfer h (.upload n) timeout).Finishes H result) :
    (∃ bytes, uploads H = [bytes] ∧ result = .ok (received (.upload n) bytes)) ∨
      uploads H = [] ∧ ∃ e, result = .error e := by
  simp only [dfuTransfer, bind_eq, finishes_bind, finishes_ask] at hf
  obtain ⟨reply, H₁, H₂, rfl, rfl, hf⟩ := hf
  rcases reply with e | bytes
  · obtain ⟨rfl, rfl⟩ := finishes_done.mp hf
    exact .inr ⟨rfl, _, rfl⟩
  · obtain ⟨rfl, rfl⟩ := finishes_done.mp hf
    exact .inl ⟨bytes, rfl, rfl⟩

/-! ## Blocks -/

/-- What reading a firmware status block comes to: one upload, whose payload is taken for a status,
or a failure without. -/
def ReadBy (H : BusHistory) (result : Except LinkError LoaderStatus) : Prop :=
  (∃ block, uploads H = [block] ∧
    result = LoaderStatus.ofPayload (received (.upload LoaderStatus.blockLength) block).payload) ∨
  uploads H = [] ∧ ∃ e, result = .error e

theorem readBy_of_dfuTransfer {timeout : Nanos} {result : Except LinkError LoaderStatus}
    (hf : (readLoaderStatus (dfuTransfer h) timeout).Finishes H result) : ReadBy H result := by
  obtain ⟨detached, H₁, H₂, rfl, hdetach, hf⟩ := finishes_bind.mp hf
  have hnone : uploads H₁ = [] :=
    uploads_eq_nil (only_dfuTransfer (by decide : ControlPacket.request _ ≠ _) fun _ => trivial) hdetach.begins
  rcases detached with e | detached
  · obtain ⟨rfl, rfl⟩ := finishes_done.mp hf
    exact .inr ⟨by simp [hnone], e, rfl⟩
  obtain ⟨uploaded, H₃, H₄, rfl, hupload, hparsed⟩ := finishes_bind.mp hf
  rcases finishes_upload hupload with ⟨bytes, hone, rfl⟩ | ⟨hnone', e, rfl⟩
  · have hend : H₄ = [] ∧
        result = LoaderStatus.ofPayload (received (.upload LoaderStatus.blockLength) bytes).payload := by
      dsimp only at hparsed
      rw [LoaderStatus.ofPayload]
      split at hparsed <;> simpa [*] using hparsed
    exact .inl ⟨bytes, by simp [hnone, hone, hend.1], hend.2⟩
  · obtain ⟨rfl, rfl⟩ := finishes_done.mp hparsed
    exact .inr ⟨by simp [hnone, hnone'], e, rfl⟩

theorem readBy_of_loaderStatus {result : Except LinkError LoaderStatus}
    (hstatus : c.loaderStatus.Finishes H result) : ReadBy H result := by
  obtain ⟨opened, H₁, H₂, rfl, hopen, hf⟩ := finishes_bind.mp hstatus
  have hnone : uploads H₁ = [] := uploads_eq_nil ((only_claim c _).mono Taking.transfers) hopen.begins
  rcases opened with e | handle
  · obtain ⟨rfl, rfl⟩ := finishes_done.mp hf
    exact .inr ⟨by simp [hnone], e, rfl⟩
  obtain ⟨status, H₃, H₄, rfl, hread, hclosed⟩ := finishes_bind.mp hf
  obtain ⟨u, H₅, H₆, rfl, hclose, hend⟩ := finishes_bind.mp hclosed
  obtain rfl := finishes_ask.mp hclose
  obtain ⟨rfl, rfl⟩ := finishes_done.mp hend
  have hsilent : uploads [.onBus (.close handle) (some u)] = [] := rfl
  simpa [ReadBy, hnone, hsilent] using readBy_of_dfuTransfer hread

/-! ## Serial numbers -/

/-- The serial number of a D400 in recovery mode comes from the status in the one block that it uploaded. -/
theorem finishes_serial (hkind : c.kind = ⟨.d400, .recovery⟩) {result : Except LinkError (Option String)}
    (hfits : ∀ block ∈ uploads H, block.length < UInt16.size) (hf : c.serial.Finishes H result) :
    (∃ (block : Bytes) (status : LoaderStatus), uploads H = [block] ∧ status.HeldBy block ∧
      result = .ok (if status.supportsIdentity then some status.serialNumber else none)) ∨
    (∀ block ∈ uploads H, block.length < 68) ∧ ∃ e, result = .error e := by
  rw [UsbCamera.serial, hkind] at hf
  obtain ⟨read, H₁, H₂, rfl, hstatus, hend⟩ := finishes_bind.mp hf
  have hsilent : uploads H₂ = [] := by
    refine uploads_eq_nil ?_ hend.begins
    split
    · trivial
    · split
      · trivial
      · exact only_bind (only_debug.mpr trivial) fun _ => trivial
  rw [uploads_append, hsilent, List.append_nil] at hfits ⊢
  rcases readBy_of_loaderStatus hstatus with ⟨block, hone, rfl⟩ | ⟨hnone, e, rfl⟩
  · rw [payload_received rfl (hfits block (by simp [hone]))] at hend
    rcases hread : LoaderStatus.ofPayload block with e | status
    · rw [hread] at hend
      obtain ⟨rfl, rfl⟩ := finishes_done.mp hend
      refine .inr ⟨?_, e, rfl⟩
      rw [hone, List.forall_mem_singleton]
      refine Nat.lt_of_not_le fun hlong => ?_
      obtain ⟨status, hheld⟩ := LoaderStatus.exists_heldBy_iff.mpr hlong
      cases hread.symm.trans (LoaderStatus.ofPayload_eq_ok_iff.mpr hheld)
    · rw [hread] at hend
      refine .inl ⟨block, status, hone, LoaderStatus.ofPayload_eq_ok_iff.mp hread, ?_⟩
      dsimp only at hend
      split at hend
      · rename_i hidentity
        rw [if_pos hidentity]
        exact (finishes_done.mp hend).2
      · rename_i hidentity
        obtain ⟨u, H₃, H₄, rfl, -, hnone⟩ := finishes_bind.mp hend
        rw [if_neg hidentity]
        exact (finishes_done.mp hnone).2
  · obtain ⟨rfl, rfl⟩ := finishes_done.mp hend
    exact .inr ⟨by simp [hnone], e, rfl⟩

/-- A D400 in recovery mode reported an identity, or that it has none, and it did so by some calls in
which it uploaded a block. -/
structure Reported (c : UsbCamera) (H : BusHistory) (block : Bytes) (identity? : Option String) : Prop where
  kind : c.kind = ⟨.d400, .recovery⟩
  finishes : c.serial.Finishes H (.ok identity?)
  uploaded : uploads H = [block]
  fits : block.length < UInt16.size

theorem Reported.exists_heldBy {identity? : Option String} (hr : Reported c H block identity?) :
    ∃ status : LoaderStatus, status.HeldBy block ∧
      identity? = if status.supportsIdentity then some status.serialNumber else none := by
  have hfits : ∀ block ∈ uploads H, block.length < UInt16.size := by simpa [hr.uploaded] using hr.fits
  rcases finishes_serial hr.kind hfits hr.finishes with ⟨block', status, hone, hheld, hok⟩ | ⟨-, e, herror⟩
  · obtain rfl : block' = block := by simpa [hr.uploaded] using hone.symm
    exact ⟨status, hheld, Except.ok.inj hok⟩
  · cases herror

theorem Reported.exists_serialNumber {text : String} (hr : Reported c H block (some text)) :
    ∃ status : LoaderStatus, status.HeldBy block ∧ text = status.serialNumber := by
  obtain ⟨status, hheld, htext⟩ := hr.exists_heldBy
  refine ⟨status, hheld, ?_⟩
  split at htext
  · exact Option.some.inj htext
  · cases htext

/-- An identity is reported exactly by the loaders that have one, and it is written in twelve digits, which
stand for the six bytes in the block. -/
theorem Reported.identity {identity? : Option String} (hr : Reported c H block identity?) :
    (identity?.isSome = true ↔ 25 ≤ block.wordAt 16 2) ∧
    ∀ text, identity? = some text → text.length = 12 ∧ (∀ digit ∈ text.toList, digit ∈ Text.upperDigits) ∧
      Text.readPairs? text.toList = some (block.slice 18 6) := by
  constructor
  · obtain ⟨status, hheld, rfl⟩ := hr.exists_heldBy
    rw [← hheld.supportsIdentity_iff]
    cases status.supportsIdentity <;> simp
  · rintro text rfl
    obtain ⟨status, hheld, rfl⟩ := hr.exists_serialNumber
    have hlength : (status.serial.flatMap Text.upperPair).length = 12 := by
      rw [Text.length_upperPairs, hheld.length_serial]
    rw [hheld.serial, LoaderStatus.serialNumber, String.toList_ofList, String.length_ofList]
    exact ⟨hlength, Text.mem_upperDigits_of_mem_upperPairs _, Text.readPairs?_upperPairs _⟩

theorem Reported.text_eq_iff {text text' : String} (hr : Reported c H block (some text))
    (hr' : Reported c' H' block' (some text')) :
    text = text' ↔ block.slice 18 6 = block'.slice 18 6 := by
  obtain ⟨status, hheld, rfl⟩ := hr.exists_serialNumber
  obtain ⟨status', hheld', rfl⟩ := hr'.exists_serialNumber
  rw [hheld.serial, hheld'.serial]
  exact LoaderStatus.serialNumber_inj

/-- Of two blocks with the same revision and the same serial number, the same identity is reported. -/
theorem Reported.congr {identity? identity?' : Option String} (hr : Reported c H block identity?)
    (hr' : Reported c' H' block' identity?') (hsame : block.slice 16 8 = block'.slice 16 8) :
    identity? = identity?' := by
  have hrevision : block.slice 16 2 = block'.slice 16 2 := by
    have h := congrArg (List.take 2) hsame
    rwa [Bytes.take_slice, Bytes.take_slice] at h
  have hserial : block.slice 18 6 = block'.slice 18 6 := by
    have h := congrArg (List.drop 2) hsame
    rwa [Bytes.drop_slice, Bytes.drop_slice] at h
  have hsome : identity?.isSome = identity?'.isSome := by
    rw [Bool.eq_iff_iff, hr.identity.1, hr'.identity.1, Bytes.wordAt, Bytes.wordAt, hrevision]
  cases identity? with
  | none => exact (Option.not_isSome_iff_eq_none.mp (by simp [← hsome])).symm
  | some text =>
    obtain ⟨text', rfl⟩ := Option.isSome_iff_exists.mp hsome.symm
    exact congrArg some ((hr.text_eq_iff hr').mpr hserial)

/-- A channel that has carried out a DETACH and an UPLOAD gives a status exactly if the payload that it left,
which is cut at the length in the packet, has the 68 bytes of a block; then every field is what stands at its
place.  Over USB the payload is what came in.  So a D400 in recovery mode tells whether it has an identity
exactly if it uploads a whole block, has one exactly if its loader is of revision 25 or later, and writes it in
twelve digits that stand for the six bytes of its serial number.  Two units have the same identity exactly if
these bytes are the same, and no other bytes of the block but the revision have a say in it. -/
theorem recovery_identity_is_faithful :
    (∀ {I : Interface} (transfer : ControlPacket → Nanos → Program I (Except LinkError ControlPacket))
      (timeout : Nanos) (h₁ h₂ : List (Event I)) (detached packet : ControlPacket),
      (transfer (.detach ControlPacket.defaultDetachMillis) timeout).Finishes h₁ (.ok detached) →
      (transfer (.upload LoaderStatus.blockLength) timeout).Finishes h₂ (.ok packet) →
      let payload := packet.data.take (min packet.length.toNat packet.data.length)
      let read := readLoaderStatus transfer timeout
      (∀ status : LoaderStatus, read.Finishes (h₁ ++ h₂) (.ok status) ↔ status.HeldBy payload) ∧
      ((∃ status, read.Finishes (h₁ ++ h₂) (.ok status)) ↔ 68 ≤ payload.length)) ∧
    (∀ h n timeout H packet, (dfuTransfer h (.upload n) timeout).Finishes H (.ok packet) →
      ∃ bytes, uploads H = [bytes] ∧ (bytes.length < UInt16.size → packet.payload = bytes)) ∧
    (∀ (c : UsbCamera) H result, c.kind = ⟨.d400, .recovery⟩ → (∀ block ∈ uploads H, block.length < UInt16.size) →
      c.serial.Finishes H result →
      ((∃ identity?, result = .ok identity?) ↔ ∃ block, uploads H = [block] ∧ 68 ≤ block.length)) ∧
    (∀ c H block identity?, Reported c H block identity? →
      (identity?.isSome = true ↔ 25 ≤ block.wordAt 16 2) ∧
      ∀ text, identity? = some text → text.length = 12 ∧ (∀ digit ∈ text.toList, digit ∈ Text.upperDigits) ∧
        Text.readPairs? text.toList = some (block.slice 18 6)) ∧
    (∀ c c' H H' block block' text text', Reported c H block (some text) → Reported c' H' block' (some text') →
      (text = text' ↔ block.slice 18 6 = block'.slice 18 6)) ∧
    ∀ c c' H H' block block' identity? identity?',
      Reported c H block identity? → Reported c' H' block' identity?' →
      block.slice 16 8 = block'.slice 16 8 → identity? = identity?' := by
  refine ⟨?_, ?_, ?_, fun c H block identity? hr => hr.identity,
    fun c c' H H' block block' text text' hr hr' => hr.text_eq_iff hr',
    fun c c' H H' block block' identity? identity?' hr hr' => hr.congr hr'⟩
  · intro I transfer timeout h₁ h₂ detached packet hdetach hupload payload read
    have hpayload : packet.payload = payload := List.take_eq_take_min
    have hread (status : LoaderStatus) : read.Finishes (h₁ ++ h₂) (.ok status) ↔ status.HeldBy payload := by
      rw [finishes_readLoaderStatus hdetach hupload, hpayload, eq_comm, LoaderStatus.ofPayload_eq_ok_iff]
    exact ⟨hread, (exists_congr hread).trans LoaderStatus.exists_heldBy_iff⟩
  · intro h n timeout H packet hf
    rcases finishes_upload hf with ⟨bytes, hone, hok⟩ | ⟨-, e, herror⟩
    · exact ⟨bytes, hone, fun hfits => by rw [Except.ok.inj hok, payload_received rfl hfits]⟩
    · cases herror
  · intro c H result hkind hfits hf
    rcases finishes_serial hkind hfits hf with ⟨block, status, hone, hheld, rfl⟩ | ⟨hshort, e, rfl⟩
    · exact ⟨fun _ => ⟨block, hone, hheld.long⟩, fun _ => ⟨_, rfl⟩⟩
    · constructor
      · rintro ⟨identity?, hok⟩
        cases hok
      · rintro ⟨block, hone, hlong⟩
        exact absurd hlong (Nat.not_le_of_lt (hshort block (by simp [hone])))

/-! ## Some units -/

namespace Uploading

/-- A D400 in recovery mode. -/
def unit : UsbCamera where
  device := ⟨1, some { vendor := vendorId, product := 0x0ADB, productString? := none, serialString? := none }⟩
  handle := ⟨0⟩
  descriptor := { vendor := vendorId, product := 0x0ADB, productString? := none, serialString? := none }
  kind := ⟨.d400, .recovery⟩
  name := "Intel RealSense D400"
  endpoints? := none

/-- The block of a unit with a revision and a serial number; all its other bytes are the same. -/
def blockOf (other revision : UInt8) (serial : Bytes) : Bytes :=
  List.replicate 16 other ++ [revision, 0] ++ serial ++ List.replicate 44 other

/-- A bus on which a block is uploaded. -/
def world (block : Bytes) : Environment (bus.sum host) Unit
  | .inl (.open _), u => (some (.ok ⟨1⟩), u)
  | .inl (.autoDetach _ _), u => (some (.ok ()), u)
  | .inl (.claim _ _), u => (some (.ok ()), u)
  | .inl (.control _ packet _), u =>
    (some (.ok (if packet.request = DfuRequest.upload.code then block else [])), u)
  | .inl (.close _), u => (some (), u)
  | .inr (.log _), u => (some (), u)
  | _, u => (none, u)

/-- How the unit is asked for its serial number there. -/
abbrev history (block : Bytes) : BusHistory := unit.serial.history (world block) ()

/-- The unit uploads the block, and this is what it reports. -/
abbrev Reports (block : Bytes) (identity? : Option String) : Prop := Reported unit (history block) block identity?

theorem reports_of_run {block : Bytes} {identity? : Option String}
    (hrun : (unit.serial.run (world block) ()).1 = .finished (.ok identity?))
    (hone : uploads (history block) = [block]) (hfits : block.length < UInt16.size) : Reports block identity? :=
  ⟨rfl, finishes_history hrun, hone, hfits⟩

/-- A channel that leaves some data in the packet, cut at a length. -/
def leaving (data : Bytes) (length : UInt16) (packet : ControlPacket) (_ : Nanos) :
    Program host (Except LinkError ControlPacket) := .done (.ok { packet with data, length })

end Uploading

open Uploading in
/-- A unit with a zero byte in its serial number reports all twelve digits, whatever else is in its block, and
not those of a unit whose bytes are in another order.  From an old loader there is no identity, and from a short
block no answer.  The payload is as long as what came in, and a channel that leaves a whole block, but a length
of one byte less, gives no status. -/
theorem recovery_identity_is_faithful_units :
    (∃ text, Reports (blockOf 0 25 [0x0A, 0, 0, 0xFF, 1, 2]) (some text) ∧ text.length = 12 ∧
      Text.readPairs? text.toList = some [0x0A, 0, 0, 0xFF, 1, 2] ∧
      Reports (blockOf 0xEE 25 [0x0A, 0, 0, 0xFF, 1, 2]) (some text) ∧
      ∃ text', Reports (blockOf 0 25 [0, 0x0A, 0, 0xFF, 1, 2]) (some text') ∧ text ≠ text') ∧
    (∃ identity?, Reports (blockOf 0 24 [0x0A, 0, 0, 0xFF, 1, 2]) identity? ∧ ¬ identity?.isSome = true) ∧
    (∃ result, unit.serial.Finishes (history (blockOf 0 25 [])) result ∧ ¬ ∃ identity?, result = .ok identity?) ∧
    (∃ packet, (dfuTransfer ⟨1⟩ (.upload 68) 0).Finishes
        [.onBus (.control ⟨1⟩ (.upload 68) 0) (some (.ok [7]))] (.ok packet) ∧ packet.payload = [7]) ∧
    ¬ ∃ status,
      (readLoaderStatus (leaving (blockOf 0 25 [0x0A, 0, 0, 0xFF, 1, 2]) 67) 0).Finishes [] (.ok status) := by
  obtain ⟨hchannel, hupload, hanswers, hidentity, hunits, hcongr⟩ := recovery_identity_is_faithful
  have hunit : Reports (blockOf 0 25 [0x0A, 0, 0, 0xFF, 1, 2]) (some "0A0000FF0102") :=
    reports_of_run (by decide +kernel) (by decide +kernel) (by decide)
  have hmoved : Reports (blockOf 0 25 [0, 0x0A, 0, 0xFF, 1, 2]) (some "000A00FF0102") :=
    reports_of_run (by decide +kernel) (by decide +kernel) (by decide)
  have hold : Reports (blockOf 0 24 [0x0A, 0, 0, 0xFF, 1, 2]) none :=
    reports_of_run (by decide +kernel) (by decide +kernel) (by decide)
  obtain ⟨identity?, hother⟩ : ∃ identity?, Reports (blockOf 0xEE 25 [0x0A, 0, 0, 0xFF, 1, 2]) identity? :=
    ⟨some "0A0000FF0102", reports_of_run (by decide +kernel) (by decide +kernel) (by decide)⟩
  obtain ⟨hlength, -, hread⟩ := (hidentity _ _ _ _ hunit).2 _ rfl
  refine ⟨⟨_, hunit, hlength, hread, hcongr _ _ _ _ _ _ _ _ hother hunit (by decide) ▸ hother, _, hmoved, ?_⟩,
    ⟨none, hold, ?_⟩, ⟨.error (.failed "short firmware status block"), ?_⟩, ?_, ?_⟩
  · exact fun heq => absurd ((hunits _ _ _ _ _ _ _ _ hunit hmoved).mp heq) (by decide)
  · exact fun hsome => absurd ((hidentity _ _ _ _ hold).1.mp hsome) (by decide)
  · have hrun : unit.serial.Finishes (history (blockOf 0 25 []))
        (.error (.failed "short firmware status block")) :=
      finishes_history (by decide +kernel)
    have hone : uploads (history (blockOf 0 25 [])) = [blockOf 0 25 []] := by decide +kernel
    refine ⟨hrun, fun hok => ?_⟩
    obtain ⟨block, hblock, hlong⟩ := (hanswers unit _ _ rfl (by rw [hone]; decide) hrun).mp hok
    obtain rfl : blockOf 0 25 [] = block := by simpa [hone] using hblock
    exact absurd hlong (by decide)
  · have hrun : (dfuTransfer ⟨1⟩ (.upload 68) 0).Finishes [.onBus (.control ⟨1⟩ (.upload 68) 0) (some (.ok [7]))]
        (.ok (received (.upload 68) [7])) := .call (.done _)
    obtain ⟨bytes, hone, hpayload⟩ := hupload _ _ _ _ _ hrun
    obtain rfl : [7] = bytes := List.singleton_inj.mp hone
    exact ⟨_, hrun, hpayload (by decide)⟩
  · have hread := hchannel (leaving (blockOf 0 25 [0x0A, 0, 0, 0xFF, 1, 2]) 67) 0 [] [] _ _ (.done _) (.done _)
    exact fun hstatus => absurd (hread.2.mp hstatus) (by decide)

end Reflash.Usb
