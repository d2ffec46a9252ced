import Reflash.Proofs.Commands
import Reflash.Proofs.Dfu.Lockstep
import Reflash.Proofs.Obliging
import Reflash.Proofs.Usb.Listed

/-!
# Reflash.Proofs.Usb.ReadOnly — commands that only read

Up to its session no command sends a download to a loader or restarts a camera (`Harmless`), and a listing and a
backup have no session.  What these two may send at all depends on the calls before, since a transfer goes to
the device that its handle was opened on: a listing obeys `listTransfers` and a backup `backupTransfers`.  Both
follow from what the command asks of cameras (`Command.only_list`, `Command.obeys_backup`) and how a hub carries
out one such call; `BackupStands` ties the two sides of a backup together.
-/

namespace Reflash

open Program

namespace Usb

variable {past H : BusHistory} {h : Handle} {c : UsbCamera} {hub : Hub} {serial : String}

theorem quiet_answer (hub : Hub) (call : (cameras.sum host).Call) (hcommand : ∀ data, ¬ CommandOf call data)
    (hpacket : ∀ packet, ¬ PacketOf call packet) : (hub.answer call).Only Quiet :=
  (transfers_answer call hub).mono (Transfers.mono (fun _ => hcommand) fun _ => hpacket)

/-! ## Listings -/

/-- What a listing may send: the command that reads the version data, to a D400 in normal mode, and the two
requests for the firmware status block, to a D400 in recovery mode. -/
def listTransfers : Rule (bus.sum host) BusHistory :=
  transferRule
    (fun past h data => data = Monitor.command Monitor.versionData 0 0 0 0 ∧
      ∃ d, OpenOn past h d ∧ d.kind? = some ⟨.d400, .normal⟩)
    fun past h packet => (packet = .detach ControlPacket.defaultDetachMillis ∨
      packet = .upload LoaderStatus.blockLength) ∧
      ∃ d, OpenOn past h d ∧ d.kind? = some ⟨.d400, .recovery⟩

theorem obeys_loaderStatus (hkind : c.device.kind? = some ⟨.d400, .recovery⟩) :
    c.loaderStatus.Obeys listTransfers (fun _ _ => True) past := by
  have hclaim : (c.openDfu).Obeys listTransfers
      (fun r past' => ∀ h, r = .ok h → OpenOn past' h c.device) past := by
    refine obeys_transfers_of_finishes (obeys_quiet ((only_claim c _).mono Taking.transfers)) fun H r hf h hr => ?_
    subst hr
    exact openOn_of_claim hf
  refine obeys_bind hclaim fun claimed past' hopen => ?_
  rcases claimed with e | h
  · trivial
  have hread : (readLoaderStatus (dfuTransfer h) defaultTimeout).Only
      (listTransfers.Keeps fun past'' => past' <+: past'' ∧ OpenOn past'' h c.device) := by
    refine only_readLoaderStatus ?_ ?_ fun _ => keeps_openOn trivial fun _ _ _ => trivial
    · exact keeps_openOn trivial fun _ _ ho => ⟨.inl rfl, c.device, ho, hkind⟩
    · exact keeps_openOn trivial fun _ _ ho => ⟨.inr rfl, c.device, ho, hkind⟩
  refine obeys_bind (obeys_of_only hread ⟨List.prefix_rfl, hopen h rfl⟩) fun status past'' _ => ?_
  exact obeys_quiet (only_bind (only_ask.mpr trivial) fun _ => trivial)

theorem obeys_serial (hc : c.ListedIn past) : c.serial.Obeys listTransfers (fun _ _ => True) past := by
  have hkind := hc.kind?
  cases hmode : c.kind.mode with
  | normal => exact obeys_quiet ((only_serial_of_normal hmode).mono Looking.transfers)
  | recovery =>
    unfold UsbCamera.serial
    split
    · rename_i heq
      rw [heq] at hmode
      cases hmode
    · rename_i heq
      refine obeys_bind (obeys_loaderStatus (heq ▸ hkind)) fun status past' _ => obeys_quiet ?_
      split
      · trivial
      · split
        · trivial
        · exact only_bind (only_debug.mpr trivial) fun _ => trivial
    · trivial

theorem obeys_firmware (hc : c.ListedIn past) : c.firmware.Obeys listTransfers (fun _ _ => True) past := by
  have hkind := hc.kind?
  unfold UsbCamera.firmware
  split
  · rename_i heq
    rw [hc.closed]
    have hopen : c.openMonitor.Obeys listTransfers
        (fun r past' => ∀ m, r = .ok m → OpenOn past' m.handle c.device) past := by
      refine obeys_transfers_of_finishes (obeys_quiet (only_openMonitor fun _ => Taking.transfers))
        fun H r hf m hr => ?_
      subst hr
      exact openOn_of_openMonitor hf
    refine obeys_bind hopen fun opened past' hopen => ?_
    rcases opened with e | m
    · exact obeys_quiet (only_bind (only_debug.mpr trivial) fun _ => trivial)
    have hversion : m.version.Only (listTransfers.Keeps fun past'' => past' <+: past'' ∧
        OpenOn past'' m.handle c.device) := by
      refine only_version ?_ (keeps_openOn trivial fun _ _ _ => trivial)
      exact keeps_openOn trivial fun _ _ ho => ⟨rfl, c.device, ho, heq ▸ hkind⟩
    refine obeys_bind (obeys_of_only hversion ⟨List.prefix_rfl, hopen m rfl⟩) fun version past'' _ => ?_
    exact obeys_quiet (only_bind (only_ask.mpr trivial) fun _ => trivial)
  · rename_i heq
    refine obeys_bind (obeys_loaderStatus (heq ▸ hkind)) fun status past' _ => obeys_quiet ?_
    split
    · trivial
    · split <;> trivial
  · trivial

theorem obeys_answer_listing {call : (cameras.sum host).Call} (hl : hub.Listed past)
    (hcall : ofKinds Command.listKinds call) :
    (hub.answer call).Obeys listTransfers (fun r past' => r.2.Listed past') past := by
  have hkind : kindOf call ∉ [.openMonitor, .restart] := by
    rw [ofKinds_iff] at hcall
    revert hcall
    cases kindOf call <;> simp
  refine obeys_transfers_of_finishes ?_ fun H r hf => Hub.listed_of_finishes hl hkind hf
  rcases call with call | call
  · cases call with
    | list => exact obeys_quiet (quiet_answer hub _ (fun _ => id) fun _ => id)
    | sensors camera => trivial
    | serial camera =>
      rw [Hub.answer, Hub.serve]
      split
      · exact obeys_bind (obeys_serial (hl.of_get ‹_›)) fun _ _ _ => trivial
      · trivial
    | firmware camera =>
      rw [Hub.answer, Hub.serve]
      split
      · exact obeys_bind (obeys_firmware (hl.of_get ‹_›)) fun _ _ _ => trivial
      · trivial
    | _ => simp at hcall
  · exact obeys_quiet (quiet_answer hub _ (fun _ => id) fun _ => id)

theorem obeys_list (firmware : List (ProductLine × String)) :
    (Hub.onBus (Command.list firmware).run {}).Obeys listTransfers (fun _ _ => True) [] := by
  refine Obeys.mono (obeys_expand (fun _ hub past => hub.Listed past) (obeys_always (Command.only_list firmware))
    ?_ ?_) fun _ _ _ => trivial
  · exact fun call _ hub past hl hcall => obeys_answer_listing hl hcall
  · exact fun c hc => absurd hc List.not_mem_nil

/-! ## Backups -/

/-- A device has told its serial number, in the string that its descriptor names, over a handle
that was opened on it. -/
def Identified (past : BusHistory) (d : Device) (serial : String) : Prop :=
  ∃ descriptor index h bytes text past₁ past₂ past₃, d.descriptor? = some descriptor ∧
    descriptor.serialString? = some index ∧
    past = past₁ ++ .onBus (.open d) (some (.ok h)) :: past₂ ++
      .onBus (.string h index) (some (.ok bytes)) :: past₃ ∧
    String.fromUTF8? ⟨bytes.toArray⟩ = some text ∧ serial = String.ofList (Text.trim text.toList)

theorem Identified.append {d : Device} (hd : Identified past d serial) : Identified (past ++ H) d serial := by
  obtain ⟨descriptor, index, h, bytes, text, past₁, past₂, past₃, hdescriptor, hindex, rfl, htext⟩ := hd
  exact ⟨descriptor, index, h, bytes, text, past₁, past₂, past₃ ++ H, hdescriptor, hindex, by simp, htext⟩

theorem finishes_readText_ok {index : UInt8} {text : String}
    (hf : (UsbCamera.readText h index).Finishes H (.ok text)) :
    ∃ bytes, H = [.onBus (.string h index) (some (.ok bytes))] ∧ String.fromUTF8? ⟨bytes.toArray⟩ = some text := by
  simp only [UsbCamera.readText, bind_eq, finishes_bind, finishes_ask] at hf
  obtain ⟨string, H₁, H₂, rfl, rfl, hf⟩ := hf
  rcases string with e | bytes
  · cases (finishes_done.mp hf).2
  dsimp only at hf
  split at hf
  · obtain ⟨rfl, hok⟩ := finishes_done.mp hf
    exact ⟨bytes, rfl, by rwa [Except.ok.inj hok]⟩
  · cases (finishes_done.mp hf).2

theorem identified_of_serial (hc : c.ListedIn past) (hnormal : c.kind.mode = .normal)
    (hf : c.serial.Finishes H (.ok (some serial))) : Identified (past ++ H) c.device serial := by
  unfold UsbCamera.serial at hf
  split at hf
  · split at hf
    · cases (finishes_done.mp hf).2
    rename_i index hindex
    obtain ⟨read, H₁, H₂, rfl, hread, hf⟩ := finishes_bind.mp hf
    rcases read with e | text
    · cases (finishes_done.mp hf).2
    obtain ⟨rfl, hok⟩ := finishes_done.mp hf
    obtain ⟨bytes, rfl, htext⟩ := finishes_readText_ok hread
    obtain ⟨past₁, past₂, rfl⟩ := List.append_of_mem hc.opened
    refine ⟨_, index, c.handle, bytes, text, past₁, past₂, [], hc.descriptor, hindex, by simp, htext, ?_⟩
    exact Option.some.inj (Except.ok.inj hok)
  all_goals
    rename_i hkind
    rw [hkind] at hnormal
    cases hnormal

/-- What a backup may send: flash reads to the device that has told the serial number. -/
def backupTransfers (serial : String) : Rule (bus.sum host) BusHistory :=
  transferRule
    (fun past h data => (∃ offset size, data = Monitor.flashRead offset size) ∧
      ∃ d, OpenOn past h d ∧ Identified past d serial)
    fun _ _ _ => False

/-- How a backup of the camera with a serial number stands with a hub and the calls so far. -/
def BackupStands (serial : String) : Command.Backing → Hub → BusHistory → Prop
  | .choosing listed named, hub, past => hub.Listed past ∧
    (∀ camera ∈ listed, ∃ c, hub.known[camera.id]? = some c ∧ c.kind = camera.kind) ∧
    ∀ camera ∈ named, ∃ c, hub.known[camera.id]? = some c ∧ Identified past c.device serial
  | .reading camera, hub, past => ∃ c m, hub.known[camera.id]? = some c ∧ c.monitor? = some m ∧
    OpenOn past m.handle c.device ∧ Identified past c.device serial

theorem Hub.update_self {id : Nat} (hc : hub.known[id]? = some c) : hub.update id c = hub := by
  obtain ⟨hlt, rfl⟩ := List.getElem?_eq_some_iff.mp hc
  simp [Hub.update]

section Standing

variable {listed named : List Camera} {camera : Camera}

/-- While a backup looks for its camera, a call that changes neither the hub nor what is known
leaves it as it stands. -/
theorem stands_of_same (hs : BackupStands serial (.choosing listed named) hub past) :
    BackupStands serial (.choosing listed named) hub (past ++ H) := by
  obtain ⟨hl, hlisted, hnamed⟩ := hs
  refine ⟨hl.mono (List.subset_append_left past H), hlisted, fun camera hmem => ?_⟩
  obtain ⟨c, hknown, hidentified⟩ := hnamed camera hmem
  exact ⟨c, hknown, hidentified.append⟩

theorem obeys_list_of_stands (hs : BackupStands serial (.choosing listed named) hub past) :
    (hub.answer (.inl .list)).Obeys (backupTransfers serial) (fun r past' =>
      BackupStands serial ((Command.Backing.choosing listed named).step serial (.asked .list (some r.1)))
        r.2 past') past := by
  refine obeys_transfers_of_finishes (obeys_quiet (quiet_answer hub _ (fun _ => id) fun _ => id)) fun H r hf => ?_
  obtain ⟨found?, hub'⟩ := r
  rcases Hub.finishes_answer_list hf with ⟨e, -, rfl, rfl⟩ | ⟨devices, found, H', -, rfl, rfl, -⟩
  · exact stands_of_same hs
  obtain ⟨-, hlisted, hnamed⟩ := stands_of_same (H := H) hs
  have hkeeps : ∀ {id : Nat} {c : UsbCamera}, hub.known[id]? = some c → (hub.known ++ found)[id]? =
      some c := fun hc =>
    List.getElem?_append_left (List.getElem?_eq_some_iff.mp hc).1 ▸ hc
  refine ⟨Hub.listed_of_finishes hs.1 (by simp) hf, fun camera hmem => ?_, fun camera hmem => ?_⟩
  · rcases List.mem_append.mp hmem with hmem | hmem
    · obtain ⟨c, hknown, hkind⟩ := hlisted camera hmem
      exact ⟨c, hkeeps hknown, hkind⟩
    · obtain ⟨i, c, hid, hget, hkind⟩ := Hub.mem_number hmem
      refine ⟨c, ?_, hkind⟩
      rw [hid, List.getElem?_append_right (Nat.le_add_right ..), Nat.add_sub_cancel_left]
      exact hget
  · obtain ⟨c, hknown, hidentified⟩ := hnamed camera hmem
    exact ⟨c, hkeeps hknown, hidentified⟩

theorem obeys_serial_of_stands (hs : BackupStands serial (.choosing listed named) hub past)
    (hmem : camera ∈ listed) (hnormal : camera.kind.mode = .normal) :
    (hub.answer (.inl (.serial camera))).Obeys (backupTransfers serial) (fun r past' =>
      BackupStands serial ((Command.Backing.choosing listed named).step serial
        (.asked (.serial camera) (some r.1))) r.2 past')
      past := by
  obtain ⟨c, hknown, hkind⟩ := hs.2.1 camera hmem
  have hnormal' : c.kind.mode = .normal := hkind ▸ hnormal
  rw [Hub.answer, Hub.serve, hknown]
  have hserial : c.serial.Only Quiet := (only_serial_of_normal hnormal').mono Looking.transfers
  refine obeys_transfers_of_finishes (obeys_quiet (only_bind hserial fun _ => trivial)) fun H r hf => ?_
  obtain ⟨result, H₁, H₂, rfl, hserial, hf⟩ := finishes_bind.mp hf
  obtain ⟨rfl, rfl⟩ := finishes_done.mp hf
  rw [List.append_nil]
  have hs' := stands_of_same (H := H₁) hs
  rcases result with e | _ | text
  · exact hs'
  · exact hs'
  show BackupStands serial (.choosing listed (if text = serial then camera :: named else named)) hub _
  split
  · rename_i htext
    refine ⟨hs'.1, hs'.2.1, fun camera' hmem' => ?_⟩
    rcases List.mem_cons.mp hmem' with rfl | hmem'
    · exact ⟨c, hknown, identified_of_serial (hs.1.of_get hknown) hnormal' (htext ▸ hserial)⟩
    · exact hs'.2.2 camera' hmem'
  · exact hs'

theorem obeys_openMonitor_of_stands (hs : BackupStands serial (.choosing listed named) hub past)
    (hmem : camera ∈ named) :
    (hub.answer (.inl (.openMonitor camera))).Obeys (backupTransfers serial) (fun r past' =>
      BackupStands serial ((Command.Backing.choosing listed named).step serial
        (.asked (.openMonitor camera) (some r.1))) r.2 past') past := by
  obtain ⟨c, hknown, hidentified⟩ := hs.2.2 camera hmem
  have hquiet := quiet_answer hub (.inl (.openMonitor camera)) (fun _ => id) fun _ => id
  refine obeys_transfers_of_finishes (obeys_quiet hquiet) fun H r hf => ?_
  rw [Hub.answer, Hub.serve, hknown] at hf
  obtain ⟨⟨offered, c'⟩, H₁, H₂, rfl, hoffer, hf⟩ := finishes_bind.mp hf
  obtain ⟨rfl, rfl⟩ := finishes_done.mp hf
  rw [List.append_nil]
  rcases finishes_offerMonitor (hs.1.of_get hknown).closed hoffer with ⟨rfl, rfl⟩ | ⟨m, rfl, rfl, hopen⟩
  · rw [Hub.update_self hknown]
    exact stands_of_same hs
  · have hlt := (List.getElem?_eq_some_iff.mp hknown).1
    exact ⟨{ c with monitor? := some m }, m, by simp [Hub.update, hlt], rfl, hopen, hidentified.append⟩

theorem obeys_flashRead_of_stands (hs : BackupStands serial (.reading camera) hub past) (offset size : UInt32)
    (timeout : Nanos) :
    (hub.answer (.inl (.exchange camera (Monitor.flashRead offset size) timeout))).Obeys (backupTransfers serial)
      (fun r past' => BackupStands serial (.reading camera) r.2 past') past := by
  obtain ⟨c, m, hknown, hmonitor, hopen, hidentified⟩ := hs
  have hcommand : (m.command (Monitor.flashRead offset size) timeout).Only
      ((backupTransfers serial).Keeps fun past' => past <+: past' ∧ OpenOn past' m.handle c.device) := by
    refine only_command ?_ (keeps_openOn trivial fun _ _ _ => trivial)
    refine keeps_openOn trivial fun past' hpast ho => ⟨⟨offset, size, rfl⟩, c.device, ho, ?_⟩
    obtain ⟨rest, rfl⟩ := hpast
    exact hidentified.append
  rw [Hub.answer, Hub.serve, hknown]
  dsimp only
  rw [UsbCamera.exchange, hmonitor]
  refine obeys_bind (obeys_of_only hcommand ⟨List.prefix_rfl, hopen⟩) fun reply past' hpast => ?_
  obtain ⟨⟨rest, rfl⟩, hopen'⟩ := hpast
  exact ⟨c, m, hknown, hmonitor, hopen', hidentified.append⟩

theorem obeys_answer_of_stands {b : Command.Backing} {call : (cameras.sum host).Call}
    (hs : BackupStands serial b hub past) (hallows : b.allows call) :
    (hub.answer call).Obeys (backupTransfers serial)
    (fun r past' => BackupStands serial (b.step serial ⟨call, some r.1⟩) r.2 past') past := by
  rcases call with call | call
  · cases b with
    | choosing listed named =>
      cases call with
      | list => exact obeys_list_of_stands hs
      | serial camera => exact obeys_serial_of_stands hs hallows.1 hallows.2
      | sensors camera =>
        -- A hub knows nothing of sensors.
        show BackupStands serial (.choosing listed (if ([] : List String).head? = some serial
            then camera :: named else named)) hub past
        simpa using hs
      | openMonitor camera => exact obeys_openMonitor_of_stands hs hallows
      | _ => exact hallows.elim
    | reading camera =>
      cases call with
      | exchange camera' request timeout =>
        obtain ⟨rfl, offset, size, rfl⟩ := hallows
        exact obeys_flashRead_of_stands hs offset size timeout
      | _ => exact hallows.elim
  · refine obeys_transfers_of_finishes (obeys_quiet (quiet_answer hub (.inr call) (fun _ => id) fun _ => id))
      fun H r hf => ?_
    obtain ⟨rfl, hhub⟩ := Hub.finishes_answer_host.mp hf
    rw [hhub]
    cases b with
    | choosing listed named => exact stands_of_same hs
    | reading camera =>
      obtain ⟨c, m, hknown, hmonitor, hopen, hidentified⟩ := hs
      exact ⟨c, m, hknown, hmonitor, hopen.append fun e he => List.mem_singleton.mp he ▸ trivial,
        hidentified.append⟩

end Standing

theorem obeys_backup (out : String) :
    (Hub.onBus (Command.backup serial out).run {}).Obeys (backupTransfers serial) (fun _ _ => True) [] := by
  refine Obeys.mono (obeys_expand (BackupStands serial) (Command.obeys_backup out) ?_ ?_) fun _ _ _ => trivial
  · exact fun call b hub past hs hallows => obeys_answer_of_stands hs hallows
  · exact ⟨fun c hc => absurd hc List.not_mem_nil, fun c hc => absurd hc List.not_mem_nil,
      fun c hc => absurd hc List.not_mem_nil⟩

/-! ## Before a session -/

/-- No download to a loader, and no command that restarts a camera in recovery mode. -/
def Harmless : (bus.sum host).Call → Prop :=
  Transfers (fun _ data => data.wordAt 4 4 ≠ Monitor.enterRecovery.toNat) fun _ packet => ¬ packet.IsDownload

/-- The calls on a camera that read. -/
def Reads : (cameras.sum host).Call → Prop
  | .inl (.exchange _ request _) => ∃ offset size, request = Monitor.flashRead offset size
  | .inl (.enterRecovery _) | .inl (.openControl _) | .inl (.transfer _ _ _) => False
  | _ => True

theorem opcode_ne_enterRecovery {opcode p₀ p₁ p₂ p₃ : UInt32} (hne : opcode ≠ Monitor.enterRecovery) :
    (Monitor.command opcode p₀ p₁ p₂ p₃).wordAt 4 4 ≠ Monitor.enterRecovery.toNat := by
  rw [Monitor.wordAt_command_opcode]
  exact fun heq => hne (UInt32.toNat.inj heq)

theorem harmless_answer {call : (cameras.sum host).Call} (hcall : Reads call) (hub : Hub) :
    (hub.answer call).Only Harmless := by
  refine (transfers_answer call hub).mono (Transfers.mono (fun _ data hdata => ?_) fun _ packet hpacket => ?_)
  · rcases call with call | call
    · cases call with
      | firmware camera =>
        obtain rfl : data = _ := hdata
        exact opcode_ne_enterRecovery (by decide)
      | exchange camera request timeout =>
        obtain ⟨offset, size, rfl⟩ := hcall
        obtain rfl : data = _ := hdata
        exact opcode_ne_enterRecovery (by decide)
      | enterRecovery camera => exact hcall.elim
      | _ => exact hdata.elim
    · exact hdata.elim
  · rcases call with call | call
    · cases call with
      | serial camera | firmware camera =>
        obtain rfl | rfl : _ ∨ _ := hpacket
        · exact (by decide : DfuRequest.detach.code ≠ DfuRequest.download.code)
        · exact (by decide : DfuRequest.upload.code ≠ DfuRequest.download.code)
      | transfer channel own timeout => exact hcall.elim
      | _ => exact hpacket.elim
    · exact hpacket.elim

theorem reads_of_ofKinds {kinds : List CallKind}
    (hkinds : ∀ kind ∈ kinds, kind ∉ [.exchange, .restart, .openControl, .transfer])
    (call : (cameras.sum host).Call) (hcall : ofKinds kinds call) : Reads call := by
  have hnot := hkinds _ hcall
  rcases call with call | call
  · cases call <;> simp [Reads] at hnot ⊢
  · trivial

theorem reads_of_allows (b : Command.Backing) (call : (cameras.sum host).Call) (hallows : b.allows call) :
    Reads call := by
  rcases call with call | call
  · cases b <;> cases call <;> first | trivial | exact hallows.elim | exact hallows.2
  · trivial

/-- Before its session a command only reads. -/
theorem only_reads_prepare (i : Invocation) : i.prepare.Only Reads := by
  cases i with
  | list firmware =>
    exact Attempt.only_bind ((Command.only_list firmware).mono (reads_of_ofKinds (by simp))) fun _ => trivial
  | backup serial out => exact Attempt.only_bind ((Command.obeys_backup out).only reads_of_allows) fun _ => trivial
  | update serial file? firmware backupDir noBackup recoverySeconds reconnectSeconds =>
    exact (Invocation.only_prepare rfl).mono (reads_of_ofKinds (by simp))
  | recover file serial? => exact (Invocation.only_prepare rfl).mono (reads_of_ofKinds (by simp))

/-- The calls of a command, in a run of the whole program. -/
abbrev busCalls {σ : Type} (i : Invocation) (env : Environment (bus.sum host) σ) (s : σ) : BusHistory :=
  (Hub.onBus i.run.run {}).history env s

/-- A session was started in a run, by the calls `before`. -/
def Started {σ : Type} (i : Invocation) (env : Environment (bus.sum host) σ) (s : σ) (before : BusHistory) :
    Prop :=
  ∃ session hub s', (Hub.onBus i.prepare.run {}).run env s = (.finished (.ok (some session), hub), s') ∧
    (Hub.onBus i.prepare.run {}).history env s <+: before

theorem mem_or_prefix_of_append_eq {α : Type} {l₁ l₂ before after : List α} {a : α}
    (heq : l₁ ++ l₂ = before ++ a :: after) :
    a ∈ l₁ ∨ l₁ <+: before ∧ a ∈ l₂ := by
  rcases List.append_eq_append_iff.mp heq with ⟨rest, rfl, hrest⟩ | ⟨rest, rfl, hrest⟩
  · exact .inr ⟨List.prefix_append .., by simp [hrest]⟩
  · cases rest with
    | nil =>
      obtain rfl : a :: after = l₂ := hrest
      exact .inr ⟨by simp, List.mem_cons_self⟩
    | cons b rest =>
      obtain ⟨rfl, -⟩ := List.cons.inj hrest
      exact .inl (by simp)

section Run

variable {σ : Type} (env : Environment (bus.sum host) σ) (s : σ) (i : Invocation)

theorem onBus_run : Hub.onBus i.run.run {} = (Hub.onBus i.prepare.run {}).bind fun
    | (.ok session?, hub) => Hub.onBus (Invocation.proceed session?).run hub
    | (.error e, hub) => done (.error e, hub) := by
  rw [Invocation.run_eq, Hub.onBus, Attempt.run_bind, expand_bind]
  congr
  funext ⟨r, hub⟩
  cases r <;> rfl

/-- Only a command that updates comes to a session. -/
theorem updates_of_started {before : BusHistory} (hstarted : Started i env s before) : i.updates = true := by
  obtain ⟨session, hub, s', hrun, -⟩ := hstarted
  obtain ⟨h, hprepare, -⟩ := finishes_expand.mp (finishes_history (congrArg Prod.fst hrun))
  cases i with
  | list firmware | backup serial out =>
    obtain ⟨u, h₁, h₂, rfl, -, hnone⟩ := Attempt.finishes_bind_ok.mp hprepare
    cases (Attempt.finishes_pure.mp hnone).2
  | _ => rfl

theorem harmless_prepare : ∀ e ∈ (Hub.onBus i.prepare.run {}).history env s, Harmless e.call :=
  (only_expand (only_reads_prepare i) (fun _ hub hcall => harmless_answer hcall hub) {}).calls
    (begins_history env _ s)

/-- A call that may do harm is made after the start of a session. -/
theorem harmless_or_started {before after : BusHistory} {e : Event (bus.sum host)}
    (heq : busCalls i env s = before ++ e :: after) : Harmless e.call ∨ Started i env s before := by
  rw [busCalls, onBus_run, history_bind] at heq
  rcases mem_or_prefix_of_append_eq heq with hmem | ⟨hprepared, hmem⟩
  · exact .inl (harmless_prepare env s i e hmem)
  -- There are more calls only if there is a session.
  split at hmem
  · rename_i r s' hrun
    obtain ⟨e' | session | _, hub⟩ := r
    · cases hmem
    · cases hmem
    · exact .inr ⟨_, hub, s', hrun, hprepared⟩
  · cases hmem

theorem fails_of_prepare {failure : CommandError} {hub : Hub} {s' : σ}
    (hrun : (Hub.onBus i.prepare.run {}).run env s = (.finished (.error failure, hub), s')) :
    (Hub.onBus i.run.run {}).run env s = (.finished (.error failure, hub), s') := by
  rw [onBus_run, Program.run_bind, hrun]
  rfl

/-- No command sends a download or restarts a camera before it starts a session, and one that fails before never
does.  A listing and a backup come to no session; a listing reads version data of D400 cameras in normal mode
and firmware status blocks of D400 cameras in recovery mode, and a backup reads the flash of the camera that has
told the serial number. -/
theorem commands_read_before_session :
    (∀ before e after, busCalls i env s = before ++ e :: after → Harmless e.call ∨ Started i env s before) ∧
    (∀ failure hub s', (Hub.onBus i.prepare.run {}).run env s = (.finished (.error failure, hub), s') →
      (Hub.onBus i.run.run {}).run env s = (.finished (.error failure, hub), s') ∧
        ∀ e ∈ busCalls i env s, Harmless e.call) ∧
    (∀ firmware, i = .list firmware →
      (∀ e ∈ busCalls i env s, Harmless e.call) ∧ listTransfers.Permits [] (busCalls i env s)) ∧
    ∀ serial out, i = .backup serial out →
      (∀ e ∈ busCalls i env s, Harmless e.call) ∧ (backupTransfers serial).Permits [] (busCalls i env s) := by
  have hharmless : (∀ before, ¬ Started i env s before) → ∀ e ∈ busCalls i env s, Harmless e.call := by
    intro hnever e he
    obtain ⟨before, after, heq⟩ := List.append_of_mem he
    exact (harmless_or_started env s i heq).resolve_right (hnever before)
  have hreads : i.updates = false → ∀ e ∈ busCalls i env s, Harmless e.call := fun hi =>
    hharmless fun before hstarted => by simp [updates_of_started env s i hstarted] at hi
  refine ⟨fun before e after heq => harmless_or_started env s i heq, fun failure hub s' hrun => ⟨?_, ?_⟩, ?_, ?_⟩
  · exact fails_of_prepare env s i hrun
  · refine hharmless fun before hstarted => ?_
    obtain ⟨session, hub', s'', hrun', -⟩ := hstarted
    cases hrun.symm.trans hrun'
  · rintro firmware rfl
    exact ⟨hreads rfl, (obeys_list firmware).permits (begins_history env _ s)⟩
  · rintro serial out rfl
    exact ⟨hreads rfl, (obeys_backup out).permits (begins_history env _ s)⟩

end Run

/-! ## Two cameras -/

namespace Pair

/-- A D400 in normal mode. -/
def running :
    Device := ⟨0, some { vendor := vendorId, product := 0x0B07, productString? := none, serialString? := some 3 }⟩

/-- A D400 in recovery mode. -/
def waiting :
    Device := ⟨1, some { vendor := vendorId, product := 0x0ADB, productString? := none, serialString? := none }⟩

/-- A bus with both.  Commands to the hardware monitor get no reply, and the firmware status block is too short. -/
def answerBus : (c : BusCall) → Option c.Answer
  | .list => some (.ok [running, waiting])
  | .open d => some (.ok ⟨d.id⟩)
  | .string _ _ => some (.ok [0x75])
  | .configuration _ => some (.ok [[⟨4, vendorSpecific, [⟨0x01, 2⟩, ⟨0x82, 2⟩]⟩]])
  | .autoDetach _ _ | .claim _ _ | .bulkOut _ _ _ _ => some (.ok ())
  | .control _ _ _ => some (.ok [])
  | .bulkIn _ _ _ _ => some (.error .timeout)
  | .close _ => some ()

def world : Environment (bus.sum host) Obliging
  | .inl c, o => (answerBus c, o)
  | .inr c, o => Obliging.answerHost c o

/-- The machine to which they are connected. -/
def machine : Obliging := { camera := Obliging.unit }

def isControl : (bus.sum host).Call → Bool
  | .inl (.control _ _ _) => true
  | _ => false

def isBulkOut : (bus.sum host).Call → Bool
  | .inl (.bulkOut _ _ _ _) => true
  | _ => false

/-- A history, split before its call number `n`. -/
theorem split_at {H : BusHistory} {q : (bus.sum host).Call → Bool} {n : Nat}
    (hn : ((H.drop n).head?.any fun e => q e.call) = true) :
    ∃ e after, H = H.take n ++ e :: after ∧ q e.call = true := by
  have hsplit := List.take_append_drop n H
  cases hdrop : H.drop n with
  | nil => simp [hdrop] at hn
  | cons e after => exact ⟨e, after, hdrop ▸ hsplit.symm, by simpa [hdrop] using hn⟩

end Pair

/-- With two cameras a listing does ask the one in recovery mode for its firmware status block, and a backup
does read the flash of the other. -/
theorem commands_read_before_session_pair :
    (∃ before packet after h t a?, busCalls (.list []) Pair.world Pair.machine =
      before ++ .onBus (.control h packet t) a? :: after ∧
        ∃ d, OpenOn before h d ∧ d.kind? = some ⟨.d400, .recovery⟩) ∧
    ∃ before data after h out t a?, busCalls (.backup "u" "out") Pair.world Pair.machine =
      before ++ .onBus (.bulkOut h out data t) a? :: after ∧ ∃ d, OpenOn before h d ∧ Identified before d "u" := by
  have hlist := ((commands_read_before_session Pair.world Pair.machine (.list [])).2.2.1 [] rfl).2
  have hbackup :=
    ((commands_read_before_session Pair.world Pair.machine (.backup "u" "out")).2.2.2 "u" "out" rfl).2
  constructor
  · let H := busCalls (.list []) Pair.world Pair.machine
    obtain ⟨⟨c, a?⟩, after, hsplit, hcall⟩ : ∃ e after, H = H.take 23 ++ e :: after ∧
        Pair.isControl e.call = true :=
      Pair.split_at (by decide +kernel)
    have hallowed := hlist _ _ _ hsplit
    rcases c with c | c
    · cases c with
      | control h packet t => exact ⟨_, packet, after, h, t, a?, hsplit, hallowed.2⟩
      | _ => cases hcall
    · cases hcall
  · let H := busCalls (.backup "u" "out") Pair.world Pair.machine
    obtain ⟨⟨c, a?⟩, after, hsplit, hcall⟩ : ∃ e after, H = H.take 10 ++ e :: after ∧
        Pair.isBulkOut e.call = true :=
      Pair.split_at (by decide +kernel)
    have hallowed := hbackup _ _ _ hsplit
    rcases c with c | c
    · cases c with
      | bulkOut h out data t => exact ⟨_, data, after, h, out, t, a?, hsplit, hallowed.2⟩
      | _ => cases hcall
    · cases hcall

end Usb

end Reflash
