import Reflash.Proofs.Session.BackupFirst
import Reflash.Proofs.Usb.Refusals
import Reflash.Proofs.Usb.Unsteady

/-!
# Reflash.Proofs.Usb.BackupOnBus — what precedes the restart of a camera on the bus

A session has the command that restarts a camera written only by its one call for that
(`begins_restart_of_isRestart`). By then the flash lies in a file, unless the camera said that it has no
hardware monitor.  A camera that has one says so when it could not be opened, or its interface not be claimed,
and that leaves no trace in the session but a note: the restart opens the camera anew.  So what holds on the bus
is that a backup or a refusal comes first (`backup_or_refusal_before_restart`), and a refusal is enough to have
no backup (`restart_not_always_backed_up`).
-/

namespace Reflash

open Program

namespace Session

variable {config : UpdateConfig} {image : FirmwareImage} {camera : Camera} {before : History}

theorem exchange_mem_kinds {stage : Stage} :
    CallKind.exchange ∈ stage.kinds ↔ ∃ camera identity, stage = .securing camera identity := by
  cases stage <;> simp [Stage.kinds]

/-- An exchange, if it is one, reads the flash. -/
def ReadsFlash : (cameras.sum host).Call → Prop
  | .inl (.exchange _ request _) => ∃ offset size, request = Monitor.flashRead offset size
  | _ => True

theorem readsFlash_of_ofKinds {kinds : List CallKind} (hkinds : .exchange ∉ kinds) (c : (cameras.sum host).Call)
    (hc : ofKinds kinds c) : ReadsFlash c := by
  rcases c with c | c
  · cases c with
    | exchange c request timeout => exact absurd hc hkinds
    | _ => trivial
  · trivial

/-- All that a session asks of a hardware monitor is to read the flash. -/
theorem readsFlash_of_begins {e : Event (cameras.sum host)}
    (hb : (run config image camera).Begins (before ++ [e])) :
    ReadsFlash e.call := by
  by_cases hkind : kindOf e.call = .exchange
  · obtain ⟨h₀, h₁, h₂, stage, -, -, -, hadv, hmem⟩ := stage_of_call hb (by rw [hkind]; decide)
    obtain ⟨c, identity, rfl⟩ := exchange_mem_kinds.mp (hkind ▸ hmem)
    have hsecure : (secure config c identity).Only ReadsFlash :=
      only_secure_of (readsFlash_of_ofKinds (by simp)) (fun offset size _ => ⟨offset, size, rfl⟩) config identity
    exact Program.Only.calls hsecure (Attempt.begins_bind_pure.mp hadv) e (by simp)
  · have hnot : .exchange ∉ [kindOf e.call] := by
      rw [List.mem_singleton]
      exact Ne.symm hkind
    exact readsFlash_of_ofKinds hnot e.call (List.mem_singleton_self _)

/-- Before a camera is restarted it is backed up, or it said that it has no hardware monitor. -/
theorem saved_or_not_offered {c : Camera} {a? : Option (Except LinkError Unit)} {backup : BackupConfig}
    (hbackup : config.backup = some backup)
    (hb : (run config image camera).Begins (before ++ [.asked (.enterRecovery c) a?])) :
    (∃ identity path flash, Flash.Saved camera backup identity path flash before) ∨
      .asked (.openMonitor camera) (some false) ∈ before := by
  obtain ⟨h₀, h₁, h₂, stage, rfl, hnote, hwalk, hadv, hkind⟩ := stage_of_call hb (by simp)
  obtain ⟨camera', identity, rfl⟩ := restart_mem_kinds.mp hkind
  obtain ⟨rfl, -, h₃, h₄, rfl, hidentify, hsecure⟩ := Stage.walk_switching hwalk
  rcases saved_of_secure hbackup hsecure with ⟨path, flash, hsaved⟩ | ⟨-, hnone⟩
  · obtain ⟨-, hswitch⟩ := (once_switchMode camera' _ (Attempt.begins_bind_pure.mp hadv)).of_concat (by simp)
    have hidentify' := (only_identify camera').within hidentify.begins
    have hnote' := only_noteImage.within hnote.begins
    have hsecured := (hsaved.append_left hidentify' (by simp) (by simp)).append_right hswitch (by simp) (by simp)
    exact .inl ⟨identity, path, flash, hsecured.append_left hnote' (by simp) (by simp)⟩
  · obtain ⟨offered, h', rfl, -⟩ := finishes_secure_ok hbackup hsecure
    cases offered with
    | true => simp at hnone
    | false => exact .inr (by simp)

end Session

namespace Usb

open Session

/-- The write of a command that restarts a camera. -/
def IsRestart : (bus.sum host).Call → Prop
  | .inl (.bulkOut _ _ data _) => data.wordAt 4 4 = Monitor.enterRecovery.toNat
  | _ => False

instance : DecidablePred IsRestart
  | .inl (.bulkOut _ _ data _) => inferInstanceAs (Decidable (data.wordAt 4 4 = Monitor.enterRecovery.toNat))
  | .inl .list | .inl (.open _) | .inl (.string _ _) | .inl (.configuration _) | .inl (.autoDetach _ _)
  | .inl (.claim _ _) | .inl (.control _ _ _) | .inl (.bulkIn _ _ _ _) | .inl (.close _) | .inr _ => isFalse id

variable {config : UpdateConfig} {image : FirmwareImage} {camera : Camera} {hub hub' : Hub} {h : History}
  {H before : BusHistory}

theorem begins_restart_of_isRestart {e : Event (bus.sum host)} (hrestart : IsRestart e.call)
    (hb : (hub.onBus (run config image camera)).Begins (before ++ [e])) :
    ∃ h c H₁ H₂ hub', before = H₁ ++ H₂ ∧ CarriedOut Hub.answer hub h H₁ hub' ∧
      (run config image camera).Begins (h ++ [.asked (.enterRecovery c) none]) := by
  obtain ⟨h, call, H₁, H₂, hub', rfl, hcarried, hbegins, hown⟩ := call_of_begins_expand hb
  have hwrites := (only_answer call hub').calls hown e (by simp)
  obtain ⟨data, hdata, hcommand⟩ : ∃ data : Bytes, data.wordAt 4 4 = Monitor.enterRecovery.toNat ∧
      CommandOf call data := by
    unfold IsRestart at hrestart
    split at hrestart
    · rename_i heq
      rw [heq] at hwrites
      exact ⟨_, hrestart, hwrites⟩
    · exact hrestart.elim
  rcases call with call | call
  · cases call with
    | enterRecovery c => exact ⟨h, c, H₁, H₂, hub', rfl, hcarried, hbegins⟩
    | exchange c request timeout =>
      obtain ⟨offset, size, hread⟩ := readsFlash_of_begins hbegins
      obtain rfl : data = request := hcommand
      rw [hread, Monitor.flashRead, Monitor.wordAt_command_opcode] at hdata
      exact absurd hdata (by decide)
    | firmware c =>
      obtain rfl : data = _ := hcommand
      rw [Monitor.wordAt_command_opcode] at hdata
      exact absurd hdata (by decide)
    | _ => exact hcommand.elim
  · exact hcommand.elim

/-- Calls on the host are made as they are. -/
theorem onHost_mem {c : HostCall} {a : c.Answer} (hc : CarriedOut Hub.answer hub h H hub')
    (hmem : .told c (some a) ∈ h) :
    .onHost c (some a) ∈ H := by
  obtain ⟨h₁, h₂, H₁, H₂, H₃, t, t', rfl, rfl, -, hf⟩ := hc.of_mem hmem
  obtain ⟨rfl, -⟩ := Hub.finishes_answer_host.mp hf
  simp

theorem refused_of_not_offered {c : UsbCamera} {endpoints : MonitorEndpoints}
    (hknown : hub.known[camera.id]? = some c) (hendpoints : c.endpoints? = some endpoints)
    (hc : CarriedOut Hub.answer hub h H hub') (hmem : .asked (.openMonitor camera) (some false) ∈ h) :
    Refused c.device endpoints.interface H := by
  obtain ⟨h₁, h₂, H₁, H₂, H₃, t, t', rfl, rfl, hpre, hf⟩ := hc.of_mem hmem
  have hknows : t.Knows camera c.device endpoints :=
    hpre.keeps (P := fun hub => hub.Knows camera c.device endpoints) (fun call hub hk => Hub.knows_answer hk call)
      ⟨c, hknown, rfl, hendpoints⟩
  obtain ⟨c', hknown', hdevice, hendpoints'⟩ := hknows
  rw [Hub.answer, Hub.serve, hknown'] at hf
  obtain ⟨⟨offered, c''⟩, H₄, H₅, rfl, hoffer, hf⟩ := finishes_bind.mp hf
  obtain ⟨-, heq⟩ := finishes_done.mp hf
  obtain ⟨rfl, -⟩ := Prod.mk.inj heq
  rw [← hdevice]
  exact (refused_of_offerMonitor hendpoints' hoffer).mono (by simp)

/-- The restart command is written to a camera only after its backup: the whole flash was read, written to a
file and renamed to its place, all earlier in the session.  Else the camera refused to be opened, or its
hardware monitor to be claimed. -/
theorem backup_or_refusal_before_restart {σ : Type} (env : Environment (bus.sum host) σ) (s : σ)
    {session : Action Unit} {backup : BackupConfig} {c : UsbCamera} {endpoints : MonitorEndpoints}
    (hstart : start config camera image = .ok session) (hbackup : config.backup = some backup)
    (hknown : hub.known[camera.id]? = some c) (hendpoints : c.endpoints? = some endpoints)
    {e : Event (bus.sum host)} {after : BusHistory}
    (heq : (hub.onBus session).history env s = before ++ e :: after) (hrestart : IsRestart e.call) :
    (∃ h H₁ H₂ hub' identity path flash, before = H₁ ++ H₂ ∧ CarriedOut Hub.answer hub h H₁ hub' ∧
      Flash.Saved camera backup identity path flash h ∧ flash.length = backup.flashSize.toNat ∧
      .onHost (.writeFile (Flash.partPath path) flash) (some (.ok ())) ∈ before ∧
      .onHost (.rename (Flash.partPath path) path) (some (.ok ())) ∈ before) ∨
    Refused c.device endpoints.interface before := by
  obtain ⟨-, -, rfl⟩ := start_eq_ok.mp hstart
  have hbegins := begins_history env (hub.onBus (run config image camera)) s
  rw [heq, List.append_cons] at hbegins
  obtain ⟨h, c', H₁, H₂, hub', rfl, hcarried, hb⟩ := begins_restart_of_isRestart hrestart hbegins.of_append
  rcases saved_or_not_offered hbackup hb with ⟨identity, path, flash, hsaved⟩ | hmem
  · obtain ⟨hdumped, pre, kept, post, rfl, hkept, -, -⟩ := id hsaved
    obtain ⟨seconds, note, -, rfl⟩ := Flash.finishes_persist_ok hkept
    refine .inl ⟨_, H₁, H₂, hub', identity, path, flash, rfl, hcarried, hsaved, hdumped.length_eq, ?_, ?_⟩
    · exact List.mem_append_left _ (onHost_mem hcarried (by simp))
    · exact List.mem_append_left _ (onHost_mem hcarried (by simp))
  · exact .inr ((refused_of_not_offered hknown hendpoints hcarried hmem).mono (List.subset_append_left H₁ H₂))

/-! ## An unsteady bus -/

namespace Unsteady

/-- Nobody waits for the camera once it is restarted. -/
def hurried : UpdateConfig := { Obliging.config with recoveryTimeout := 0 }

/-- A session with the camera, after it was listed. -/
def session : BusAction (Unit × Hub) := listed.onBus (run hurried Obliging.image Obliging.unit)

theorem start_hurried :
    start hurried Obliging.unit Obliging.image = .ok (run hurried Obliging.image Obliging.unit) :=
  start_eq_ok.mpr ⟨by decide +kernel, .inr rfl, rfl⟩

/-- Whether a device could not be opened or an interface not be claimed. -/
def isRefusal : Event (bus.sum host) → Bool
  | ⟨.inl (.open _), some (.error _)⟩ | ⟨.inl (.claim _ _), some (.error _)⟩ => true
  | _ => false

def isFileWrite : Event (bus.sum host) → Bool
  | ⟨.inr (.writeFile _ _), _⟩ => true
  | _ => false

/-- A history, split before its call number `n`, if that is the restart. -/
theorem split_at_restart {H : BusHistory} {n : Nat}
    (hn : ((H.drop n).head?.any fun e => IsRestart e.call) = true) :
    ∃ e after, H = H.take n ++ e :: after ∧ IsRestart e.call := by
  have hsplit := List.take_append_drop n H
  cases hdrop : H.drop n with
  | nil => simp [hdrop] at hn
  | cons e after => exact ⟨e, after, hdrop ▸ hsplit.symm, by simpa [hdrop] using hn⟩

end Unsteady

/-- Where nothing is refused, the camera with three bytes of flash is backed up before it is restarted. -/
theorem backup_or_refusal_before_restart_unsteady :
    let H := Unsteady.session.history (Unsteady.world [7, 8, 9]) {}
    ∃ before e after, H = before ++ e :: after ∧ IsRestart e.call ∧
      ∃ (path : String) (flash : Bytes), flash.length = 3 ∧
      .onHost (.writeFile (Flash.partPath path) flash) (some (.ok ())) ∈ before ∧
      .onHost (.rename (Flash.partPath path) path) (some (.ok ())) ∈ before := by
  intro H
  obtain ⟨e, after, hsplit, hrestart⟩ : ∃ e after, H = H.take 38 ++ e :: after ∧ IsRestart e.call :=
    Unsteady.split_at_restart (by decide +kernel)
  refine ⟨_, e, after, hsplit, hrestart, ?_⟩
  rcases backup_or_refusal_before_restart (Unsteady.world [7, 8, 9]) {} Unsteady.start_hurried rfl rfl rfl
    hsplit hrestart with
    ⟨-, -, -, -, -, path, flash, -, -, -, hlength, hkept⟩ | hrefused
  · exact ⟨path, flash, hlength, hkept⟩
  · have hnone : ∀ e ∈ H.take 38, Unsteady.isRefusal e = false := by decide +kernel
    cases hrefused with
    | opening he => cases hnone _ he
    | claiming _ he => cases hnone _ he

/-- A camera that is busy once is restarted without a backup. -/
theorem restart_not_always_backed_up :
    ¬ ∀ (σ : Type) (env : Environment (bus.sum host) σ) (s : σ) (config : UpdateConfig) (image : FirmwareImage)
      (camera : Camera) (session : Action Unit) (backup : BackupConfig) (hub : Hub) (c : UsbCamera)
      (endpoints : MonitorEndpoints) (before after : BusHistory) (e : Event (bus.sum host)),
      start config camera image = .ok session → camera.kind = ⟨.d400, .normal⟩ → config.backup = some backup →
      hub.known[camera.id]? = some c → c.kind = camera.kind → c.endpoints? = some endpoints →
      (hub.onBus session).history env s = before ++ e :: after → IsRestart e.call →
      ∃ path data, .onHost (.writeFile path data) (some (.ok ())) ∈ before ∧
        data.length = backup.flashSize.toNat := by
  intro hbacked
  let busy : Unsteady := { busy := [true] }
  let H := Unsteady.session.history (Unsteady.world [7, 8, 9]) busy
  obtain ⟨e, after, hsplit, hrestart⟩ : ∃ e after, H = H.take 19 ++ e :: after ∧ IsRestart e.call :=
    Unsteady.split_at_restart (by decide +kernel)
  obtain ⟨path, data, he, -⟩ := hbacked Unsteady (Unsteady.world [7, 8, 9]) busy Unsteady.hurried Obliging.image
    Obliging.unit _ Obliging.backup Unsteady.listed Unsteady.camera Unsteady.endpoints _ after e
    Unsteady.start_hurried rfl rfl rfl rfl rfl hsplit hrestart
  have hnone : ∀ e ∈ H.take 19, Unsteady.isFileWrite e = false := by decide +kernel
  cases hnone _ he

end Usb

end Reflash
