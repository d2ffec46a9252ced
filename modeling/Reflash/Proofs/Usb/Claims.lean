import Mathlib.Data.List.Induction
import Reflash.Proofs.Rules
import Reflash.Proofs.Usb.Calls

/-!
# Reflash.Proofs.Usb.Claims — who holds the interface of the hardware monitor

A camera may be asked for anything, in any order.  `holders H` are the handles that hold an interface after the
calls `H`. `monitorRule` lets a handle claim an interface only while no handle holds one, and whatever a camera
in normal mode is asked, it obeys this rule: what it holds between two operations is the handle of the channel
that it keeps (`Stands`, `obeys_operate`).  So no two handles hold the interface of its monitor, and it is not
claimed again once it is kept.
-/

namespace Reflash.Usb

open Program

namespace UsbCamera

/-! ## Operations -/

/-- What a camera can be asked. -/
inductive Operation where
  | serial
  | firmware
  | offerMonitor
  | enterRecovery
  | openControl
  | exchange (request : Bytes) (timeout : Nanos)

/-- The answer to each operation. -/
@[reducible] def Operation.Answer : Operation → Type
  | .serial | .firmware => Except LinkError (Option String)
  | .offerMonitor => Bool
  | .enterRecovery => Except LinkError Unit
  | .openControl => Except LinkError Handle
  | .exchange _ _ => Except LinkError Bytes

abbrev operations : Interface := ⟨Operation, Operation.Answer⟩

/-- One operation, and the camera after it. -/
def operate : (o : operations.Call) → UsbCamera → BusAction (operations.Answer o × UsbCamera)
  | .serial, c => do return (← c.serial, c)
  | .firmware, c => do return (← c.firmware, c)
  | .offerMonitor, c => c.offerMonitor
  | .enterRecovery, c => c.enterRecovery
  | .openControl, c => do return (← c.openControl, c)
  | .exchange request timeout, c => do return (← c.exchange request timeout, c)

end UsbCamera

variable {H : BusHistory} {h : Handle} {c c' : UsbCamera} {m : MonitorChannel} {interface : UInt8}
  {interface? : Option UInt8} {held : List Handle}

/-! ## Holders -/

/-- The handles that hold an interface, after one more call. -/
def hold (held : List Handle) : Event (bus.sum host) → List Handle
  | ⟨.inl (.claim h _), some (.ok _)⟩ => h :: held
  | ⟨.inl (.close h), _⟩ => held.filter (· ≠ h)
  | _ => held

/-- The handles that hold an interface after some calls. -/
def holders (H : BusHistory) : List Handle := H.foldl hold []

/-- A handle may claim the interface, and no other, while no handle holds one. -/
def monitorRule (interface? : Option UInt8) : Rule (bus.sum host) (List Handle) where
  step := hold
  allows held
    | .inl (.claim _ interface) => interface? = some interface ∧ held = []
    | _ => True

/-- The calls that claim nothing and release nothing. -/
def Idle : (bus.sum host).Call → Prop
  | .inl (.claim _ _) | .inl (.close _) => False
  | _ => True

theorem Looking.idle (call : (bus.sum host).Call) (hcall : Looking call) : Idle call := by
  rcases call with call | call
  · cases call <;> trivial
  · trivial

theorem keeps_idle (call : (bus.sum host).Call) (hcall : Idle call) :
    (monitorRule interface?).Keeps (· = held) call := by
  rintro _ rfl
  rcases call with call | call
  · cases call with
    | claim h i => exact hcall.elim
    | close h => exact hcall.elim
    | _ => exact ⟨trivial, fun _ => rfl⟩
  · exact ⟨trivial, fun _ => rfl⟩

theorem obeys_idle {α : Type} {p : BusAction α} (hp : p.Only Idle) :
    p.Obeys (monitorRule interface?) (fun _ held' => held' = held) held :=
  obeys_of_only (hp.mono keeps_idle) rfl

theorem obeys_idle_of_yields {α : Type} {Q : α → Prop} {p : BusAction α} (hp : p.Only Idle) (hy : p.Yields Q) :
    p.Obeys (monitorRule interface?) (fun a held' => held' = held ∧ Q a) held :=
  obeys_of_finishes ((obeys_idle hp).mono fun _ _ _ => trivial) fun _ _ hf =>
    ⟨(obeys_idle hp).of_finishes hf, hy.of_finishes hf⟩

/-- By calls that the rule permits, one handle at most comes to hold an interface. -/
theorem length_holders_le (hH : (monitorRule interface?).Permits [] H) : (holders H).length ≤ 1 := by
  induction H using List.reverseRecOn with
  | nil => decide
  | append_singleton H e ih =>
    have hbefore := ih (hH.of_prefix (List.prefix_append H [e]))
    have hallows := hH H e [] (by simp)
    rw [holders, List.foldl_append] at *
    show (hold (holders H) e).length ≤ 1
    unfold hold
    split
    · rw [show holders H = [] from hallows.2]
      exact Nat.le_refl 1
    · exact Nat.le_trans (List.length_filter_le ..) hbefore
    · exact hbefore

/-- They claim the one interface only. -/
theorem interface_of_permits (hH : (monitorRule interface?).Permits [] H) {a? : Option (Except UsbError Unit)}
    (hmem : .onBus (.claim h interface) a? ∈ H) : interface? = some interface := by
  obtain ⟨before, after, heq⟩ := List.append_of_mem hmem
  exact (hH before _ after heq).1

/-! ## One operation -/

section Operations

variable {o : UsbCamera.Operation}

/-- Offering the monitor and entering recovery mode come to the channel that is kept; after that they claim
nothing and leave the camera as it is. -/
theorem operate_keeping (hnormal : c.kind.mode = .normal) (ho : o = .offerMonitor ∨ o = .enterRecovery) :
    ∃ rest : Except LinkError MonitorChannel × UsbCamera → BusAction (UsbCamera.operations.Answer o × UsbCamera),
      UsbCamera.operate o c = c.monitor.bind rest ∧
        ∀ r, (rest r).Only Idle ∧ (rest r).Yields fun r' => r'.2 = r.2 := by
  rcases ho with rfl | rfl
  · refine ⟨_, rfl, fun ⟨opened, c'⟩ => ?_⟩
    rcases opened with e | m
    · exact ⟨only_bind (only_debug.mpr trivial) fun _ => trivial, yields_bind_of_forall fun _ => rfl⟩
    · exact ⟨trivial, rfl⟩
  · rw [UsbCamera.operate, UsbCamera.enterRecovery, if_neg (by simp [DeviceClass.isRecovery, hnormal])]
    refine ⟨_, rfl, fun ⟨opened, c'⟩ => ?_⟩
    rcases opened with e | m
    · exact ⟨trivial, rfl⟩
    constructor
    · refine only_bind (only_ask.mpr trivial) fun written => ?_
      split
      all_goals try trivial
      all_goals
        refine only_bind (only_ask.mpr trivial) fun read => ?_
        split
        · trivial
        · exact only_bind (only_debug.mpr trivial) fun _ => trivial
    · refine yields_bind_of_forall fun written => ?_
      split
      all_goals try rfl
      all_goals
        refine yields_bind_of_forall fun read => ?_
        split
        · rfl
        · exact yields_bind_of_forall fun _ => rfl

/-- The other operations leave the camera as it is. -/
theorem yields_operate_same (ho : ¬ (o = .offerMonitor ∨ o = .enterRecovery)) (c : UsbCamera) :
    (UsbCamera.operate o c).Yields fun r => r.2 = c := by
  cases o with
  | offerMonitor => exact absurd (.inl rfl) ho
  | enterRecovery => exact absurd (.inr rfl) ho
  | _ => exact yields_bind_of_forall fun _ => rfl

/-! ### In normal mode -/

/-- The handle of the channel that a camera keeps. -/
def UsbCamera.kept (c : UsbCamera) : List Handle := (c.monitor?.map (·.handle)).toList

theorem UsbCamera.kept_of_none (hnone : c.monitor? = none) : c.kept = [] := by
  rw [kept, hnone]
  rfl

/-- The interface of a camera's hardware monitor. -/
def UsbCamera.monitorInterface? (c : UsbCamera) : Option UInt8 := c.endpoints?.map (·.interface)

/-- How a camera stands between two operations: it is as it was opened but for the channel that it keeps, and
the handle of this channel is all that holds an interface. -/
structure Stands (c c' : UsbCamera) (held : List Handle) : Prop where
  alike : c' = { c with monitor? := c'.monitor? }
  held : held = c'.kept

theorem Stands.kind_eq (hs : Stands c c' held) : c'.kind = c.kind := by rw [hs.alike]

theorem Stands.device_eq (hs : Stands c c' held) : c'.device = c.device := by rw [hs.alike]

theorem Stands.endpoints_eq (hs : Stands c c' held) : c'.endpoints? = c.endpoints? := by rw [hs.alike]

theorem obeys_claim :
    (c.claim interface).Obeys (monitorRule (some interface)) (fun r held => held = r.toOption.toList) [] := by
  refine ⟨trivial, fun opened => ?_⟩
  rcases opened with e | handle
  · rfl
  refine ⟨trivial, fun _ => ⟨⟨rfl, rfl⟩, fun claimed => ?_⟩⟩
  rcases claimed with e | u
  · exact ⟨trivial, fun _ => rfl⟩
  · exact ⟨trivial, fun _ => rfl⟩

theorem obeys_openMonitor : c.openMonitor.Obeys (monitorRule c.monitorInterface?)
    (fun r held => held = (r.toOption.map (·.handle)).toList) [] := by
  unfold UsbCamera.openMonitor
  split
  · rfl
  · rename_i endpoints hendpoints
    rw [UsbCamera.monitorInterface?, hendpoints]
    refine obeys_bind obeys_claim fun claimed held hheld => ?_
    rcases claimed with e | handle
    · exact hheld
    · exact hheld

/-- A channel that is not kept yet is opened, and kept from then on. -/
theorem obeys_monitor :
    c.monitor.Obeys (monitorRule c.monitorInterface?) (fun r held => Stands c r.2 held) c.kept := by
  unfold UsbCamera.monitor
  split
  · exact ⟨rfl, rfl⟩
  · rename_i hnone
    rw [UsbCamera.kept_of_none hnone]
    refine obeys_bind obeys_openMonitor fun opened held hheld => ?_
    rcases opened with e | m
    · exact ⟨rfl, hheld.trans (UsbCamera.kept_of_none hnone).symm⟩
    · exact ⟨rfl, hheld⟩

theorem obeys_firmware_of_normal (hnormal : c.kind.mode = .normal) :
    c.firmware.Obeys (monitorRule c.monitorInterface?) (fun _ held => held = c.kept) c.kept := by
  unfold UsbCamera.firmware
  split
  · split
    · exact obeys_idle (only_version trivial trivial)
    · rename_i hnone
      rw [UsbCamera.kept_of_none hnone]
      refine obeys_bind obeys_openMonitor fun opened held hheld => ?_
      rcases opened with e | m
      · exact ⟨trivial, fun _ => hheld⟩
      · obtain rfl : held = [m.handle] := hheld
        -- The channel is closed again, and with it goes the interface.
        refine obeys_bind (obeys_idle (only_version trivial trivial)) fun version held hheld =>
          ⟨trivial, fun _ => ?_⟩
        show held.filter (· ≠ m.handle) = []
        simp [hheld]
  · rename_i hkind
    rw [hkind] at hnormal
    cases hnormal
  · rfl

theorem idle_exchange {request : Bytes} {timeout : Nanos} : (c.exchange request timeout).Only Idle := by
  unfold UsbCamera.exchange
  split
  · exact only_command trivial trivial
  · trivial

/-- Whatever a camera in normal mode is asked, it claims by the rule, and only the channel that it keeps holds
an interface afterwards. -/
theorem obeys_operate (hnormal : c.kind.mode = .normal) (o : UsbCamera.Operation) :
    (UsbCamera.operate o c).Obeys (monitorRule c.monitorInterface?) (fun r held => Stands c r.2 held) c.kept := by
  have hkeeping (ho : o = .offerMonitor ∨ o = .enterRecovery) :
      (UsbCamera.operate o c).Obeys (monitorRule c.monitorInterface?)
      (fun r held => Stands c r.2 held) c.kept := by
    obtain ⟨rest, heq, hrest⟩ := operate_keeping hnormal ho
    rw [heq]
    refine obeys_bind obeys_monitor fun r held hs => ?_
    refine (obeys_idle_of_yields (hrest r).1 (hrest r).2).mono fun r' held' hr => ?_
    rw [hr.1, hr.2]
    exact hs
  cases o with
  | offerMonitor => exact hkeeping (.inl rfl)
  | enterRecovery => exact hkeeping (.inr rfl)
  | serial =>
    exact obeys_bind (obeys_idle ((only_serial_of_normal hnormal).mono Looking.idle)) fun _ _ hheld =>
      ⟨rfl, hheld⟩
  | firmware => exact obeys_bind (obeys_firmware_of_normal hnormal) fun _ _ hheld => ⟨rfl, hheld⟩
  | openControl =>
    rw [UsbCamera.operate, UsbCamera.openControl, if_neg (by simp [DeviceClass.isRecovery, hnormal])]
    exact ⟨rfl, rfl⟩
  | exchange request timeout => exact obeys_bind (obeys_idle idle_exchange) fun _ _ hheld => ⟨rfl, hheld⟩

/-- A camera that keeps a channel claims nothing and releases nothing, and stays as it is. -/
theorem idle_operate (hnormal : c.kind.mode = .normal) (hm : c.monitor? = some m) (o : UsbCamera.Operation) :
    (UsbCamera.operate o c).Obeys (.always Idle) (fun r _ => r.2 = c) () := by
  have hkeeping (ho : o = .offerMonitor ∨ o = .enterRecovery) :
      (UsbCamera.operate o c).Obeys (.always Idle) (fun r _ => r.2 = c) () := by
    obtain ⟨rest, heq, hrest⟩ := operate_keeping hnormal ho
    rw [heq, UsbCamera.monitor, hm]
    exact obeys_of_finishes (obeys_always (hrest (.ok m, c)).1) fun _ _ hf => (hrest (.ok m, c)).2.of_finishes hf
  cases o with
  | offerMonitor => exact hkeeping (.inl rfl)
  | enterRecovery => exact hkeeping (.inr rfl)
  | serial => exact obeys_bind (obeys_always ((only_serial_of_normal hnormal).mono Looking.idle)) fun _ _ _ => rfl
  | firmware =>
    refine obeys_bind (obeys_always ?_) fun _ _ _ => rfl
    unfold UsbCamera.firmware
    split
    · rw [hm]
      exact only_version trivial trivial
    · rename_i hkind
      rw [hkind] at hnormal
      cases hnormal
    · trivial
  | openControl =>
    rw [UsbCamera.operate, UsbCamera.openControl, if_neg (by simp [DeviceClass.isRecovery, hnormal])]
    rfl
  | exchange request timeout => exact obeys_bind (obeys_always idle_exchange) fun _ _ _ => rfl

/-! ### In recovery mode -/

/-- Of the interfaces, only that of DFU is claimed. -/
def ClaimsDfu : (bus.sum host).Call → Prop
  | .inl (.claim _ interface) => interface = 0
  | _ => True

theorem Looking.claimsDfu (call : (bus.sum host).Call) (hcall : Looking call) : ClaimsDfu call := by
  rcases call with call | call
  · cases call <;> trivial
  · trivial

theorem Taking.claimsDfu (call : (bus.sum host).Call) (hcall : Taking dfuInterface call) :
    ClaimsDfu call := by
  rcases call with call | call
  · cases call with
    | claim h interface => exact hcall
    | _ => trivial
  · trivial

/-- A camera in recovery mode claims the DFU interface and no other, and stays as it is. -/
theorem claimsDfu_operate (hrecovery : c.kind.mode = .recovery) (hnone : c.endpoints? = none)
    (hclosed : c.monitor? = none) (o : UsbCamera.Operation) :
    (UsbCamera.operate o c).Obeys (.always ClaimsDfu) (fun r _ => r.2 = c) () := by
  have hif : c.kind.isRecovery = true := by simp [DeviceClass.isRecovery, hrecovery]
  cases o with
  | serial =>
    have hserial : c.serial.Only ClaimsDfu :=
      only_serial Taking.claimsDfu (fun _ _ => trivial) (fun _ _ => trivial) Looking.claimsDfu
    exact obeys_bind (obeys_always hserial) fun _ _ _ => rfl
  | firmware =>
    have hfirmware : c.firmware.Only ClaimsDfu :=
      only_firmware_of_recovery Taking.claimsDfu (fun _ _ => trivial) (fun _ _ => trivial) hrecovery
    exact obeys_bind (obeys_always hfirmware) fun _ _ _ => rfl
  | offerMonitor =>
    rw [UsbCamera.operate, UsbCamera.offerMonitor, UsbCamera.monitor, hclosed]
    dsimp only
    rw [UsbCamera.openMonitor, hnone]
    exact ⟨trivial, fun _ => rfl⟩
  | enterRecovery =>
    rw [UsbCamera.operate, UsbCamera.enterRecovery, if_pos hif]
    rfl
  | openControl =>
    rw [UsbCamera.operate, UsbCamera.openControl, if_pos hif]
    exact obeys_bind (obeys_always ((only_claim c _).mono Taking.claimsDfu)) fun _ _ _ => rfl
  | exchange request timeout =>
    rw [UsbCamera.operate, UsbCamera.exchange, hclosed]
    rfl

/-! ### Claims and their answers -/

/-- A claim was granted. -/
def ClaimGranted (H : BusHistory) : Prop := ∃ h interface, .onBus (.claim h interface) (some (.ok ())) ∈ H

/-- A claim was refused. -/
def ClaimRefused (H : BusHistory) : Prop := ∃ h interface e, .onBus (.claim h interface) (some (.error e)) ∈ H

/-- Nothing is claimed in some calls. -/
def Unclaimed (H : BusHistory) : Prop := ∀ h interface a?, .onBus (.claim h interface) a? ∉ H

variable {H' : BusHistory} {d : Device} {holder? : Option Handle} {a : UsbCamera.operations.Answer o}

theorem unclaimed_of_only {α : Type} {p : BusAction α} (hp : p.Only Idle) (hb : p.Begins H) : Unclaimed H :=
  fun _ _ _ hmem => hp.calls hb _ hmem

theorem ClaimTried.holder_of_granted (ht : ClaimTried d interface H holder?) (hH' : Unclaimed H')
    (hg : ClaimGranted (H ++ H')) :
    ∃ h, holder? = some h := by
  obtain ⟨h, i, hmem⟩ := hg
  have hmem := (List.mem_append.mp hmem).resolve_right (hH' _ _ _)
  cases ht with
  | granted h => exact ⟨h, rfl⟩
  | _ => simp at hmem

theorem ClaimTried.none_of_refused (ht : ClaimTried d interface H holder?) (hH' : Unclaimed H')
    (hr : ClaimRefused (H ++ H')) :
    holder? = none := by
  obtain ⟨h, i, e, hmem⟩ := hr
  have hmem := (List.mem_append.mp hmem).resolve_right (hH' _ _ _)
  cases ht with
  | granted h => simp at hmem
  | _ => rfl

/-- Where no channel is kept, one that is to be kept is opened first. -/
theorem finishes_keeping (hnormal : c.kind.mode = .normal) (ho : o = .offerMonitor ∨ o = .enterRecovery)
    (hnone : c.monitor? = none) (hf : (UsbCamera.operate o c).Finishes H (a, c')) :
    ∃ opened H₁ H₂, H = H₁ ++ H₂ ∧ c.openMonitor.Finishes H₁ opened ∧ Unclaimed H₂ ∧
      c' = { c with monitor? := opened.toOption } := by
  obtain ⟨rest, heq, hrest⟩ := operate_keeping hnormal ho
  rw [heq] at hf
  obtain ⟨⟨opened, c''⟩, H₁, H₂, rfl, hmonitor, hend⟩ := finishes_bind.mp hf
  obtain ⟨hopen, rfl⟩ := finishes_monitor hnone hmonitor
  exact ⟨opened, H₁, H₂, rfl, hopen, unclaimed_of_only (hrest _).1 hend.begins, (hrest _).2.of_finishes hend⟩

theorem exists_monitor_of_granted (hnormal : c.kind.mode = .normal) (ho : o = .offerMonitor ∨ o = .enterRecovery)
    (hf : (UsbCamera.operate o c).Finishes H (a, c')) (hg : ClaimGranted H) : ∃ m, c'.monitor? = some m := by
  cases hm : c.monitor? with
  | some m =>
    have hsame : c' = c := ((idle_operate hnormal hm o).yields fun _ _ => id).of_finishes hf
    exact ⟨m, by rw [hsame, hm]⟩
  | none =>
    obtain ⟨opened, H₁, H₂, rfl, hopen, hunclaimed, rfl⟩ := finishes_keeping hnormal ho hm hf
    rcases finishes_openMonitor hopen with ⟨-, rfl, -⟩ | ⟨endpoints, -, ht⟩
    · obtain ⟨h, i, hmem⟩ := hg
      exact absurd hmem (hunclaimed h i _)
    · obtain ⟨h, hholder⟩ := ht.holder_of_granted hunclaimed hg
      obtain ⟨m, hopened, -⟩ := Option.map_eq_some_iff.mp hholder
      exact ⟨m, hopened⟩

theorem same_of_refused (hnormal : c.kind.mode = .normal) (hf : (UsbCamera.operate o c).Finishes H (a, c'))
    (hr : ClaimRefused H) : c.monitor? = none ∧ c' = c := by
  cases hm : c.monitor? with
  | some m =>
    have hidle : (UsbCamera.operate o c).Only Idle := (idle_operate hnormal hm o).only fun _ _ => id
    obtain ⟨h, i, e, hmem⟩ := hr
    exact absurd hmem (unclaimed_of_only hidle hf.begins h i _)
  | none =>
    refine ⟨rfl, ?_⟩
    by_cases ho : o = .offerMonitor ∨ o = .enterRecovery
    · obtain ⟨opened, H₁, H₂, rfl, hopen, hunclaimed, rfl⟩ := finishes_keeping hnormal ho hm hf
      have hopened : opened.toOption = none := by
        rcases finishes_openMonitor hopen with ⟨-, -, hopened⟩ | ⟨endpoints, -, ht⟩
        · exact hopened
        · exact Option.map_eq_none_iff.mp (ht.none_of_refused hunclaimed hr)
      rw [hopened, ← hm]
    · exact (yields_operate_same ho c).of_finishes hf

/-- The operations that work with the hardware monitor, by the line of the camera. -/
def UsbCamera.Operation.NeedsMonitor (line : ProductLine) : UsbCamera.Operation → Prop
  | .offerMonitor | .enterRecovery => True
  | .firmware => line = .d400
  | _ => False

/-- An operation that works with the monitor begins with an attempt to claim its interface if no channel is
kept. -/
theorem exists_claimTried {endpoints : MonitorEndpoints} (hnormal : c.kind.mode = .normal)
    (hnone : c.monitor? = none) (hneeds : o.NeedsMonitor c.kind.line) (hendpoints : c.endpoints? = some endpoints)
    (hf : (UsbCamera.operate o c).Finishes H (a, c')) :
    ∃ H₁ holder?, H₁ <+: H ∧ ClaimTried c.device endpoints.interface H₁ holder? := by
  obtain ⟨opened, H₁, hprefix, hopen⟩ : ∃ opened H₁, H₁ <+: H ∧ c.openMonitor.Finishes H₁ opened := by
    have hkeeping (ho : o = .offerMonitor ∨ o = .enterRecovery) : ∃ opened H₁, H₁ <+: H ∧
        c.openMonitor.Finishes H₁ opened := by
      obtain ⟨opened, H₁, H₂, rfl, hopen, -⟩ := finishes_keeping hnormal ho hnone hf
      exact ⟨opened, H₁, List.prefix_append .., hopen⟩
    cases o with
    | offerMonitor => exact hkeeping (.inl rfl)
    | enterRecovery => exact hkeeping (.inr rfl)
    | firmware =>
      have hkind : c.kind = ⟨.d400, .normal⟩ := by
        rw [← hnormal, ← show c.kind.line = .d400 from hneeds]
      obtain ⟨version, H₁, H₂, rfl, hversion, -⟩ := finishes_bind.mp hf
      rw [UsbCamera.firmware, hkind, hnone] at hversion
      obtain ⟨opened, H₃, H₄, rfl, hopen, -⟩ := finishes_bind.mp hversion
      exact ⟨opened, H₃, by simp, hopen⟩
    | _ => exact hneeds.elim
  rcases finishes_openMonitor hopen with ⟨hnone', -, -⟩ | ⟨endpoints', hendpoints', ht⟩
  · rw [hendpoints] at hnone'
    cases hnone'
  · obtain rfl : endpoints = endpoints' := Option.some.inj (hendpoints.symm.trans hendpoints')
    exact ⟨H₁, _, hprefix, ht⟩

end Operations

/-! ## Any operations -/

section Sequences

variable {α : Type} {p : Program UsbCamera.operations α} {ops : List (Event UsbCamera.operations)}

theorem stands_operate (hnormal : c.kind.mode = .normal) (hs : Stands c c' held) (o : UsbCamera.Operation) :
    (UsbCamera.operate o c').Obeys (monitorRule c.monitorInterface?) (fun r held' => Stands c r.2 held') held := by
  have hinterface : c'.monitorInterface? = c.monitorInterface? := congrArg (Option.map _) hs.endpoints_eq
  rw [hs.held, ← hinterface]
  refine (obeys_operate (hs.kind_eq ▸ hnormal) o).mono fun r held' hs' => ⟨?_, hs'.held⟩
  rw [hs'.alike, hs.alike]

theorem obeys_expand_operate (hnormal : c.kind.mode = .normal) : (p.expand UsbCamera.operate c).Obeys
    (monitorRule c.monitorInterface?) (fun r held => Stands c r.2 held) c.kept :=
  (obeys_expand (fun _ c' held => Stands c c' held) (obeys_always (only_true p))
    (fun o _ _ _ hs _ => stands_operate hnormal hs o) ⟨rfl, rfl⟩).mono fun _ _ ⟨_, _, hs⟩ => hs

theorem stands_of_carriedOut {c₀ : UsbCamera} (hnormal : c₀.kind.mode = .normal)
    (hc : CarriedOut UsbCamera.operate c ops H c') (hs : Stands c₀ c held) : Stands c₀ c' (H.foldl hold held) := by
  induction hc generalizing held with
  | nil c => exact hs
  | cons hf _ ih =>
    rw [List.foldl_append]
    exact ih ((stands_operate hnormal hs _).of_finishes hf)

section Unchanged

variable {P : (bus.sum host).Call → Prop}
  (hstep : ∀ o, (UsbCamera.operate o c).Obeys (.always P) (fun r _ => r.2 = c) ())

include hstep

/-- A camera that no operation changes keeps to the footprint of its operations. -/
theorem only_expand_operate : (p.expand UsbCamera.operate c).Only P := by
  have hobeys : (p.expand UsbCamera.operate c).Obeys (.always P) _ () :=
    obeys_expand (fun _ c' _ => c' = c) (obeys_always (only_true p)) (fun o _ _ _ hsame _ => hsame ▸ hstep o) rfl
  exact hobeys.only fun _ _ => id

theorem eq_of_carriedOut (hc : CarriedOut UsbCamera.operate c ops H c') : c' = c := by
  have hkeeps : ∀ o s, s = c → (UsbCamera.operate o s).Yields fun r => r.2 = c := fun o s hsame =>
    hsame ▸ (hstep o).yields fun _ _ => id
  have hkept := hc.keeps hkeeps rfl
  exact hkept

end Unchanged

end Sequences

/-- The calls that claim no interface. -/
def Unclaiming : (bus.sum host).Call → Prop
  | .inl (.claim _ _) => False
  | _ => True

theorem Idle.unclaiming (call : (bus.sum host).Call) (hcall : Idle call) : Unclaiming call := by
  rcases call with call | call
  · cases call <;> trivial
  · trivial

/-- What an operation does about the monitor of a camera that was opened as `c`, which it
turns from `c₁` into `c₂`. -/
structure Operated (d : Device) (kind : DeviceClass) (c c₁ c₂ : UsbCamera) (o : UsbCamera.Operation)
    (H : BusHistory) : Prop where
  /-- When an operation that keeps the channel has been granted its claim, nothing is claimed any more. -/
  settled : o = .offerMonitor ∨ o = .enterRecovery → ClaimGranted H →
    ∀ {α : Type} (p : Program UsbCamera.operations α), (p.expand UsbCamera.operate c₂).Only Unclaiming
  /-- When a claim has been refused, no channel was kept and none is now. -/
  unkept : ClaimRefused H → c₁.monitor? = none ∧ c₂ = c₁
  /-- Without a channel, an operation that works with the monitor tries to claim it. -/
  tried : c₁.monitor? = none → o.NeedsMonitor kind.line → ∀ endpoints, c.endpoints? = some endpoints →
    ∃ H₁ holder?, H₁ <+: H ∧ ClaimTried d endpoints.interface H₁ holder?

/-- What holds of a camera in normal mode that was opened as `c`, whatever it is asked. -/
structure ClaimsOnce (d : Device) (kind : DeviceClass) (c : UsbCamera) : Prop where
  /-- At no time do two handles hold an interface, … -/
  single : ∀ {α : Type} (p : Program UsbCamera.operations α) H, (p.expand UsbCamera.operate c).Begins H →
    (holders H).length ≤ 1
  /-- … and the interface is that of the monitor. -/
  own : ∀ {α : Type} (p : Program UsbCamera.operations α) H, (p.expand UsbCamera.operate c).Begins H →
    ∀ h interface a?, .onBus (.claim h interface) a? ∈ H → c.monitorInterface? = some interface
  /-- Between two operations only the channel that is kept holds it. -/
  kept : ∀ ops H c₁, CarriedOut UsbCamera.operate c ops H c₁ → holders H = c₁.kept
  operated : ∀ ops H c₁, CarriedOut UsbCamera.operate c ops H c₁ →
    ∀ o H' a c₂, (UsbCamera.operate o c₁).Finishes H' (a, c₂) → Operated d kind c c₁ c₂ o H'

/-- What holds of a camera in recovery mode that was opened as `c`, whatever it is asked. -/
structure ClaimsDfuOnly (c : UsbCamera) : Prop where
  monitorless : c.endpoints? = none
  own : ∀ {α : Type} (p : Program UsbCamera.operations α) H, (p.expand UsbCamera.operate c).Begins H →
    ∀ h interface a?, .onBus (.claim h interface) a? ∈ H → interface = 0
  same : ∀ ops H c₁, CarriedOut UsbCamera.operate c ops H c₁ → c₁ = c ∧ c₁.monitor? = none

section Opened

variable {descriptor : Descriptor} {kind : DeviceClass}

theorem operated_of_stands {c₁ c₂ : UsbCamera} {o : UsbCamera.Operation}
    {a : UsbCamera.operations.Answer o} {d : Device} (hopened : OpenedAs d descriptor kind c)
    (hnormal : kind.mode = .normal) (hs : Stands c c₁ held) (hf : (UsbCamera.operate o c₁).Finishes H (a, c₂)) :
    Operated d kind c c₁ c₂ o H := by
  obtain ⟨rfl, -, rfl, -, -⟩ := hopened
  have hnormal₁ : c₁.kind.mode = .normal := hs.kind_eq ▸ hnormal
  refine ⟨fun ho hg α p => ?_, same_of_refused hnormal₁ hf, fun hnone hneeds endpoints hendpoints => ?_⟩
  · obtain ⟨m, hm⟩ := exists_monitor_of_granted hnormal₁ ho hf hg
    have hs₂ := (stands_operate hnormal hs o).of_finishes hf
    have hnormal₂ : c₂.kind.mode = .normal := hs₂.kind_eq ▸ hnormal
    exact (only_expand_operate (idle_operate hnormal₂ hm)).mono Idle.unclaiming
  · have htried := exists_claimTried hnormal₁ hnone (hs.kind_eq ▸ hneeds) (hs.endpoints_eq.trans hendpoints) hf
    exact hs.device_eq ▸ htried

theorem claimsOnce_of_opened {d : Device} (hopened : OpenedAs d descriptor kind c)
    (hnormal : kind.mode = .normal) : ClaimsOnce d kind c := by
  have hnormal' : c.kind.mode = .normal := hopened.classed ▸ hnormal
  have hnone : c.kept = [] := UsbCamera.kept_of_none hopened.closed
  have hpermits : ∀ {α : Type} (p : Program UsbCamera.operations α) H, (p.expand UsbCamera.operate c).Begins H →
      (monitorRule c.monitorInterface?).Permits [] H := fun p H hb =>
    hnone ▸ (obeys_expand_operate hnormal').permits hb
  have hstands : ∀ ops H c₁, CarriedOut UsbCamera.operate c ops H c₁ → Stands c c₁ (holders H) :=
    fun ops H c₁ hc => stands_of_carriedOut hnormal' hc ⟨rfl, hnone.symm⟩
  exact
    { single := fun p H hb => length_holders_le (hpermits p H hb)
      own := fun p H hb _ _ _ hmem => interface_of_permits (hpermits p H hb) hmem
      kept := fun ops H c₁ hc => (hstands ops H c₁ hc).held
      operated := fun ops H c₁ hc _ _ _ _ hf => operated_of_stands hopened hnormal (hstands ops H c₁ hc) hf }

theorem claimsDfuOnly_of_opened {d : Device} (hopened : OpenedAs d descriptor kind c)
    (hrecovery : kind.mode = .recovery) : ClaimsDfuOnly c := by
  have hnone : c.endpoints? = none := hopened.monitorless hrecovery
  have hstep := claimsDfu_operate (hopened.classed ▸ hrecovery) hnone hopened.closed
  refine ⟨hnone, fun p H hb h interface a? hmem => ?_, fun ops H c₁ hc => ?_⟩
  · exact (only_expand_operate hstep).calls hb _ hmem
  · obtain rfl := eq_of_carriedOut hstep hc
    exact ⟨rfl, hopened.closed⟩

end Opened

/-- The interface of its hardware monitor is claimed by a camera at most once at a time.  Whatever a camera in
normal mode is asked and whatever the bus answers, at no time do two handles hold an interface, and the
interface is that of the monitor. Between two operations only the channel that the camera keeps holds it.  When
an operation that keeps the channel has been granted its claim, nothing is claimed any more; when a claim has
been refused, no channel was kept and none is now, and the next operation that works with the monitor tries
again.  In recovery mode a camera knows no monitor, never keeps a channel, and claims the DFU interface only.  A
listing claims nothing. -/
theorem monitor_is_claimed_once {d : Device} {descriptor : Descriptor} {kind : DeviceClass}
    {H₀ : BusHistory} {c : UsbCamera} (hlisted : (UsbCamera.ofDevice d descriptor kind).Finishes H₀ (.ok c)) :
    (kind.mode = .normal → ClaimsOnce d kind c) ∧ (kind.mode = .recovery → ClaimsDfuOnly c) ∧
      Hub.listCameras.Only Unclaiming := by
  obtain ⟨e, -, herror⟩ | ⟨c', H, -, -, hok, hopened⟩ := finishes_ofDevice hlisted
  · cases herror
  obtain rfl := Except.ok.inj hok
  exact ⟨claimsOnce_of_opened hopened, claimsDfuOnly_of_opened hopened,
    only_listCameras.mono fun call hcall => Idle.unclaiming call hcall.idle⟩

/-! ## A camera that is in use -/

namespace InUse

/-- A D400 in normal mode. -/
def descriptor : Descriptor :=
  { vendor := vendorId, product := 0x0B07, productString? := none, serialString? := none }

def device : Device := ⟨0, some descriptor⟩

/-- A bus that numbers its handles.  Of the claims it refuses that of the handle 2. -/
def world : Environment (bus.sum host) Nat
  | .inl (.open _), n => (some (.ok ⟨n⟩), n + 1)
  | .inl (.configuration _), n => (some (.ok [[⟨4, vendorSpecific, [⟨0x01, 2⟩, ⟨0x82, 2⟩]⟩]]), n)
  | .inl (.autoDetach _ _), n => (some (.error .notSupported), n)
  | .inl (.claim h _), n => (some (if h.id = 2 then .error .busy else .ok ()), n)
  | .inl (.bulkOut _ _ _ _), n => (some (.ok ()), n)
  | .inl (.bulkIn _ _ _ _), n => (some (.error .timeout), n)
  | .inl (.close _), n => (some (), n)
  | .inr (.log _), n => (some (), n)
  | _, n => (none, n)

/-- The camera as it was opened. -/
def camera : UsbCamera where
  device := device
  handle := ⟨0⟩
  descriptor := descriptor
  kind := ⟨.d400, .normal⟩
  name := "Intel RealSense D400"
  endpoints? := some ⟨4, 0x01, 0x82⟩

theorem opened : (UsbCamera.ofDevice device descriptor ⟨.d400, .normal⟩).Finishes
    ((UsbCamera.ofDevice device descriptor ⟨.d400, .normal⟩).history world 0) (.ok camera) :=
  finishes_history (by decide +kernel)

/-- The version, the monitor twice, and recovery mode. -/
def questions : Program UsbCamera.operations Unit := do
  let _ ← @perform UsbCamera.operations .firmware
  let _ ← @perform UsbCamera.operations .offerMonitor
  let _ ← @perform UsbCamera.operations .offerMonitor
  let _ ← @perform UsbCamera.operations .enterRecovery

/-- A claim, and whether it was granted. -/
def claim? : Event (bus.sum host) → Option (Nat × Bool)
  | ⟨.inl (.claim h _), some answer⟩ => some (h.id, answer.toBool)
  | _ => none

end InUse

open InUse in
/-- The version is read over a channel that is closed again; of the two attempts to keep one the first is
refused, and after the second there is no other. -/
theorem monitor_is_claimed_once_inUse :
    let H := (questions.expand UsbCamera.operate camera).history world 1
    H.filterMap claim? = [(1, true), (2, false), (3, true)] ∧ (holders H).length ≤ 1 ∧
    (∃ H' a c, (UsbCamera.operate .offerMonitor camera).Finishes H' (a, c) ∧ ClaimRefused H' ∧ c = camera) ∧
    ∃ H' a c, (UsbCamera.operate .offerMonitor camera).Finishes H' (a, c) ∧ ClaimGranted H' ∧
      ∀ {α : Type} (p : Program UsbCamera.operations α), (p.expand UsbCamera.operate c).Only Unclaiming := by
  intro H
  have honce : ClaimsOnce device ⟨.d400, .normal⟩ camera := (monitor_is_claimed_once opened).1 rfl
  refine ⟨by decide +kernel, honce.single questions H (begins_history world _ 1), ?_, ?_⟩
  · have hf : (UsbCamera.operate .offerMonitor camera).Finishes
        ((UsbCamera.operate .offerMonitor camera).history world 2) (false, camera) := finishes_history rfl
    have hrefused : ClaimRefused ((UsbCamera.operate .offerMonitor camera).history world 2) :=
      ⟨⟨2⟩, 4, .busy, List.mem_of_getElem? (i := 2) rfl⟩
    exact ⟨_, _, _, hf, hrefused, ((honce.operated _ _ _ (.nil camera) _ _ _ _ hf).unkept hrefused).2⟩
  · have hf : (UsbCamera.operate .offerMonitor camera).Finishes
        ((UsbCamera.operate .offerMonitor camera).history world 3)
        (true, { camera with monitor? := some ⟨⟨3⟩, 0x01, 0x82⟩ }) := finishes_history rfl
    have hgranted : ClaimGranted ((UsbCamera.operate .offerMonitor camera).history world 3) :=
      ⟨⟨3⟩, 4, List.mem_of_getElem? (i := 2) rfl⟩
    exact ⟨_, _, _, hf, hgranted, (honce.operated _ _ _ (.nil camera) _ _ _ _ hf).settled (.inl rfl) hgranted⟩

end Reflash.Usb
