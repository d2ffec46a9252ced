import Reflash.Proofs.Usb.Calls

/-!
# Reflash.Proofs.Usb.Endpoints — where the hardware monitor of a camera is reached

A setting has room for the hardware monitor if it is vendor-specific and has a bulk endpoint in each direction
(`Setting.HasPair`).  Of all settings the first one of this kind is taken, and of its endpoints the first bulk
one in each direction (`MonitorEndpoints.find?_eq_some_iff`): what a setting lacks is not looked for in another.
What the listing of a camera took is what its hardware monitor is opened on (`first_pair_is_taken`).
-/

namespace Reflash.Usb

open Program

/-! ## First elements -/

/-- The first element of a list that has a property. -/
def FirstWith {α : Type} (P : α → Prop) (a : α) (l : List α) : Prop :=
  ∃ before after, l = before ++ a :: after ∧ P a ∧ ∀ b ∈ before, ¬ P b

section FirstWith

variable {α : Type} {P : α → Prop} {p : α → Bool} {a : α} {l : List α}

theorem FirstWith.mem (h : FirstWith P a l) : a ∈ l := by
  obtain ⟨before, after, rfl, -⟩ := h
  simp

theorem FirstWith.holds (h : FirstWith P a l) : P a := by
  obtain ⟨before, after, -, ha, -⟩ := h
  exact ha

theorem find?_eq_some_iff_firstWith (hp : ∀ a, p a = true ↔ P a) : l.find? p = some a ↔ FirstWith P a l := by
  rw [List.find?_eq_some_iff_append]
  constructor
  · rintro ⟨ha, before, after, hl, hbefore⟩
    refine ⟨before, after, hl, (hp a).mp ha, fun b hb hPb => ?_⟩
    simpa [(hp b).mpr hPb] using hbefore b hb
  · rintro ⟨before, after, hl, ha, hbefore⟩
    refine ⟨(hp a).mpr ha, before, after, hl, fun b hb => ?_⟩
    have hnot : p b ≠ true := fun h => hbefore b hb ((hp b).mp h)
    simpa using hnot

theorem exists_firstWith (ha : a ∈ l) (hP : P a) : ∃ b, FirstWith P b l := by
  classical
  cases hfind : l.find? (fun b => decide (P b)) with
  | some b => exact ⟨b, (find?_eq_some_iff_firstWith (by simp)).mp hfind⟩
  | none => exact absurd hP (by simpa using List.find?_eq_none.mp hfind a ha)

end FirstWith

/-! ## Endpoints -/

/-- How an endpoint transfers. -/
inductive TransferKind where
  | control
  | isochronous
  | bulk
  | interrupt
  deriving DecidableEq

namespace Endpoint

variable {e : Endpoint}

/-- The two low bits of its attributes are the kind of an endpoint. -/
def transfers (e : Endpoint) : TransferKind :=
  match e.attributes.toNat % 4 with
  | 0 => .control
  | 1 => .isochronous
  | 2 => .bulk
  | _ => .interrupt

/-- A bulk endpoint to the device. -/
def IsBulkOut (e : Endpoint) : Prop := e.transfers = .bulk ∧ e.address.toNat < 128

/-- A bulk endpoint to the host. -/
def IsBulkIn (e : Endpoint) : Prop := e.transfers = .bulk ∧ 128 ≤ e.address.toNat

theorem isBulk_iff : e.isBulk = true ↔ e.transfers = .bulk := by
  have hlow : e.attributes &&& 3 = 2 ↔ e.attributes.toNat % 4 = 2 := by
    rw [← UInt8.toNat_inj, UInt8.toNat_and]
    exact Eq.congr_left (Nat.and_two_pow_sub_one_eq_mod e.attributes.toNat 2)
  have hkind : e.transfers = .bulk ↔ e.attributes.toNat % 4 = 2 := by
    unfold transfers
    split
    · simp [*]
    · simp [*]
    · simp [*]
    · rename_i hother
      simpa using hother
  rw [hkind, ← hlow, isBulk, decide_eq_true_iff]

theorem isIn_iff : e.isIn = true ↔ 128 ≤ e.address.toNat := by
  rw [isIn, decide_eq_true_iff, UInt8.le_iff_toNat_le]
  rfl

theorem isBulkOut_iff : (e.isBulk && !e.isIn) = true ↔ e.IsBulkOut := by
  rw [Bool.and_eq_true, Bool.not_eq_true', ← Bool.not_eq_true, isBulk_iff, isIn_iff, Nat.not_le]
  rfl

theorem isBulkIn_iff : (e.isBulk && e.isIn) = true ↔ e.IsBulkIn := by
  rw [Bool.and_eq_true, isBulk_iff, isIn_iff]
  rfl

end Endpoint

/-! ## Settings -/

/-- A vendor-specific setting with a bulk endpoint in each direction. -/
def Setting.HasPair (s : Setting) : Prop :=
  s.kind = 0xFF ∧ (∃ e ∈ s.endpoints, e.IsBulkOut) ∧ ∃ e ∈ s.endpoints, e.IsBulkIn

namespace MonitorEndpoints

variable {s : Setting} {m : MonitorEndpoints} {config : Configuration}

/-- The interface of a setting, with its first bulk endpoint in each direction. -/
structure FirstOf (m : MonitorEndpoints) (s : Setting) : Prop where
  interface : m.interface = s.interface
  out : ∃ e, FirstWith Endpoint.IsBulkOut e s.endpoints ∧ m.out = e.address
  input : ∃ e, FirstWith Endpoint.IsBulkIn e s.endpoints ∧ m.input = e.address

theorem ofSetting?_eq_some_iff : ofSetting? s = some m ↔ s.HasPair ∧ m.FirstOf s := by
  unfold ofSetting?
  constructor
  · intro h
    split_ifs at h with hkind
    split at h
    · rename_i out input hout hinput
      obtain rfl := Option.some.inj h
      have hfirst := (find?_eq_some_iff_firstWith fun _ => Endpoint.isBulkOut_iff).mp hout
      have hfirst' := (find?_eq_some_iff_firstWith fun _ => Endpoint.isBulkIn_iff).mp hinput
      exact ⟨⟨hkind, ⟨out, hfirst.mem, hfirst.holds⟩, input, hfirst'.mem, hfirst'.holds⟩,
        ⟨rfl, ⟨out, hfirst, rfl⟩, input, hfirst', rfl⟩⟩
    · cases h
  · rintro ⟨⟨hkind, -, -⟩, ⟨hinterface, ⟨out, hout, hm⟩, input, hinput, hm'⟩⟩
    rw [if_pos (show s.kind = vendorSpecific from hkind),
      (find?_eq_some_iff_firstWith fun _ => Endpoint.isBulkOut_iff).mpr hout,
      (find?_eq_some_iff_firstWith fun _ => Endpoint.isBulkIn_iff).mpr hinput]
    show some (⟨s.interface, out.address, input.address⟩ : MonitorEndpoints) = some m
    rw [← hinterface, ← hm, ← hm']

theorem exists_firstOf (h : s.HasPair) : ∃ m : MonitorEndpoints, m.FirstOf s := by
  obtain ⟨-, ⟨e, he, hout⟩, e', he', hinput⟩ := h
  obtain ⟨out, hout⟩ := exists_firstWith he hout
  obtain ⟨input, hinput⟩ := exists_firstWith he' hinput
  exact ⟨⟨s.interface, out.address, input.address⟩, ⟨rfl, ⟨out, hout, rfl⟩, input, hinput, rfl⟩⟩

theorem ofSetting?_eq_none_iff : ofSetting? s = none ↔ ¬ s.HasPair := by
  rw [Option.eq_none_iff_forall_ne_some]
  constructor
  · intro hnone hpair
    obtain ⟨m, hm⟩ := exists_firstOf hpair
    exact hnone m (ofSetting?_eq_some_iff.mpr ⟨hpair, hm⟩)
  · exact fun hnot m hm => hnot (ofSetting?_eq_some_iff.mp hm).1

/-- The first setting with a pair is taken, and no other is looked at. -/
theorem find?_eq_some_iff :
    find? config = some m ↔ ∃ s, FirstWith Setting.HasPair s config.flatten ∧ m.FirstOf s := by
  rw [find?, List.findSome?_eq_some_iff]
  simp only [ofSetting?_eq_some_iff, ofSetting?_eq_none_iff]
  constructor
  · rintro ⟨before, s, after, hconfig, ⟨hpair, hm⟩, hbefore⟩
    exact ⟨s, ⟨before, after, hconfig, hpair, hbefore⟩, hm⟩
  · rintro ⟨s, ⟨before, after, hconfig, hpair, hbefore⟩, hm⟩
    exact ⟨before, s, after, hconfig, ⟨hpair, hm⟩, hbefore⟩

theorem exists_find?_iff : (∃ m, find? config = some m) ↔ ∃ interface ∈ config, ∃ s ∈ interface, s.HasPair := by
  constructor
  · rintro ⟨m, hm⟩
    obtain ⟨s, hs, -⟩ := find?_eq_some_iff.mp hm
    obtain ⟨interface, hinterface, hmem⟩ := List.mem_flatten.mp hs.mem
    exact ⟨interface, hinterface, s, hmem, hs.holds⟩
  · rintro ⟨interface, hinterface, s, hmem, hpair⟩
    obtain ⟨first, hfirst⟩ := exists_firstWith (List.mem_flatten.mpr ⟨interface, hinterface, hmem⟩) hpair
    obtain ⟨m, hm⟩ := exists_firstOf hfirst.holds
    exact ⟨m, find?_eq_some_iff.mpr ⟨first, hfirst, hm⟩⟩

end MonitorEndpoints

/-! ## Cameras -/

section Cameras

variable {σ : Type} {H H' : BusHistory} {d : Device} {kind : DeviceClass} {descriptor : Descriptor} {c : UsbCamera}
  {m : MonitorChannel}

/-- A camera in normal mode is asked for its configuration, and has no monitor if it does not tell. -/
theorem run_findMonitor (env : Environment (bus.sum host) σ) (s : σ) (hnormal : kind.isRecovery = false) :
    ((UsbCamera.findMonitor d kind).run env s).1 =
      match (env (.inl (.configuration d)) s).1 with
      | none => .panicked
      | some (.error _) => .finished none
      | some (.ok config) => .finished (MonitorEndpoints.find? config) := by
  simp only [UsbCamera.findMonitor, hnormal, Bool.false_eq_true, if_false, bind_eq, Usb.ask, perform,
    Program.bind, run]
  rcases env (.inl (.configuration d)) s with ⟨_ | _ | config, s'⟩ <;> rfl

theorem finishes_findMonitor {endpoints : MonitorEndpoints}
    (hf : (UsbCamera.findMonitor d kind).Finishes H (some endpoints)) :
    ∃ config, H = [.onBus (.configuration d) (some (.ok config))] ∧
      MonitorEndpoints.find? config = some endpoints := by
  unfold UsbCamera.findMonitor at hf
  split at hf
  · cases (finishes_done.mp hf).2
  simp only [bind_eq, finishes_bind, finishes_ask] at hf
  obtain ⟨reply, H₁, H₂, rfl, rfl, hend⟩ := hf
  rcases reply with e | config
  · cases (finishes_done.mp hend).2
  · obtain ⟨rfl, hfound⟩ := finishes_done.mp hend
    exact ⟨config, rfl, hfound.symm⟩

/-- What a camera knows of its monitor is what was found in its configuration. -/
theorem configuration_of_ofDevice {endpoints : MonitorEndpoints}
    (hf : (UsbCamera.ofDevice d descriptor kind).Finishes H (.ok c)) (hc : c.endpoints? = some endpoints) :
    ∃ config, .onBus (.configuration d) (some (.ok config)) ∈ H ∧
      MonitorEndpoints.find? config = some endpoints := by
  simp only [UsbCamera.ofDevice, bind_eq, finishes_bind, finishes_ask] at hf
  obtain ⟨opened, H₁, H₂, rfl, rfl, hf⟩ := hf
  rcases opened with e | handle
  · cases (finishes_done.mp hf).2
  obtain ⟨name, H₃, H₄, rfl, -, hf⟩ := finishes_bind.mp hf
  obtain ⟨endpoints?, H₅, H₆, rfl, hfind, hf⟩ := finishes_bind.mp hf
  obtain ⟨rfl, hok⟩ := finishes_done.mp hf
  obtain rfl := Except.ok.inj hok
  obtain rfl : endpoints? = some endpoints := hc
  obtain ⟨config, rfl, hfound⟩ := finishes_findMonitor hfind
  exact ⟨config, by simp, hfound⟩

/-- The monitor is opened where the camera knows it to be. -/
theorem endpoints_of_openMonitor (hf : c.openMonitor.Finishes H (.ok m)) : ∃ endpoints : MonitorEndpoints,
    c.endpoints? = some endpoints ∧ m.out = endpoints.out ∧ m.input = endpoints.input ∧
      ClaimTried c.device endpoints.interface H (some m.handle) := by
  rcases finishes_openMonitor hf with ⟨-, -, hnone⟩ | ⟨endpoints, hendpoints, hclaim⟩
  · cases hnone
  refine ⟨endpoints, hendpoints, ?_⟩
  rw [UsbCamera.openMonitor, hendpoints] at hf
  obtain ⟨claimed, H₁, H₂, rfl, -, hend⟩ := finishes_bind.mp hf
  rcases claimed with e | handle
  · cases (finishes_done.mp hend).2
  · obtain ⟨rfl, hok⟩ := finishes_done.mp hend
    obtain rfl := Except.ok.inj hok
    exact ⟨rfl, rfl, hclaim⟩

end Cameras

/-- In a configuration of any interfaces, settings and endpoints, a place for the hardware monitor is found
exactly if some vendor-specific setting has a bulk endpoint in each direction.  It is the interface of the first
setting of this kind, with the first bulk endpoint in each direction among those of this very setting.  A camera
in normal mode is asked for its configuration to find the place; without an answer it has none.  Where the
hardware monitor of a listed camera was opened, the interface that is claimed and both endpoints of the channel
are those that were found in the configuration it told. -/
theorem first_pair_is_taken :
    (∀ config : Configuration,
      ((∃ m, MonitorEndpoints.find? config = some m) ↔ ∃ interface ∈ config, ∃ s ∈ interface, s.HasPair) ∧
      ∀ m, MonitorEndpoints.find? config = some m ↔
        ∃ s, FirstWith Setting.HasPair s config.flatten ∧ m.FirstOf s) ∧
    (∀ {σ : Type} (env : Environment (bus.sum host) σ) (s : σ) (d : Device) (kind : DeviceClass),
      kind.isRecovery = false →
      let told := (env (.inl (.configuration d)) s).1
      let found := ((UsbCamera.findMonitor d kind).run env s).1
      (∀ config, told = some (.ok config) → found = .finished (MonitorEndpoints.find? config)) ∧
      ∀ e, told = some (.error e) → found = .finished none) ∧
    ∀ d descriptor kind c m H₁ H₂, (UsbCamera.ofDevice d descriptor kind).Finishes H₁ (.ok c) →
      c.openMonitor.Finishes H₂ (.ok m) →
      ∃ config endpoints, .onBus (.configuration d) (some (.ok config)) ∈ H₁ ∧
        MonitorEndpoints.find? config = some endpoints ∧ ClaimTried d endpoints.interface H₂ (some m.handle) ∧
        m.out = endpoints.out ∧ m.input = endpoints.input := by
  refine ⟨fun config => ⟨MonitorEndpoints.exists_find?_iff, fun m => MonitorEndpoints.find?_eq_some_iff⟩, ?_, ?_⟩
  · intro σ env s d kind hnormal told found
    have hfound : found = _ := run_findMonitor env s hnormal
    constructor
    · intro config htold
      rw [hfound, show (env (.inl (.configuration d)) s).1 = _ from htold]
    · intro e htold
      rw [hfound, show (env (.inl (.configuration d)) s).1 = _ from htold]
  · intro d descriptor kind c m H₁ H₂ hlisted hopened
    obtain ⟨endpoints, hendpoints, hout, hinput, hclaim⟩ := endpoints_of_openMonitor hopened
    obtain ⟨config, htold, hfound⟩ := configuration_of_ofDevice hlisted hendpoints
    rcases finishes_ofDevice hlisted with ⟨e, -, herror⟩ | ⟨c', H, -, -, hok, hopenedAs⟩
    · cases herror
    obtain rfl := Except.ok.inj hok
    rw [hopenedAs.onDevice] at hclaim
    exact ⟨config, endpoints, htold, hfound, hclaim, hout, hinput⟩

namespace Crowded

/-- A video interface, a vendor-specific one without a bulk endpoint to the host, and two with a pair; the first
of these has it in its second setting, among other endpoints. -/
def config : Configuration :=
  [[⟨0, 14, [⟨0x01, 2⟩, ⟨0x81, 2⟩]⟩],
   [⟨3, 0xFF, [⟨0x02, 2⟩, ⟨0x82, 3⟩]⟩],
   [⟨4, 0xFF, [⟨0x83, 2⟩]⟩, ⟨4, 0xFF, [⟨0x84, 3⟩, ⟨0x85, 6⟩, ⟨0x03, 1⟩, ⟨0x04, 2⟩, ⟨0x86, 2⟩, ⟨0x05, 2⟩]⟩],
   [⟨5, 0xFF, [⟨0x06, 2⟩, ⟨0x87, 2⟩]⟩]]

def descriptor : Descriptor :=
  { vendor := vendorId, product := 0x0B07, productString? := none, serialString? := none }

def device : Device := ⟨1, some descriptor⟩

/-- A bus with that device alone, which tells its configuration and lets all be claimed. -/
def world : Environment (bus.sum host) Unit
  | .inl (.open _), u => (some (.ok ⟨1⟩), u)
  | .inl (.configuration _), u => (some (.ok config), u)
  | .inl (.autoDetach _ _), u | .inl (.claim _ _), u => (some (.ok ()), u)
  | .inr (.log _), u => (some (), u)
  | _, u => (none, u)

/-- The camera as it is listed there. -/
def camera : UsbCamera where
  device := device
  handle := ⟨1⟩
  descriptor := descriptor
  kind := ⟨.d400, .normal⟩
  name := "Intel RealSense D400"
  endpoints? := some ⟨4, 0x04, 0x85⟩

def listing : BusAction (Except UsbError UsbCamera) := UsbCamera.ofDevice device descriptor ⟨.d400, .normal⟩

end Crowded

open Crowded in
/-- Neither the endpoints of the wrong class nor the single ones before are taken, and the monitor is opened on
the first pair of the first setting that has one. -/
theorem first_pair_is_taken_crowded :
    (∃ s, FirstWith Setting.HasPair s config.flatten ∧ (⟨4, 0x04, 0x85⟩ : MonitorEndpoints).FirstOf s) ∧
    ((UsbCamera.findMonitor device ⟨.d400, .normal⟩).run world ()).1 = .finished (some ⟨4, 0x04, 0x85⟩) ∧
    ∃ told endpoints, .onBus (.configuration device) (some (.ok told)) ∈ listing.history world () ∧
      MonitorEndpoints.find? told = some endpoints ∧
      ClaimTried device endpoints.interface (camera.openMonitor.history world ()) (some ⟨1⟩) := by
  obtain ⟨hfirst, hasked, hopened⟩ := first_pair_is_taken
  refine ⟨((hfirst config).2 _).mp (by decide), (hasked world () device ⟨.d400, .normal⟩ rfl).1 config rfl, ?_⟩
  have hlisting : listing.Finishes (listing.history world ()) (.ok camera) := finishes_history (by decide +kernel)
  have hopen : camera.openMonitor.Finishes (camera.openMonitor.history world ()) (.ok ⟨⟨1⟩, 0x04, 0x85⟩) :=
    finishes_history (by decide +kernel)
  obtain ⟨told, endpoints, htold, hfound, hclaim, -, -⟩ := hopened device descriptor _ camera _ _ _ hlisting hopen
  exact ⟨told, endpoints, htold, hfound, hclaim⟩

end Reflash.Usb
