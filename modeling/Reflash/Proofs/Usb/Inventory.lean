import Reflash.Proofs.Listing
import Reflash.Proofs.Usb.Listed
import Reflash.Proofs.Usb.Returns

/-!
# Reflash.Proofs.Usb.Inventory — what a listing shows of the devices on a bus

A listing tries to open every supported device in the order of the bus, and the cameras that it finds are those
that were opened (`Found`).  The listing command then reads serial number and version of one camera after the
other and prints its lines, whatever comes of the readings (`Described`).  So no failure of one device has a say
in what is shown of another (`listing_is_complete`).
-/

namespace Reflash.Usb

open Program

variable {H H' : BusHistory} {d : Device} {c : UsbCamera} {devices : List Device} {found : List UsbCamera}

/-! ## Cameras that are found -/

/-- The opening of a device, and what came of it. -/
def opening? : Event (bus.sum host) → Option (Device × Except UsbError Handle)
  | ⟨.inl (.open d), some result⟩ => some (d, result)
  | _ => none

def openings (H : BusHistory) : List (Device × Except UsbError Handle) := H.filterMap opening?

/-- The devices that show a supported class in a descriptor that can be read. -/
def supported (devices : List Device) : List Device := devices.filter fun d => d.kind?.isSome

/-- The handle of a device that could be opened. -/
def opened? : Device × Except UsbError Handle → Option (Device × Handle)
  | (d, .ok h) => some (d, h)
  | (_, .error _) => none

/-- The supported devices were opened one after the other, and the cameras found are those of which this could
be done, each of the class that its device shows. -/
structure Found (devices : List Device) (found : List UsbCamera) (H : BusHistory) : Prop where
  tried : (openings H).map Prod.fst = supported devices
  kept : found.map (fun c => (c.device, c.handle)) = (openings H).filterMap opened?
  classed : ∀ c ∈ found, c.device.kind? = some c.kind

@[simp] theorem openings_append : openings (H ++ H') = openings H ++ openings H' := List.filterMap_append

theorem openings_eq_nil (hH : ∀ e ∈ H, Describing e.call) : openings H = [] := by
  refine List.filterMap_eq_nil_iff.mpr fun e he => ?_
  have hcall := hH e he
  unfold opening?
  split
  · exact hcall.elim
  · rfl

/-- A device that is not supported is passed over. -/
theorem Found.skip (hnone : d.kind? = none) (hfound : Found devices found H) : Found (d :: devices) found H := by
  refine ⟨?_, hfound.kept, hfound.classed⟩
  rw [hfound.tried, supported, supported, List.filter_cons_of_neg (by simp [hnone])]

/-- A device that cannot be opened is left out. -/
theorem Found.leaveOut {kind : DeviceClass} {e : UsbError} (hkind : d.kind? = some kind)
    (hopenings : openings H' = (d, .error e) :: openings H) (hfound : Found devices found H) :
    Found (d :: devices) found H' := by
  refine ⟨?_, ?_, hfound.classed⟩
  · rw [hopenings, List.map_cons, hfound.tried, supported, supported, List.filter_cons_of_pos (by simp [hkind])]
  · rw [hopenings, hfound.kept]
    rfl

theorem Found.cons (hkind : d.kind? = some c.kind) (hdevice : c.device = d)
    (hopenings : openings H' = (d, .ok c.handle) :: openings H) (hfound : Found devices found H) :
    Found (d :: devices) (c :: found) H' := by
  refine ⟨?_, ?_, ?_⟩
  · rw [hopenings, List.map_cons, hfound.tried, supported, supported, List.filter_cons_of_pos (by simp [hkind])]
  · rw [hopenings, List.map_cons, hfound.kept, hdevice]
    rfl
  · rw [List.forall_mem_cons, hdevice]
    exact ⟨hkind, hfound.classed⟩

theorem found_of_openAll (hf : (Hub.openAll devices).Finishes H found) : Found devices found H := by
  induction devices generalizing H found with
  | nil =>
    obtain ⟨rfl, rfl⟩ := finishes_done.mp hf
    exact ⟨rfl, rfl, List.forall_mem_nil _⟩
  | cons d rest ih =>
    rcases finishes_openAll_cons hf with ⟨hnone, hrest⟩ | ⟨descriptor, kind, hdescriptor, hclass, hopening⟩
    · exact (ih hrest).skip hnone
    have hkind : d.kind? = some kind := by rw [Device.kind?, hdescriptor, Option.bind_some, hclass]
    rcases hopening with ⟨e, note, H', rfl, hrest⟩ | ⟨c, others, H₁, H₂, rfl, rfl, hopened, hrest⟩
    · exact (ih hrest).leaveOut hkind (show openings _ = (d, .error e) :: openings H' from rfl)
    rcases finishes_ofDevice hopened with ⟨e, -, herror⟩ | ⟨c', H', rfl, hdescribing, hok, hd⟩
    · cases herror
    obtain rfl := Except.ok.inj hok
    refine (ih hrest).cons (hd.classed ▸ hkind) hd.onDevice ?_
    rw [openings_append]
    show (d, .ok c.handle) :: openings H' ++ openings H₂ = _
    rw [openings_eq_nil hdescribing, List.cons_append, List.nil_append]

/-! ## On the bus -/

section OnBus

variable {α β : Type} {hub hub' : Hub} {camera : Camera}

theorem finishes_onBus_bind {p : Action α} {f : α → Action β} {r : β × Hub} :
    (Hub.onBus (p.bind f) hub).Finishes H r ↔
    ∃ a hub₁ H₁ H₂, H = H₁ ++ H₂ ∧ (Hub.onBus p hub).Finishes H₁ (a, hub₁) ∧
    (Hub.onBus (f a) hub₁).Finishes H₂ r := by
  rw [Hub.onBus, expand_bind, finishes_bind, Prod.exists]
  rfl

theorem finishes_onBus_done {a b : α} :
    (Hub.onBus (.done a) hub).Finishes H (b, hub') ↔ H = [] ∧ b = a ∧ hub' = hub := by
  rw [← Prod.mk.injEq]
  exact finishes_done

theorem onBus_perform (call : (cameras.sum host).Call) : Hub.onBus (perform call) hub = hub.answer call :=
  bind_done (hub.answer call)

theorem finishes_onBus_ask {call : CameraCall} {r : call.Answer × Hub} :
    (Hub.onBus (Reflash.ask call) hub).Finishes H r ↔ (hub.answer (.inl call)).Finishes H r := by
  rw [Reflash.ask, onBus_perform]

theorem finishes_onBus_tell {call : HostCall} {a : call.Answer} :
    (Hub.onBus (tell call) hub).Finishes H (a, hub') ↔ H = [.onHost call (some a)] ∧ hub' = hub := by
  rw [tell, onBus_perform]
  exact Hub.finishes_answer_host

/-- A camera that the hub knows is asked over the bus, and the hub knows no more or less than before. -/
theorem finishes_onBus_serial (hknown : hub.known[camera.id]? = some c) {r : Except LinkError (Option String)} :
    (Hub.onBus (Reflash.ask (.serial camera)) hub).Finishes H (r, hub') ↔ c.serial.Finishes H r ∧ hub' = hub := by
  rw [finishes_onBus_ask, Hub.answer, Hub.serve, hknown]
  exact finishes_bind_pair

theorem finishes_onBus_firmware (hknown : hub.known[camera.id]? = some c) {r : Except LinkError (Option String)} :
    (Hub.onBus (Reflash.ask (.firmware camera)) hub).Finishes H (r, hub') ↔
    c.firmware.Finishes H r ∧ hub' = hub := by
  rw [finishes_onBus_ask, Hub.answer, Hub.serve, hknown]
  exact finishes_bind_pair

/-- A hub knows nothing of sensors. -/
theorem finishes_onBus_sensorIdentity {r : Except LinkError (Option String)} :
    (Hub.onBus (sensorIdentity camera) hub).Finishes H (r, hub') ↔ H = [] ∧ r = .ok none ∧ hub' = hub := by
  rw [show Hub.onBus (sensorIdentity camera) hub = .done (.ok none, hub) from rfl, finishes_done, Prod.mk.injEq]

/-- An attempt fails with its first step, or goes on from where that came to. -/
theorem finishes_onBus_attempt_bind {ε : Type} {x : Attempt ε α} {f : α → Attempt ε β} {result : Except ε β}
    (hf : (Hub.onBus (x >>= f).run hub).Finishes H (result, hub')) :
    (∃ e, (Hub.onBus x.run hub).Finishes H (.error e, hub') ∧ result = .error e) ∨
    ∃ a hub₁ H₁ H₂, H = H₁ ++ H₂ ∧ (Hub.onBus x.run hub).Finishes H₁ (.ok a, hub₁) ∧
      (Hub.onBus (f a).run hub₁).Finishes H₂ (result, hub') := by
  rw [Attempt.run_bind] at hf
  obtain ⟨r, hub₁, H₁, H₂, rfl, hx, hnext⟩ := finishes_onBus_bind.mp hf
  rcases r with e | a
  · obtain ⟨rfl, rfl, rfl⟩ := finishes_onBus_done.mp hnext
    exact .inl ⟨e, by rwa [List.append_nil], rfl⟩
  · exact .inr ⟨a, hub₁, H₁, H₂, rfl, hx, hnext⟩

theorem finishes_onBus_of {δ ε : Type} {g : δ → ε} {x : Action (Except δ α)} {result : Except ε α} :
    (Hub.onBus (Attempt.of g x).run hub).Finishes H (result, hub') ↔
      ∃ r, (Hub.onBus x hub).Finishes H (r, hub') ∧ result = r.mapError g := by
  rw [Attempt.run_of, finishes_onBus_bind]
  constructor
  · rintro ⟨r, hub₁, H₁, H₂, rfl, hx, hdone⟩
    obtain ⟨rfl, rfl, rfl⟩ := finishes_onBus_done.mp hdone
    exact ⟨r, by rwa [List.append_nil], rfl⟩
  · rintro ⟨r, hx, rfl⟩
    exact ⟨r, hub', H, [], by rw [List.append_nil], hx, .done _⟩

theorem finishes_onBus_lift {ε : Type} {p : Action α} {result : Except ε α} :
    (Hub.onBus (liftM p : Attempt ε α).run hub).Finishes H (result, hub') ↔
      ∃ a, (Hub.onBus p hub).Finishes H (a, hub') ∧ result = .ok a := by
  rw [Attempt.run_lift, finishes_onBus_bind]
  constructor
  · rintro ⟨a, hub₁, H₁, H₂, rfl, hp, hdone⟩
    obtain ⟨rfl, rfl, rfl⟩ := finishes_onBus_done.mp hdone
    exact ⟨a, by rwa [List.append_nil], rfl⟩
  · rintro ⟨a, hp, rfl⟩
    exact ⟨a, hub', H, [], by rw [List.append_nil], hp, .done _⟩

end OnBus

/-! ## One camera -/

/-- What came of reading the serial number and the version of a camera. -/
structure Reading where
  serial : Except LinkError (Option String)
  version : Except LinkError (Option String)

namespace Reading

/-- The identity that follows from the serial number, without sensors: an empty text is none, and what cannot be
reported at all is not missed. -/
def identity (r : Reading) : Except LinkError (Option String) :=
  match r.serial with
  | .ok (some serial) => if serial ≠ "" then .ok (some serial) else .ok none
  | .ok none | .error (.unsupported _) => .ok none
  | .error e => .error e

/-- The serial number, where it could be read and there is one. -/
def serial? (r : Reading) : Option String := r.serial.toOption.join.filter (· ≠ "")

/-- The version, where it could be read and there is one. -/
def version? (r : Reading) : Option String := r.version.toOption.join

theorem toOption_identity (r : Reading) : r.identity.toOption.join = r.serial? := by
  unfold identity serial?
  split
  · rename_i serial hserial
    rw [hserial]
    by_cases hempty : serial = "" <;> simp [hempty, Except.toOption, Option.filter]
  all_goals
    rename_i hserial
    rw [hserial]
    rfl

/-- A failed reading is noted in the diagnostic log, and no other. -/
def note (c : UsbCamera) (text : String) : Except LinkError (Option String) → BusHistory
  | .ok _ => []
  | .error e => [.onHost (.log { level := .warn, text := c.name ++ text ++ e.message }) (some ())]

def serialNote (r : Reading) (c : UsbCamera) : BusHistory := note c ": cannot read serial number: " r.identity

def versionNote (r : Reading) (c : UsbCamera) : BusHistory := note c ": cannot read firmware version: " r.version

/-- What is shown of a camera. -/
def lines (r : Reading) (catalog : Catalog) (c : UsbCamera) : List String :=
  [ c.name,
    "  Mode:     " ++ c.kind.mode.name,
    "  Line:     " ++ c.kind.line.name,
    "  Serial:   " ++ r.serial?.getD "unknown",
    "  Firmware: " ++ r.version?.getD "unknown" ]
  ++ (match catalog.version? c.kind.line with
      | some available =>
        ["  Catalog:  " ++ available.text ++ " (" ++ Command.advice catalog c.kind.line r.version? ++ ")"]
      | none => [])
  ++ [""]

end Reading

section OneCamera

variable {hub hub' : Hub} {camera : Camera}

/-- The serial number alone settles the identity. -/
theorem finishes_onBus_identityOf (hknown : hub.known[camera.id]? = some c)
    {identity : Except LinkError (Option String)}
    (hf : (Hub.onBus (identityOf camera) hub).Finishes H (identity, hub')) : hub' = hub ∧ ∃ serial,
      c.serial.Finishes H serial ∧ ∀ version, identity = (Reading.mk serial version).identity := by
  obtain ⟨serial, hub₁, H₁, H₂, rfl, hask, hjudged⟩ := finishes_onBus_bind.mp hf
  obtain ⟨hserial, hsame⟩ := (finishes_onBus_serial hknown).mp hask
  have hdone : H₂ = [] ∧ hub' = hub₁ ∧ ∀ version, identity = (Reading.mk serial version).identity := by
    unfold Reading.identity
    split at hjudged
    · rename_i text
      by_cases hempty : text = ""
      · rw [if_neg (by simpa using hempty)] at hjudged
        obtain ⟨rfl, rfl, rfl⟩ := finishes_onBus_sensorIdentity.mp hjudged
        exact ⟨rfl, rfl, fun _ => (if_neg (by simpa using hempty)).symm⟩
      · rw [if_pos hempty] at hjudged
        obtain ⟨rfl, rfl, rfl⟩ := finishes_onBus_done.mp hjudged
        exact ⟨rfl, rfl, fun _ => (if_pos hempty).symm⟩
    · obtain ⟨rfl, rfl, rfl⟩ := finishes_onBus_sensorIdentity.mp hjudged
      exact ⟨rfl, rfl, fun _ => rfl⟩
    · obtain ⟨rfl, rfl, rfl⟩ := finishes_onBus_sensorIdentity.mp hjudged
      exact ⟨rfl, rfl, fun _ => rfl⟩
    · obtain ⟨rfl, rfl, rfl⟩ := finishes_onBus_done.mp hjudged
      exact ⟨rfl, rfl, fun _ => by simp⟩
  obtain ⟨rfl, rfl, hidentity⟩ := hdone
  exact ⟨hsame, serial, by rwa [List.append_nil], hidentity⟩

theorem finishes_onBus_shownSerial (hknown : hub.known[camera.id]? = some c)
    (hname : camera.name = c.name) {text : String}
    (hf : (Hub.onBus (Command.shownSerial camera) hub).Finishes H (text, hub')) : hub' = hub ∧ ∃ serial H₁,
      c.serial.Finishes H₁ serial ∧ ∀ version, H = H₁ ++ (Reading.mk serial version).serialNote c ∧
        text = (Reading.mk serial version).serial?.getD "unknown" := by
  obtain ⟨identity, hub₁, H₁, H₂, rfl, hask, hshown⟩ := finishes_onBus_bind.mp hf
  obtain ⟨rfl, serial, hserial, hidentity⟩ := finishes_onBus_identityOf hknown hask
  have hnote : hub' = hub₁ ∧ H₂ = Reading.note c ": cannot read serial number: " identity ∧
      text = identity.toOption.join.getD "unknown" := by
    rcases identity with e | _ | shown
    · obtain ⟨u, hub₂, H₃, H₄, rfl, hwarn, hend⟩ := finishes_onBus_bind.mp hshown
      obtain ⟨rfl, rfl⟩ := finishes_onBus_tell.mp hwarn
      obtain ⟨rfl, rfl, rfl⟩ := finishes_onBus_done.mp hend
      exact ⟨rfl, by rw [hname]; rfl, rfl⟩
    all_goals
      obtain ⟨rfl, rfl, rfl⟩ := finishes_onBus_done.mp hshown
      exact ⟨rfl, rfl, rfl⟩
  obtain ⟨rfl, rfl, rfl⟩ := hnote
  refine ⟨rfl, serial, H₁, hserial, fun version => ?_⟩
  rw [Reading.serialNote, ← Reading.toOption_identity, ← hidentity version]
  exact ⟨rfl, rfl⟩

theorem finishes_onBus_readVersion (hknown : hub.known[camera.id]? = some c) (hname : camera.name = c.name)
    {version? : Option String} (hf : (Hub.onBus (Command.readVersion camera) hub).Finishes H (version?, hub')) :
    hub' = hub ∧ ∃ version H₁, c.firmware.Finishes H₁ version ∧ ∀ serial,
      H = H₁ ++ (Reading.mk serial version).versionNote c ∧ version? = (Reading.mk serial version).version? := by
  obtain ⟨version, hub₁, H₁, H₂, rfl, hask, hend⟩ := finishes_onBus_bind.mp hf
  obtain ⟨hversion, rfl⟩ := (finishes_onBus_firmware hknown).mp hask
  rcases version with e | version
  · obtain ⟨u, hub₂, H₃, H₄, rfl, hnote, hdone⟩ := finishes_onBus_bind.mp hend
    obtain ⟨rfl, rfl⟩ := finishes_onBus_tell.mp hnote
    obtain ⟨rfl, rfl, rfl⟩ := finishes_onBus_done.mp hdone
    exact ⟨rfl, .error e, H₁, hversion, fun serial => ⟨by rw [hname]; rfl, rfl⟩⟩
  · obtain ⟨rfl, rfl, rfl⟩ := finishes_onBus_done.mp hend
    exact ⟨rfl, .ok version?, H₁, hversion, fun serial => ⟨rfl, rfl⟩⟩

theorem finishes_onBus_printAll {lines : List String} {u : Unit}
    (hf : (Hub.onBus (Command.printAll lines) hub).Finishes H (u, hub')) :
    H = hosted (Command.prints lines) ∧ hub' = hub := by
  have honly : (Command.printAll lines).Only OnHost :=
    (Command.only_printAll (by simp) lines).mono onHost_of_hostKinds
  obtain ⟨rfl, h, hprint, rfl⟩ := finishes_onBus_of_onHost honly hf
  rw [Command.finishes_printAll hprint]
  exact ⟨rfl, rfl⟩

end OneCamera

/-! ## One camera after the other -/

/-- The serial number and the version of one camera after the other are read, and after both its lines are
printed, whatever came of the readings. -/
inductive Described (catalog : Catalog) : List UsbCamera → List Reading → BusHistory → Prop
  | nil : Described catalog [] [] []
  | cons {c : UsbCamera} {r : Reading} {found : List UsbCamera} {readings : List Reading} {Hs Hv H : BusHistory}
    (hserial : c.serial.Finishes Hs r.serial) (hversion : c.firmware.Finishes Hv r.version)
    (hrest : Described catalog found readings H) :
    Described catalog (c :: found) (r :: readings)
      (Hs ++ r.serialNote c ++ (Hv ++ r.versionNote c ++ (hosted (Command.prints (r.lines catalog c)) ++ H)))

theorem described_of_describe {catalog : Catalog} {hub hub' : Hub} {first : Nat} {u : Unit}
    (hknown : ∀ i : Nat, i < found.length → hub.known[first + i]? = found[i]?)
    (hf : (Hub.onBus (Command.describe catalog (Hub.number first found)) hub).Finishes H (u, hub')) :
    hub' = hub ∧ ∃ readings, Described catalog found readings H := by
  induction found generalizing first H with
  | nil =>
    obtain ⟨rfl, -, rfl⟩ := finishes_onBus_done.mp hf
    exact ⟨rfl, [], .nil⟩
  | cons c found ih =>
    have hfirst : hub.known[first]? = some c := hknown 0 (by simp)
    obtain ⟨text, hub₁, H₁, H₂, rfl, hshown, hafter⟩ := finishes_onBus_bind.mp hf
    obtain ⟨rfl, serial, Hs, hserial, hnote⟩ := finishes_onBus_shownSerial hfirst rfl hshown
    obtain ⟨version?, hub₂, H₃, H₄, rfl, hread, hlines⟩ := finishes_onBus_bind.mp hafter
    obtain ⟨rfl, version, Hv, hversion, hnote'⟩ := finishes_onBus_readVersion hfirst rfl hread
    obtain ⟨u', hub₃, H₅, H₆, rfl, hprint, hothers⟩ := finishes_onBus_bind.mp hlines
    obtain ⟨rfl, rfl⟩ := finishes_onBus_printAll hprint
    have hnext : ∀ i : Nat, i < found.length → hub₃.known[first + 1 + i]? = found[i]? := fun i hi => by
      rw [Nat.add_assoc, Nat.add_comm 1, hknown (i + 1) (by simpa), List.getElem?_cons_succ]
    obtain ⟨rfl, readings, hrest⟩ := ih hnext hothers
    obtain ⟨rfl, rfl⟩ := hnote version
    obtain ⟨rfl, rfl⟩ := hnote' serial
    exact ⟨rfl, ⟨serial, version⟩ :: readings, .cons hserial hversion hrest⟩

/-! ## What is printed -/

/-- A line that is printed. -/
def print? : Event (bus.sum host) → Option String
  | ⟨.inr (.print line), _⟩ => some line
  | _ => none

/-- All that is printed. -/
def output (H : BusHistory) : List String := H.filterMap print?

/-- The calls that print nothing. -/
def Silent : (bus.sum host).Call → Prop
  | .inr (.print _) => False
  | _ => True

@[simp] theorem output_append : output (H ++ H') = output H ++ output H' := List.filterMap_append

@[simp] theorem output_prints (lines : List String) : output (hosted (Command.prints lines)) = lines := by
  rw [output, hosted, Command.prints, List.filterMap_map, List.filterMap_filterMap]
  exact List.filterMap_some

theorem output_eq_nil (hH : ∀ e ∈ H, Silent e.call) : output H = [] := by
  refine List.filterMap_eq_nil_iff.mpr fun e he => ?_
  have hcall := hH e he
  unfold print?
  split
  · exact hcall.elim
  · rfl

theorem Looking.silent (call : (bus.sum host).Call) (hcall : Looking call) : Silent call := by
  rcases call with call | call
  · trivial
  · cases call <;> trivial

theorem Taking.silent {interface : UInt8} (call : (bus.sum host).Call) (hcall : Taking interface call) :
    Silent call := by
  rcases call with call | call
  · trivial
  · cases call <;> trivial

theorem silent_serial : c.serial.Only Silent :=
  only_serial Taking.silent (fun _ _ => trivial) (fun _ _ => trivial) Looking.silent

theorem silent_firmware : c.firmware.Only Silent := by
  cases hmode : c.kind.mode with
  | normal =>
    exact only_firmware_of_normal hmode (fun _ => Taking.silent) (fun _ _ _ => trivial) fun _ _ _ _ => trivial
  | recovery => exact only_firmware_of_recovery Taking.silent (fun _ _ => trivial) (fun _ _ => trivial) hmode

@[simp] theorem output_note {text : String} {result : Except LinkError (Option String)} :
    output (Reading.note c text result) = [] := by
  cases result <;> rfl

/-- The lines of one camera after the other are printed, and nothing else. -/
theorem Described.output_eq {catalog : Catalog} {readings : List Reading}
    (hd : Described catalog found readings H) :
    output H = (List.zipWith (fun c r => r.lines catalog c) found readings).flatten := by
  induction hd with
  | nil => rfl
  | cons hserial hversion _ ih =>
    simp [Reading.serialNote, Reading.versionNote, output_eq_nil (silent_serial.calls hserial.begins),
      output_eq_nil (silent_firmware.calls hversion.begins), ih]

theorem Described.length_eq {catalog : Catalog} {readings : List Reading}
    (hd : Described catalog found readings H) :
    readings.length = found.length := by
  induction hd with
  | nil => rfl
  | cons _ _ _ ih => rw [List.length_cons, List.length_cons, ih]

/-! ## Catalogs -/

section Catalogs

variable {hub hub' : Hub} {entries : List (ProductLine × String)} {catalog : Catalog}

/-- The bus had a list of its devices, and every file could be read. -/
structure Provided (H : BusHistory) : Prop where
  listed : ∀ e, .onBus .list (some (.error e)) ∉ H
  readable : ∀ path e, .onHost (.readFile path) (some (.error e)) ∉ H

theorem Provided.left (hp : Provided (H ++ H')) : Provided H :=
  ⟨fun e he => hp.listed e (List.mem_append_left _ he),
    fun path e he => hp.readable path e (List.mem_append_left _ he)⟩

theorem Provided.right (hp : Provided (H ++ H')) : Provided H' :=
  ⟨fun e he => hp.listed e (List.mem_append_right _ he),
    fun path e he => hp.readable path e (List.mem_append_right _ he)⟩

/-- Files that can be read make up a catalog of all their images. -/
theorem finishes_onBus_loadCatalog {result : Except CommandError Catalog} (hprovided : Provided H)
    (hf : (Hub.onBus (Command.loadCatalog entries catalog).run hub).Finishes H (result, hub')) :
    hub' = hub ∧ ∃ contents, contents.length = entries.length ∧ H = hosted (Command.readings entries contents) ∧
      result = .ok ((Command.images entries contents).foldl Catalog.offer catalog) := by
  have honly : (Command.loadCatalog entries catalog).run.Only OnHost :=
    Program.Only.mono (Command.only_loadCatalog (by simp) entries catalog) onHost_of_hostKinds
  obtain ⟨rfl, h, hload, rfl⟩ := finishes_onBus_of_onHost honly hf
  cases result with
  | error e =>
    obtain ⟨path, cause, hmem⟩ := Command.finishes_loadCatalog_error hload
    exact absurd (mem_hosted hmem) (hprovided.readable path cause)
  | ok result =>
    obtain ⟨contents, hlength, rfl, rfl⟩ := Command.finishes_loadCatalog hload
    exact ⟨rfl, contents, hlength, rfl, rfl⟩

end Catalogs

/-! ## The command -/

section Command

variable {hub hub' : Hub}

theorem finishes_onBus_enumerate {result : Except CommandError (List Camera)}
    (hprovided : Provided H) (hf : (Hub.onBus Command.enumerate.run hub).Finishes H (result, hub')) :
    ∃ devices found H', H = .onBus .list (some (.ok devices)) :: H' ∧ (Hub.openAll devices).Finishes H' found ∧
      result = .ok (Hub.number hub.known.length found) ∧ hub' = ⟨hub.known ++ found⟩ := by
  obtain ⟨r, hask, rfl⟩ := finishes_onBus_of.mp hf
  rcases Hub.finishes_answer_list (finishes_onBus_ask.mp hask) with
    ⟨e, rfl, -, -⟩ | ⟨devices, found, H', rfl, rfl, rfl, hopen⟩
  · exact absurd (List.mem_singleton_self _) (hprovided.listed e)
  · exact ⟨devices, found, H', rfl, hopen, rfl, rfl⟩

/-- That no camera was found is printed too. -/
inductive Shown (catalog : Catalog) : List UsbCamera → List Reading → BusHistory → Prop
  | empty : Shown catalog [] [] (hosted (Command.prints ["No devices found"]))
  | cameras {found : List UsbCamera} {readings : List Reading} {H : BusHistory} (hfound : found ≠ [])
    (hdescribed : Described catalog found readings H) : Shown catalog found readings H

theorem finishes_onBus_list {firmware : List (ProductLine × String)} {result : Except CommandError Unit}
    (hprovided : Provided H) (hf : (Hub.onBus (Command.list firmware).run hub).Finishes H (result, hub')) :
    ∃ contents devices found readings H₁ H₂, contents.length = firmware.length ∧
      H = hosted (Command.readings firmware contents) ++ .onBus .list (some (.ok devices)) :: (H₁ ++ H₂) ∧
      (Hub.openAll devices).Finishes H₁ found ∧
      Shown (.ofImages (Command.images firmware contents)) found readings H₂ ∧
      result = .ok () ∧ hub' = ⟨hub.known ++ found⟩ := by
  rcases finishes_onBus_attempt_bind hf with ⟨e, hload, -⟩ | ⟨catalog, hub₁, H₁, H₂, rfl, hload, hafter⟩
  · obtain ⟨-, contents, -, -, hok⟩ := finishes_onBus_loadCatalog hprovided hload
    cases hok
  obtain ⟨rfl, contents, hlength, rfl, hcatalog⟩ := finishes_onBus_loadCatalog hprovided.left hload
  obtain rfl := Except.ok.inj hcatalog
  rcases finishes_onBus_attempt_bind hafter with ⟨e, hlist, -⟩ | ⟨listing, hub₂, H₃, H₄, rfl, hlist, hshow⟩
  · obtain ⟨devices, found, H', -, -, hok, -⟩ := finishes_onBus_enumerate hprovided.right hlist
    cases hok
  obtain ⟨devices, found, H', rfl, hopen, hok, rfl⟩ := finishes_onBus_enumerate hprovided.right.left hlist
  obtain rfl := Except.ok.inj hok
  refine ⟨contents, devices, found, ?_⟩
  cases found with
  | nil =>
    obtain ⟨u, hprint, rfl⟩ := finishes_onBus_lift.mp hshow
    obtain ⟨rfl, rfl⟩ := finishes_onBus_tell.mp hprint
    exact ⟨[], H', _, hlength, rfl, hopen, .empty, rfl, rfl⟩
  | cons c rest =>
    obtain ⟨u, hdescribe, rfl⟩ := finishes_onBus_lift.mp hshow
    have hknown : ∀ i : Nat, i < (c :: rest).length →
        (hub₁.known ++ c :: rest)[hub₁.known.length + i]? = (c :: rest)[i]? := fun i _ => by
      rw [List.getElem?_append_right (Nat.le_add_right _ _), Nat.add_sub_cancel_left]
    obtain ⟨rfl, readings, hdescribed⟩ := described_of_describe hknown hdescribe
    exact ⟨readings, H', H₄, hlength, rfl, hopen, .cameras (List.cons_ne_nil c rest) hdescribed, rfl, rfl⟩

theorem output_readings (entries : List (ProductLine × String)) (contents : List Bytes) :
    output (hosted (Command.readings entries contents)) = [] := by
  refine output_eq_nil fun e he => ?_
  obtain ⟨e', he', hhosted⟩ := List.mem_filterMap.mp he
  obtain ⟨i, hi, rfl⟩ := List.mem_iff_getElem.mp he'
  simp only [Command.readings, List.getElem_zipWith] at hhosted
  cases hhosted
  trivial

theorem Shown.output_eq {catalog : Catalog} {readings : List Reading} (hs : Shown catalog found readings H) :
    output H = if found = [] then ["No devices found"]
      else (List.zipWith (fun c r => r.lines catalog c) found readings).flatten := by
  cases hs with
  | empty => rfl
  | cameras hfound hdescribed => rw [if_neg hfound, hdescribed.output_eq]

theorem Shown.length_eq {catalog : Catalog} {readings : List Reading} (hs : Shown catalog found readings H) :
    readings.length = found.length := by
  cases hs with
  | empty => rfl
  | cameras hfound hdescribed => exact hdescribed.length_eq

/-- Where the bus has a list of its devices, a listing finds in their order exactly the supported ones that can
be opened, each of the class that it shows.  The listing command, if its files can be read, prints the lines of
one of them after the other, with "unknown" for just those serial numbers and versions that could not be read or
are not there, and it succeeds. -/
theorem listing_is_complete {σ : Type} (env : Environment (bus.sum host) σ) (s : σ) :
    (∀ devices, (env (.inl .list) s).1 = some (.ok devices) → (Hub.listCameras.run env s).1 ≠ .panicked →
      ∃ found H, (Hub.listCameras.run env s).1 = .finished (.ok found) ∧
        Hub.listCameras.history env s = .onBus .list (some (.ok devices)) :: H ∧ Found devices found H) ∧
    ∀ (hub : Hub) (firmware : List (ProductLine × String)),
      let program := Hub.onBus (Command.list firmware).run hub
      let H := program.history env s
      (program.run env s).1 ≠ .panicked → Provided H →
      ∃ contents devices found readings H₁ H₂,
        let catalog := Catalog.ofImages (Command.images firmware contents)
        contents.length = firmware.length ∧ readings.length = found.length ∧
        (program.run env s).1 = .finished (.ok (), ⟨hub.known ++ found⟩) ∧
        H = hosted (Command.readings firmware contents) ++ .onBus .list (some (.ok devices)) :: (H₁ ++ H₂) ∧
        Found devices found H₁ ∧ Shown catalog found readings H₂ ∧
        output H = if found = [] then ["No devices found"]
          else (List.zipWith (fun c r => r.lines catalog c) found readings).flatten := by
  refine ⟨fun devices hdevices hlives => ?_, ?_⟩
  · obtain ⟨result, hrun⟩ := stallsAfter_listCameras.exists_finished hlives
    have hgives := env.gives_history Hub.listCameras s
    rcases finishes_listCameras (finishes_history hrun) with ⟨e, hhistory, -⟩ |
      ⟨devices', found, H', hhistory, rfl, hopen⟩
    · rw [hhistory] at hgives
      cases hdevices.symm.trans hgives.1
    · rw [hhistory] at hgives
      obtain rfl : devices' = devices := by simpa using hgives.1.symm.trans hdevices
      exact ⟨found, H', hrun, hhistory, found_of_openAll hopen⟩
  · intro hub firmware program H hlives hprovided
    have hstalls : program.StallsAfter fun _ => False :=
      stallsAfter_expand (Command.stallsAfter_list firmware) Hub.stallsAfter_answer hub
    obtain ⟨⟨result, hub'⟩, hrun⟩ := hstalls.exists_finished hlives
    obtain ⟨contents, devices, found, readings, H₁, H₂, hlength, hhistory, hopen, hshown, rfl, rfl⟩ :=
      finishes_onBus_list hprovided (finishes_history hrun)
    refine ⟨contents, devices, found, readings, H₁, H₂, hlength, hshown.length_eq, hrun, hhistory,
      found_of_openAll hopen, hshown, ?_⟩
    have hquiet : output H₁ = [] := output_eq_nil (((only_openAll devices).mono Looking.silent).calls hopen.begins)
    rw [hhistory, output_append, output_readings, List.nil_append, ← hshown.output_eq]
    show output (H₁ ++ H₂) = _
    rw [output_append, hquiet, List.nil_append]

end Command

/-! ## A bus with all kinds of devices -/

namespace Mixed

/-- A device of the supported vendor; its serial number is in the string 3. -/
def device (id : Nat) (product : UInt16) : Device :=
  ⟨id, some { vendor := vendorId, product, productString? := none, serialString? := some 3 }⟩

/-- A device without a descriptor, one of another vendor, and four cameras. -/
def population : List Device :=
  [⟨0, none⟩, ⟨1, some { vendor := 0x046D, product := 0x0B07, productString? := none, serialString? := none }⟩,
    device 2 0x0B07, device 3 0x0B07, device 4 0x0B07, device 5 0x0AB3]

/-- A bus on which the device 2 cannot be opened, and the device 4 answers nothing once it is open. -/
def world : Environment (bus.sum host) Unit
  | .inl .list, s => (some (.ok population), s)
  | .inl (.open d), s => (some (if d.id = 2 then .error .access else .ok ⟨d.id⟩), s)
  | .inl (.string h _), s => (some (if h.id = 4 then .error .io else .ok [0x39, 0x31, 0x37]), s)
  | .inl (.configuration _), s => (some (.ok [[⟨4, vendorSpecific, [⟨0x01, 2⟩, ⟨0x82, 2⟩]⟩]]), s)
  | .inl (.autoDetach _ _), s | .inl (.claim _ _), s => (some (.ok ()), s)
  | .inl (.bulkOut h _ _ _), s => (some (if h.id = 4 then .error .timeout else .ok ()), s)
  | .inl (.bulkIn _ _ _ _), s =>
    (some (.ok (littleEndian 4 Monitor.versionData.toNat ++ List.replicate 12 0 ++ littleEndian 4 0x05090000)), s)
  | .inl (.close _), s | .inr (.log _), s | .inr (.print _), s => (some (), s)
  | .inr (.readFile _), s => (some (.ok (Command.revised 0x050A0000)), s)
  | _, s => (none, s)

/-- The listing with a catalog. -/
def program : BusAction (Except CommandError Unit × Hub) := Hub.onBus (Command.list [(.d400, "image")]).run {}

/-- The numbers of the devices of some cameras. -/
def ids (found : List UsbCamera) : List Nat := found.map fun c => c.device.id

def result? {α : Type} : Ending α → Option α
  | .finished a => some a
  | _ => none

/-- Whether the list of the devices or a file is missing. -/
def missing : Event (bus.sum host) → Bool
  | ⟨.inl .list, some (.error _)⟩ | ⟨.inr (.readFile _), some (.error _)⟩ => true
  | _ => false

end Mixed

open Mixed in
/-- Three of six devices are found, and the failures of the second one among them cost it no more
than its own entries. -/
theorem listing_is_complete_mixed :
    (∃ found H, (Hub.listCameras.run world ()).1 = .finished (.ok found) ∧ Found population found H ∧
      ids found = [3, 4, 5]) ∧
    ∃ devices found H, (program.run world ()).1 = .finished (.ok (), ⟨found⟩) ∧ Found devices found H ∧
      ids found = [3, 4, 5] ∧
      output (program.history world ()) =
        ["Intel RealSense D400", "  Mode:     normal", "  Line:     D400", "  Serial:   917",
          "  Firmware: 5.9.0.0", "  Catalog:  5.10.0.0 (upgrade recommended)", "",
        "Intel RealSense D400", "  Mode:     normal", "  Line:     D400", "  Serial:   unknown",
        "  Firmware: unknown", "  Catalog:  5.10.0.0 (current version unknown)", "",
        "Intel RealSense SR300", "  Mode:     recovery", "  Line:     SR300", "  Serial:   unknown",
        "  Firmware: unknown", ""] := by
  constructor
  · obtain ⟨found, H, hrun, -, hfound⟩ := (listing_is_complete world ()).1 population rfl (by decide +kernel)
    have hids : (result? (Hub.listCameras.run world ()).1).map (Except.map ids) =
        some (.ok [3, 4, 5]) := by decide +kernel
    rw [hrun] at hids
    exact ⟨found, H, hrun, hfound, Except.ok.inj (Option.some.inj hids)⟩
  · have hids : (result? (program.run world ()).1).map (fun r => ids r.2.known) =
        some [3, 4, 5] := by decide +kernel
    have hlives : (program.run world ()).1 ≠ .panicked := fun hpanicked => by
      rw [hpanicked] at hids
      cases hids
    have hmissing : ∀ e ∈ program.history world (), missing e = false := by decide +kernel
    have hprovided : Provided (program.history world ()) :=
      ⟨fun e he => Bool.noConfusion (hmissing _ he), fun path e he => Bool.noConfusion (hmissing _ he)⟩
    obtain ⟨contents, devices, found, readings, H₁, H₂, -, -, hrun, -, hfound, -, -⟩ :=
      (listing_is_complete world ()).2 {} [(.d400, "image")] hlives hprovided
    have hknown : (program.run world ()).1 = .finished (.ok (), ⟨found⟩) := hrun
    rw [hknown] at hids
    exact ⟨devices, found, H₁, hknown, hfound, Option.some.inj hids, by decide +kernel⟩

end Reflash.Usb
