import Reflash.Proofs.Rules
import Reflash.Proofs.Usb.Calls

/-!
# Reflash.Proofs.Usb.Listed — the cameras of a hub, and where their handles come from

`OpenOn past h d` says that by the calls so far the handle `h` stands for the device `d`: the last opening
that gave out `h` opened `d`, and `h` has not been closed since.  Whatever a camera claims is claimed on such
a handle (`openOn_of_claim`).  A camera is `ListedIn` the calls so far if its own handle was opened in them
and it is of the class that its descriptor shows; until a hardware monitor is opened for good a hub knows only
such cameras (`Hub.listed_of_finishes`).  `transferRule` is the rule of a footprint of transfers that may
depend on the calls before.
-/

namespace Reflash

open Program

namespace Usb

/-- The class that a device shows by its descriptor. -/
def Device.kind? (d : Device) : Option DeviceClass := d.descriptor?.bind fun x => classify x.vendor x.product

variable {past H : BusHistory} {h : Handle} {d : Device} {c c' : UsbCamera} {m : MonitorChannel}

/-! ## Handles -/

/-- A handle was opened on a device, and since then neither closed nor given out again. -/
def OpenOn (past : BusHistory) (h : Handle) (d : Device) : Prop :=
  ∃ past₁ past₂, past = past₁ ++ .onBus (.open d) (some (.ok h)) :: past₂ ∧
    (∀ d', .onBus (.open d') (some (.ok h)) ∉ past₂) ∧ ∀ a?, .onBus (.close h) a? ∉ past₂

/-- The calls that open no handle and close none. -/
def Steady : (bus.sum host).Call → Prop
  | .inl (.open _) | .inl (.close _) => False
  | _ => True

theorem openOn_opened (hH : ∀ e ∈ H, Steady e.call) : OpenOn (past ++ .onBus (.open d) (some (.ok h)) :: H) h d :=
  ⟨past, H, rfl, fun _ he => hH _ he, fun _ he => hH _ he⟩

theorem OpenOn.append (ho : OpenOn past h d) (hH : ∀ e ∈ H, Steady e.call) : OpenOn (past ++ H) h d := by
  obtain ⟨past₁, past₂, rfl, hopen, hclose⟩ := ho
  refine ⟨past₁, past₂ ++ H, by simp, fun d' he => ?_, fun a? he => ?_⟩
  · exact (List.mem_append.mp he).elim (hopen d') (hH _)
  · exact (List.mem_append.mp he).elim (hclose a?) (hH _)

theorem openOn_of_claimTried {interface : UInt8} (ht : ClaimTried d interface H (some h)) :
    OpenOn (past ++ H) h d := by
  cases ht
  exact openOn_opened (by simp [Steady])

theorem openOn_of_claim {interface : UInt8} (hf : (c.claim interface).Finishes H (.ok h)) :
    OpenOn (past ++ H) h c.device :=
  openOn_of_claimTried (finishes_claim hf)

theorem openOn_of_openMonitor (hf : c.openMonitor.Finishes H (.ok m)) : OpenOn (past ++ H) m.handle c.device := by
  rcases finishes_openMonitor hf with ⟨-, -, hnone⟩ | ⟨endpoints, -, ht⟩
  · cases hnone
  · exact openOn_of_claimTried ht

/-- A camera that has no channel of its monitor open, and offers one, has opened it on its own device. -/
theorem finishes_offerMonitor (hnone : c.monitor? = none) {offered : Bool}
    (hf : c.offerMonitor.Finishes H (offered, c')) : offered = false ∧ c' = c ∨
      ∃ m, offered = true ∧ c' = { c with monitor? := some m } ∧ OpenOn (past ++ H) m.handle c.device := by
  obtain ⟨⟨opened, c''⟩, H₁, H₂, rfl, hmonitor, hoffer⟩ := finishes_bind.mp hf
  obtain ⟨hopen, rfl⟩ := finishes_monitor hnone hmonitor
  rcases opened with e | m
  · obtain ⟨u, H₅, H₆, rfl, -, hend⟩ := finishes_bind.mp hoffer
    obtain ⟨-, heq⟩ := finishes_done.mp hend
    obtain ⟨rfl, rfl⟩ := Prod.mk.inj heq
    exact .inl ⟨rfl, by simp [Except.toOption, ← hnone]⟩
  · obtain ⟨rfl, heq⟩ := finishes_done.mp hoffer
    obtain ⟨rfl, rfl⟩ := Prod.mk.inj heq
    exact .inr ⟨m, rfl, rfl, by simpa using openOn_of_openMonitor hopen⟩

/-! ## Listings -/

/-- A camera as a listing among the calls so far found it: its handle was opened then, and it is of the class
that its descriptor shows. -/
structure UsbCamera.ListedIn (past : BusHistory) (c : UsbCamera) : Prop where
  descriptor : c.device.descriptor? = some c.descriptor
  kind : classify c.descriptor.vendor c.descriptor.product = some c.kind
  opened : .onBus (.open c.device) (some (.ok c.handle)) ∈ past
  closed : c.monitor? = none

theorem UsbCamera.ListedIn.kind? (hc : c.ListedIn past) : c.device.kind? = some c.kind := by
  rw [Device.kind?, hc.descriptor]
  exact hc.kind

theorem UsbCamera.ListedIn.mono {past' : BusHistory} (hc : c.ListedIn past) (hsub : past ⊆ past') :
    c.ListedIn past' :=
  { hc with opened := hsub hc.opened }

theorem listedIn_of_ofDevice {descriptor : Descriptor} {kind : DeviceClass}
    (hdescriptor : d.descriptor? = some descriptor)
    (hkind : classify descriptor.vendor descriptor.product = some kind)
    (hf : (UsbCamera.ofDevice d descriptor kind).Finishes H (.ok c)) : c.ListedIn H := by
  rcases finishes_ofDevice hf with ⟨e, -, herror⟩ | ⟨c', H', rfl, -, hok, hopened⟩
  · cases herror
  obtain rfl := Except.ok.inj hok
  refine ⟨?_, ?_, by simp [hopened.onDevice], hopened.closed⟩
  · rw [hopened.onDevice, hopened.described, hdescriptor]
  · rw [hopened.described, hopened.classed, hkind]

/-- A device of a listing is passed over, or it is tried to be opened and the camera is in the
listing if that went well. -/
theorem finishes_openAll_cons {rest : List Device} {found : List UsbCamera}
    (hf : (Hub.openAll (d :: rest)).Finishes H found) :
    (d.kind? = none ∧ (Hub.openAll rest).Finishes H found) ∨
    ∃ descriptor kind, d.descriptor? = some descriptor ∧
      classify descriptor.vendor descriptor.product = some kind ∧
      ((∃ e note H', H = .onBus (.open d) (some (.error e)) :: .onHost (.log note) (some ()) :: H' ∧
          (Hub.openAll rest).Finishes H' found) ∨
        ∃ c others H₁ H₂, found = c :: others ∧ H = H₁ ++ H₂ ∧
          (UsbCamera.ofDevice d descriptor kind).Finishes H₁ (.ok c) ∧ (Hub.openAll rest).Finishes H₂ others) := by
  unfold Hub.openAll at hf
  split at hf
  · rename_i hnone
    exact .inl ⟨by rw [Device.kind?, hnone, Option.bind_none], hf⟩
  rename_i descriptor hdescriptor
  split at hf
  · rename_i hnone
    exact .inl ⟨by rw [Device.kind?, hdescriptor, Option.bind_some, hnone], hf⟩
  rename_i kind hkind
  refine .inr ⟨descriptor, kind, hdescriptor, hkind, ?_⟩
  obtain ⟨opened, H₁, H₂, rfl, hopened, hnext⟩ := finishes_bind.mp hf
  rcases opened with e | c
  · obtain ⟨u, H₃, H₄, rfl, hnote, hrest⟩ := finishes_bind.mp hnext
    obtain rfl := finishes_perform.mp hnote
    rcases finishes_ofDevice hopened with ⟨e', rfl, -⟩ | ⟨c, H', -, -, hok, -⟩
    · exact .inl ⟨e', _, H₄, rfl, hrest⟩
    · cases hok
  · obtain ⟨others, H₃, H₄, rfl, hrest, hend⟩ := finishes_bind.mp hnext
    obtain ⟨rfl, rfl⟩ := finishes_done.mp hend
    exact .inr ⟨c, others, H₁, H₃, rfl, by rw [List.append_nil], hopened, hrest⟩

theorem listedIn_of_openAll {devices : List Device} {found : List UsbCamera}
    (hf : (Hub.openAll devices).Finishes H found) :
    ∀ c ∈ found, c.ListedIn H := by
  induction devices generalizing H found with
  | nil =>
    obtain ⟨-, rfl⟩ := finishes_done.mp hf
    exact List.forall_mem_nil _
  | cons device rest ih =>
    rcases finishes_openAll_cons hf with ⟨-, hrest⟩ | ⟨descriptor, kind, hdescriptor, hkind, hopening⟩
    · exact ih hrest
    rcases hopening with ⟨e, note, H', rfl, hrest⟩ | ⟨c, others, H₁, H₂, rfl, rfl, hopened, hrest⟩
    · exact fun c hc => (ih hrest c hc).mono fun e he => by simp [he]
    · refine List.forall_mem_cons.mpr ⟨?_, fun c' hc' => (ih hrest c' hc').mono (List.subset_append_right ..)⟩
      exact (listedIn_of_ofDevice hdescriptor hkind hopened).mono (List.subset_append_left ..)

/-- A listing fails only if the bus has no list of its devices. -/
theorem finishes_listCameras {result : Except LinkError (List UsbCamera)}
    (hf : Hub.listCameras.Finishes H result) :
    (∃ e, H = [.onBus .list (some (.error e))] ∧ result = .error (e.toLinkError 0)) ∨
    ∃ devices found H', H = .onBus .list (some (.ok devices)) :: H' ∧ result = .ok found ∧
      (Hub.openAll devices).Finishes H' found := by
  simp only [Hub.listCameras, bind_eq, finishes_bind, finishes_ask] at hf
  obtain ⟨devices, H₁, H₂, rfl, rfl, hf⟩ := hf
  rcases devices with e | devices
  · obtain ⟨rfl, rfl⟩ := finishes_done.mp hf
    exact .inl ⟨e, rfl, rfl⟩
  obtain ⟨found, H₃, H₄, rfl, hopen, hf⟩ := finishes_bind.mp hf
  obtain ⟨rfl, rfl⟩ := finishes_done.mp hf
  exact .inr ⟨devices, found, H₃, by simp, rfl, hopen⟩

namespace Hub

variable {hub hub' : Hub}

/-- A hub whose cameras are as they were listed. -/
def Listed (hub : Hub) (past : BusHistory) : Prop := ∀ c ∈ hub.known, c.ListedIn past

theorem Listed.mono {past' : BusHistory} (hl : hub.Listed past) (hsub : past ⊆ past') : hub.Listed past' :=
  fun c hc => (hl c hc).mono hsub

theorem Listed.of_get {id : Nat} (hl : hub.Listed past) (hc : hub.known[id]? = some c) : c.ListedIn past :=
  hl c (List.mem_of_getElem? hc)

/-- A listing adds the cameras it found behind those that are known. -/
theorem finishes_answer_list {found? : Except LinkError (List Camera)}
    (hf : (hub.answer (.inl .list)).Finishes H (found?, hub')) :
    (∃ e, H = [.onBus .list (some (.error e))] ∧ found? = .error (e.toLinkError 0) ∧ hub' = hub) ∨
    ∃ devices found H', H = .onBus .list (some (.ok devices)) :: H' ∧
      found? = .ok (number hub.known.length found) ∧
      hub' = ⟨hub.known ++ found⟩ ∧ (openAll devices).Finishes H' found := by
  obtain ⟨listed, H₁, H₂, rfl, hlist, hend⟩ := finishes_bind.mp hf
  rcases finishes_listCameras hlist with ⟨e, rfl, rfl⟩ | ⟨devices, found, H', rfl, rfl, hopen⟩
  all_goals
    obtain ⟨rfl, heq⟩ := finishes_done.mp hend
    obtain ⟨rfl, rfl⟩ := Prod.mk.inj heq
    rw [List.append_nil]
  · exact .inl ⟨e, rfl, rfl, rfl⟩
  · exact .inr ⟨devices, found, H', rfl, rfl, rfl, hopen⟩

theorem mem_number {camera : Camera} {first : Nat} {found : List UsbCamera} (hmem : camera ∈ number first found) :
    ∃ i c, camera.id = first + i ∧ found[i]? = some c ∧ c.kind = camera.kind := by
  induction found generalizing first with
  | nil => cases hmem
  | cons c found ih =>
    rcases List.mem_cons.mp hmem with rfl | hmem
    · exact ⟨0, c, rfl, rfl, rfl⟩
    · obtain ⟨i, c', hid, hget, hkind⟩ := ih hmem
      exact ⟨i + 1, c', by omega, by simpa using hget, hkind⟩

/-- Only a listing, and what opens a hardware monitor for good, change what a hub knows. -/
theorem same_answer (hub : Hub) (c : (cameras.sum host).Call)
    (hkind : kindOf c ∉ [.list, .openMonitor, .restart]) :
    (hub.answer c).Yields fun r => r.2 = hub := by
  rcases c with c | c
  · rw [Hub.answer]
    cases c with
    | list | openMonitor c | enterRecovery c => simp at hkind
    | openControl c =>
      rw [Hub.serve]
      split
      · refine yields_bind_of_forall fun handle => ?_
        split <;> rfl
      · rfl
    | sensors c => rfl
    | transfer channel packet timeout => exact yields_bind_of_forall fun _ => rfl
    | _ =>
      rw [Hub.serve]
      split
      · exact yields_bind_of_forall fun _ => rfl
      · rfl
  · exact yields_bind_of_forall fun _ => rfl

theorem listed_of_finishes {c : (cameras.sum host).Call} {a : (cameras.sum host).Answer c} (hl : hub.Listed past)
    (hkind : kindOf c ∉ [.openMonitor, .restart]) (hf : (hub.answer c).Finishes H (a, hub')) :
    hub'.Listed (past ++ H) := by
  have hpast := hl.mono (List.subset_append_left past H)
  by_cases hlist : kindOf c = .list
  · obtain rfl : c = .inl .list := by
      rcases c with c | c
      · cases c <;> simp at hlist ⊢
      · cases c <;> simp at hlist
        split at hlist <;> cases hlist
    rcases finishes_answer_list hf with ⟨e, -, -, rfl⟩ | ⟨devices, found, H', rfl, -, rfl, hopen⟩
    · exact hpast
    · intro c hc
      rcases List.mem_append.mp hc with hc | hc
      · exact hpast c hc
      · exact (listedIn_of_openAll hopen c hc).mono fun e he => by simp [he]
  · have hsame : hub' = hub := (same_answer hub c (by simp_all)).of_finishes hf
    exact hsame ▸ hpast

end Hub

/-! ## Transfers by the calls before -/

/-- The rule that lets transfers pass by the calls before. -/
def transferRule (Q : BusHistory → Handle → Bytes → Prop) (K : BusHistory → Handle → ControlPacket → Prop) :
    Rule (bus.sum host) BusHistory := .ofPast fun past => Transfers (Q past) (K past)

section TransferRule

variable {α : Type} {Q : BusHistory → Handle → Bytes → Prop} {K : BusHistory → Handle → ControlPacket → Prop}
  {p : BusAction α} {post : α → BusHistory → Prop}

theorem obeys_quiet (hp : p.Only Quiet) : p.Obeys (transferRule Q K) (fun _ _ => True) past := by
  refine obeys_of_only (hp.mono fun c hc past' _ => ⟨?_, fun _ => trivial⟩) trivial
  exact Transfers.mono (fun _ _ => False.elim) (fun _ _ => False.elim) c hc

theorem obeys_transfers_of_finishes (hp : p.Obeys (transferRule Q K) (fun _ _ => True) past)
    (hpost : ∀ H a, p.Finishes H a → post a (past ++ H)) : p.Obeys (transferRule Q K) post past :=
  obeys_of_finishes hp fun H a hf => by
    rw [transferRule, Rule.after_ofPast]
    exact hpost H a hf

/-- What steady calls are allowed while a handle is open, they are allowed one after another. -/
theorem keeps_openOn {call : (bus.sum host).Call} (hsteady : Steady call)
    (hallows : ∀ past', past <+: past' → OpenOn past' h d → Transfers (Q past') (K past') call) :
    (transferRule Q K).Keeps (fun past' => past <+: past' ∧ OpenOn past' h d) call := by
  rintro past' ⟨hpast, hopen⟩
  refine ⟨hallows past' hpast hopen, fun answer => ⟨?_, ?_⟩⟩
  · exact hpast.trans (List.prefix_append past' _)
  · exact hopen.append (by simpa using hsteady)

end TransferRule

end Usb

end Reflash
