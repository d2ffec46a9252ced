import Reflash.Proofs.Usb.Calls

/-!
# Reflash.Proofs.Usb.Refusals — cameras that say they have no hardware monitor

A hub never forgets a camera or the way to its hardware monitor (`Hub.Knows.of_answer`).  So a camera that was
listed with a monitor has one; if it says that it has none, then it could not be opened, or its interface not be
claimed, just then (`refused_of_offerMonitor`).
-/

namespace Reflash

open Program

namespace Usb

variable {H : BusHistory}

/-! ## What a hub knows -/

/-- The same unit with the same way to its monitor; whether the channel is open may differ. -/
def SameUnit (c c' : UsbCamera) : Prop := c'.device = c.device ∧ c'.endpoints? = c.endpoints?

section SameUnit

variable (c : UsbCamera)

theorem sameUnit_monitor : c.monitor.Yields fun r => SameUnit c r.2 := by
  unfold UsbCamera.monitor
  split
  · exact ⟨rfl, rfl⟩
  · refine yields_bind_of_forall fun opened => ?_
    split <;> exact ⟨rfl, rfl⟩

theorem sameUnit_offerMonitor : c.offerMonitor.Yields fun r => SameUnit c r.2 := by
  refine yields_bind (sameUnit_monitor c) fun opened hsame => ?_
  split
  · exact hsame
  · exact yields_bind_of_forall fun _ => hsame

theorem sameUnit_enterRecovery : c.enterRecovery.Yields fun r => SameUnit c r.2 := by
  unfold UsbCamera.enterRecovery
  split
  · exact ⟨rfl, rfl⟩
  refine yields_bind (sameUnit_monitor c) fun opened hsame => ?_
  split
  · exact hsame
  refine yields_bind_of_forall fun written => ?_
  split
  all_goals try exact hsame
  all_goals
    refine yields_bind_of_forall fun read => ?_
    split
    · exact hsame
    · exact yields_bind_of_forall fun _ => hsame

end SameUnit

namespace Hub

/-- A hub knows a camera, and the way to its hardware monitor. -/
def Knows (hub : Hub) (camera : Camera) (device : Device) (endpoints : MonitorEndpoints) : Prop :=
  ∃ c, hub.known[camera.id]? = some c ∧ c.device = device ∧ c.endpoints? = some endpoints

variable {hub : Hub} {camera : Camera} {device : Device} {endpoints : MonitorEndpoints}

theorem Knows.update (hk : hub.Knows camera device endpoints) {id : Nat} {c c' : UsbCamera}
    (hc : hub.known[id]? = some c) (hsame : SameUnit c c') : (hub.update id c').Knows camera device endpoints := by
  obtain ⟨known, hknown, rfl, hendpoints⟩ := hk
  by_cases hid : id = camera.id
  · subst hid
    obtain rfl : c = known := Option.some.inj (hc.symm.trans hknown)
    refine ⟨c', ?_, hsame.1, hsame.2.trans hendpoints⟩
    have hlt := (List.getElem?_eq_some_iff.mp hc).1
    simp [Hub.update, hlt]
  · exact ⟨known, by simp [Hub.update, hid, hknown], rfl, hendpoints⟩

/-- No call makes a hub forget a camera. -/
theorem knows_answer (hk : hub.Knows camera device endpoints) (c : (cameras.sum host).Call) :
    (hub.answer c).Yields fun r => r.2.Knows camera device endpoints := by
  rcases c with c | c
  · rw [Hub.answer]
    cases c with
    | list =>
      refine yields_bind_of_forall fun found => ?_
      split
      · exact hk
      · obtain ⟨c, hknown, hc⟩ := hk
        exact ⟨c, List.getElem?_append_left (List.getElem?_eq_some_iff.mp hknown).1 ▸ hknown, hc⟩
    | openMonitor c =>
      rw [Hub.serve]
      split
      · exact yields_bind (sameUnit_offerMonitor _) fun r hsame => hk.update ‹_› hsame
      · exact hk
    | enterRecovery c =>
      rw [Hub.serve]
      split
      · exact yields_bind (sameUnit_enterRecovery _) fun r hsame => hk.update ‹_› hsame
      · exact hk
    | openControl c =>
      rw [Hub.serve]
      split
      · refine yields_bind_of_forall fun handle => ?_
        split <;> exact hk
      · exact hk
    | sensors c => exact hk
    | transfer channel packet timeout => exact yields_bind_of_forall fun _ => hk
    | _ =>
      rw [Hub.serve]
      split
      · exact yields_bind_of_forall fun _ => hk
      · exact hk
  · exact yields_bind_of_forall fun _ => hk

end Hub

/-! ## Refusals -/

/-- The device could not be opened, or its interface not be claimed. -/
inductive Refused (device : Device) (interface : UInt8) (H : BusHistory) : Prop
  | opening {e : UsbError} : .onBus (.open device) (some (.error e)) ∈ H → Refused device interface H
  | claiming {h : Handle} {e : UsbError} : .onBus (.open device) (some (.ok h)) ∈ H →
    .onBus (.claim h interface) (some (.error e)) ∈ H → Refused device interface H

theorem Refused.mono {device : Device} {interface : UInt8} {H H' : BusHistory} (hr : Refused device interface H)
    (hsub : H ⊆ H') : Refused device interface H' := by
  cases hr with
  | opening h => exact .opening (hsub h)
  | claiming h h' => exact .claiming (hsub h) (hsub h')

variable {c c' : UsbCamera} {endpoints : MonitorEndpoints}

theorem refused_of_claim {interface : UInt8} {e : LinkError} (hf : (c.claim interface).Finishes H (.error e)) :
    Refused c.device interface H := by
  simp only [UsbCamera.claim, bind_eq, finishes_bind, finishes_ask] at hf
  obtain ⟨opened, H₁, H₂, rfl, rfl, hf⟩ := hf
  rcases opened with e' | handle
  · exact .opening (e := e') (by simp)
  simp only [finishes_bind, finishes_ask] at hf
  obtain ⟨u, H₃, H₄, rfl, -, claimed, H₅, H₆, rfl, rfl, hf⟩ := hf
  rcases claimed with e' | u'
  · exact .claiming (h := handle) (e := e') (by simp) (by simp)
  · obtain ⟨u'', H₇, H₈, rfl, -, hf⟩ := finishes_bind.mp hf
    cases (finishes_done.mp hf).2

theorem refused_of_openMonitor {e : LinkError} (hendpoints : c.endpoints? = some endpoints)
    (hf : c.openMonitor.Finishes H (.error e)) : Refused c.device endpoints.interface H := by
  rw [UsbCamera.openMonitor, hendpoints] at hf
  obtain ⟨claimed, H₁, H₂, rfl, hclaim, hf⟩ := finishes_bind.mp hf
  rcases claimed with e' | handle
  · exact (refused_of_claim hclaim).mono (List.subset_append_left H₁ H₂)
  · cases (finishes_done.mp hf).2

/-- A camera that has a hardware monitor offers it, unless it is refused. -/
theorem refused_of_offerMonitor (hendpoints : c.endpoints? = some endpoints)
    (hf : c.offerMonitor.Finishes H (false, c')) : Refused c.device endpoints.interface H := by
  obtain ⟨⟨opened, c''⟩, H₁, H₂, rfl, hmonitor, hf⟩ := finishes_bind.mp hf
  rcases opened with e | m
  · refine Refused.mono ?_ (List.subset_append_left H₁ H₂)
    unfold UsbCamera.monitor at hmonitor
    split at hmonitor
    · cases (finishes_done.mp hmonitor).2
    · obtain ⟨opened, H₃, H₄, rfl, hopen, hmonitor⟩ := finishes_bind.mp hmonitor
      rcases opened with e' | m
      · exact (refused_of_openMonitor hendpoints hopen).mono (List.subset_append_left H₃ H₄)
      · cases (finishes_done.mp hmonitor).2
  · cases (finishes_done.mp hf).2

end Usb

end Reflash
