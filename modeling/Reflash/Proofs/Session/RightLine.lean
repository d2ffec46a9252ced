import Reflash.Proofs.Session.RightUnit

/-!
# Reflash.Proofs.Session.RightLine — the product line of what is programmed

An image is checked against the line of the camera with which a session begins, and a unit is found again by its
identity and mode, not by its line.  So what a session programs is of the image's line, unless a camera of
another line passes for the unit (`PassesFor`), which takes a camera that reports the very identity of the unit
(`image_goes_to_its_line`); and such a camera is programmed (`image_not_always_to_its_line`).
-/

namespace Reflash

open Program

theorem FirmwareImage.line_of_validate {image : FirmwareImage} {c : DeviceClass}
    (hvalid : image.validate c = .ok ()) :
    c.line = image.line := by
  unfold validate at hvalid
  split_ifs at hvalid with hempty hline
  exact Decidable.not_not.mp hline

namespace Session

variable {config : UpdateConfig} {image : FirmwareImage} {camera target : Camera}
  {channel : ControlChannel} {h h' : History}

/-- Whether `target` passes for `camera`: since the restart of `camera` it was listed, and reported the identity
that `camera` had reported before. -/
def PassesFor (camera target : Camera) (h : History) : Prop :=
  ∃ identity before after listing, h = before ++ .asked (.enterRecovery camera) (some (.ok ())) :: after ∧
    Identified camera identity before ∧ .asked .list (some (.ok listing)) ∈ after ∧ target ∈ listing ∧
    Identified target identity after

theorem PassesFor.append_right (hp : PassesFor camera target h) : PassesFor camera target (h ++ h') := by
  obtain ⟨identity, before, after, listing, rfl, hid, hlist, hmem, hid'⟩ := hp
  exact ⟨identity, before, after ++ h',
    listing, by simp, hid, List.mem_append_left h' hlist, hmem, hid'.append_right⟩

/-- The right unit is in recovery mode, and it is the camera of the session or passes for it. -/
theorem RightUnit.passesFor (hr : RightUnit config camera target h) : target.kind.isRecovery = true ∧
    (target = camera ∨ camera.kind.isRecovery = false ∧ PassesFor camera target h) := by
  rcases hr with ⟨hmode, rfl⟩ | ⟨hmode, identity, before, pre, search, post, rfl, -, hid, -, -, hfinds, -⟩
  · exact ⟨hmode, .inl rfl⟩
  · obtain ⟨pre', listing, post', rfl, hmem, haccepts, hid'⟩ := hfinds.listed
    refine ⟨haccepts, .inr ⟨hmode, identity, before, _, listing, rfl, hid, by simp, hmem, ?_⟩⟩
    rw [List.append_cons pre']
    exact hid'.append_left.append_right.append_left

/-- Whatever the listings show, every transfer of a session goes to a camera on which its channel was opened
before, and that camera is in recovery mode and of the line of the image; or the session has restarted its
camera, and the other one passes for it. -/
theorem image_goes_to_its_line {σ : Type} (env : Environment (cameras.sum host) σ) (s : σ) {session : Action Unit}
    (hstart : start config camera image = .ok session) {before after : History}
    {packet : ControlPacket} {timeout : Nanos} {a? : Option (Except LinkError ControlPacket)}
    (hsent : session.history env s = before ++ .asked (.transfer channel packet timeout) a? :: after) :
    (∃ target, .asked (.openControl target) (some (.ok channel)) ∈ before) ∧
    ∀ target, .asked (.openControl target) (some (.ok channel)) ∈ before → target.kind.isRecovery = true ∧
      (target.kind.line = image.line ∨ camera.kind.isRecovery = false ∧ PassesFor camera target before) := by
  obtain ⟨hvalid, -, rfl⟩ := start_eq_ok.mp hstart
  have hb := begins_history env (run config image camera) s
  rw [hsent, List.append_cons] at hb
  refine ⟨opened_of_begins hb.of_append, fun target hopen => ?_⟩
  obtain ⟨early, late, rfl⟩ := List.append_of_mem hopen
  rw [List.append_assoc, List.append_assoc, List.cons_append, List.append_cons] at hb
  obtain ⟨hmode, rfl | ⟨hnormal, hpasses⟩⟩ := (rightUnit_of_begins hb.of_append).passesFor
  · exact ⟨hmode, .inl (FirmwareImage.line_of_validate hvalid)⟩
  · exact ⟨hmode, .inr ⟨hnormal, hpasses.append_right⟩⟩

/-! ## Another camera -/

/-- The camera of the other line that passes for the unit in `otherLine`. -/
def otherCamera : Camera := ⟨1, ⟨.sr300, .recovery⟩, "unit"⟩

/-- A world in which another camera appears once the unit is restarted, and reports the identity of the unit. -/
def otherLine : Environment (cameras.sum host) Obliging
  | .inl (.enterRecovery _), o => (some (.ok ()), { o with camera := otherCamera })
  | c, o => Obliging.world c o

theorem sent_otherLine : .asked (.transfer ⟨0⟩ (.download 0 Obliging.image.data) defaultRequestTimeout)
    (some (.ok (.download 0 Obliging.image.data))) ∈
      (run Obliging.config Obliging.image Obliging.unit).history otherLine { camera := Obliging.unit } := by
  decide +kernel

theorem opened_otherLine :
    ∀ e ∈ (run Obliging.config Obliging.image Obliging.unit).history otherLine { camera := Obliging.unit },
    kindOf e.call = .openControl → e = .asked (.openControl otherCamera) (some (.ok ⟨0⟩)) := by
  decide +kernel

theorem target_otherLine {target : Camera} (hopen : .asked (.openControl target) (some (.ok channel)) ∈
    (run Obliging.config Obliging.image Obliging.unit).history otherLine { camera := Obliging.unit }) :
    target = otherCamera := by
  have heq := opened_otherLine _ hopen rfl
  cases heq
  rfl

/-- A unit that was in recovery mode from the start, and a camera that passes for the unit. -/
theorem image_goes_to_its_line_others :
    let direct : Camera := ⟨0, ⟨.d400, .recovery⟩, "unit"⟩
    (∃ before after target,
      (run Obliging.config Obliging.image direct).history Obliging.world { camera := direct } =
        before ++ .asked (.transfer ⟨0⟩ (.download 0 Obliging.image.data) defaultRequestTimeout)
          (some (.ok (.download 0 Obliging.image.data))) :: after ∧
      .asked (.openControl target) (some (.ok ⟨0⟩)) ∈ before ∧ target.kind.line = Obliging.image.line) ∧
    ∃ before, PassesFor Obliging.unit otherCamera before := by
  intro direct
  constructor
  · have hstart : start Obliging.config direct Obliging.image = .ok (run Obliging.config Obliging.image direct) :=
      start_eq_ok.mpr ⟨by decide +kernel, .inl rfl, rfl⟩
    have hsent : .asked (.transfer ⟨0⟩ (.download 0 Obliging.image.data) defaultRequestTimeout)
        (some (.ok (.download 0 Obliging.image.data))) ∈
          (run Obliging.config Obliging.image direct).history Obliging.world { camera := direct } := by
          decide +kernel
    obtain ⟨before, after, hsplit⟩ := List.append_of_mem hsent
    obtain ⟨⟨target, hopen⟩, hline⟩ := image_goes_to_its_line Obliging.world _ hstart hsplit
    exact ⟨before, after, target, hsplit, hopen,
      (hline target hopen).2.resolve_right fun h => Bool.noConfusion h.1⟩
  · obtain ⟨before, after, hsplit⟩ := List.append_of_mem sent_otherLine
    obtain ⟨⟨target, hopen⟩, hline⟩ := image_goes_to_its_line otherLine _ start_obliging hsplit
    obtain rfl := target_otherLine (hsplit ▸ List.mem_append_left _ hopen)
    exact ⟨before, ((hline _ hopen).2.resolve_left (by decide)).2⟩

/-- So an image does not always go to its line, although the unit itself is of that line. -/
theorem image_not_always_to_its_line : ¬ ∀ (σ : Type) (env : Environment (cameras.sum host) σ) (s : σ)
    (config : UpdateConfig) (image : FirmwareImage) (camera : Camera) (session : Action Unit)
    (before after : History) (channel : ControlChannel) (packet : ControlPacket) (timeout : Nanos)
    (a? : Option (Except LinkError ControlPacket)),
    start config camera image = .ok session →
    session.history env s = before ++ .asked (.transfer channel packet timeout) a? :: after →
    packet.IsDownload → packet.payload ≠ [] →
    ∀ target, .asked (.openControl target) (some (.ok channel)) ∈ before → target.kind.line = image.line := by
  intro hline
  have hb := begins_history otherLine (run Obliging.config Obliging.image Obliging.unit)
    { camera := Obliging.unit }
  obtain ⟨before, after, hsplit⟩ := List.append_of_mem sent_otherLine
  rw [hsplit, List.append_cons] at hb
  obtain ⟨target, hopen⟩ := opened_of_begins hb.of_append
  have heq := hline Obliging otherLine _ _ _ _ _ before after _ _ _ _ start_obliging hsplit rfl
    (by decide +kernel) target hopen
  obtain rfl := target_otherLine (hsplit ▸ List.mem_append_left _ hopen)
  exact absurd heq (by decide)

end Session

end Reflash
