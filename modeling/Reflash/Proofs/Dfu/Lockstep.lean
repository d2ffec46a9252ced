import Reflash.Proofs.Dfu.Wire

/-!
# Reflash.Proofs.Dfu.Lockstep — one download is outstanding at a time

A download follows a plan, the list of packets that carry the image.  On the wire some first packets of the plan
are `Delivered`, each acknowledged before the next one is sent, and at most one more is on its way (`Lockstep`).
-/

namespace Reflash

open Program

/-- The calls that make no transfer on a channel. -/
def Spares (channel : ControlChannel) (c : (cameras.sum host).Call) : Prop :=
  ∀ packet timeout, c ≠ .inl (.transfer channel packet timeout)

theorem wire_eq_nil_of_spares {channel : ControlChannel} {α : Type} {p : Action α} {h : History}
    (hp : p.Only (Spares channel)) (hb : p.Begins h) : wire channel h = [] :=
  wire_eq_nil fun e he => Only.calls hp hb e he

/-- The downloads among some transfers. -/
def downloads (w : List Exchange) : List ControlPacket := (w.filter (·.isDownload)).map (·.packet)

/-- No packet of a download is sent until a status query after the packet before it has acknowledged that one. -/
def EachAcknowledged (w : List Exchange) : Prop :=
  ∀ before x between y rest, w = before ++ x :: between ++ y :: rest → x.isDownload → y.isDownload →
    (∀ z ∈ between, !z.isDownload) → ∃ z ∈ between, z.Acknowledges

/-- Every packet of the plan was taken and then acknowledged, in order and before the next one. -/
inductive Delivered : List ControlPacket → List Exchange → Prop
  | nil : Delivered [] []
  | cons {packet reply : ControlPacket} {plan : List ControlPacket} {polls rest : List Exchange}
      {last : Exchange} :
    (∀ x ∈ polls, !x.isDownload) → !last.isDownload → last.Acknowledges → Delivered plan rest →
      Delivered (packet :: plan) (⟨packet, some (.ok reply)⟩ :: polls ++ last :: rest)

/-- At most the first packet of the plan is on the wire. -/
def Pending (plan : List ControlPacket) (w : List Exchange) : Prop :=
  (∀ x ∈ w, !x.isDownload) ∨ ∃ packet left reply? polls, plan = packet :: left ∧ w = ⟨packet, reply?⟩ :: polls ∧
    ∀ x ∈ polls, !x.isDownload

/-- Some first packets of the plan are delivered, and at most the next one is on its way. -/
def Lockstep (plan : List ControlPacket) (w : List Exchange) : Prop :=
  ∃ done left w₁ w₂, plan = done ++ left ∧ w = w₁ ++ w₂ ∧ Delivered done w₁ ∧ Pending left w₂

/-! ## What lockstep means -/

section Lockstep

variable {plan plan' : List ControlPacket} {w w' : List Exchange}

@[simp] theorem downloads_nil : downloads [] = [] := rfl

@[simp] theorem downloads_append : downloads (w ++ w') = downloads w ++ downloads w' := by
  simp [downloads]

theorem downloads_eq_nil (hw : ∀ x ∈ w, !x.isDownload) : downloads w = [] := by
  simpa [downloads] using hw

theorem downloads_cons {x : Exchange} (hx : x.isDownload) : downloads (x :: w) = x.packet :: downloads w := by
  simp [downloads, hx]

theorem mem_downloads {x : Exchange} (hx : x ∈ w) (hd : x.isDownload) : x.packet ∈ downloads w :=
  List.mem_map_of_mem (List.mem_filter.mpr ⟨hx, hd⟩)

def ControlPacket.IsDownload (p : ControlPacket) : Prop := p.request = DfuRequest.download.code

theorem Exchange.isDownload_iff {x : Exchange} : x.isDownload ↔ x.packet.IsDownload := by
  simp [isDownload, ControlPacket.IsDownload]

theorem Delivered.downloads_eq (hw : Delivered plan w) (hplan : ∀ p ∈ plan, p.IsDownload) :
    downloads w = plan := by
  induction hw with
  | nil => rfl
  | @cons packet reply plan polls rest last hpolls hlast _ _ ih =>
    have hpacket : (⟨packet, some (.ok reply)⟩ : Exchange).isDownload :=
      Exchange.isDownload_iff.mpr (hplan packet (by simp))
    have hlast' : downloads (last :: rest) = downloads rest := by
      have := downloads_eq_nil (w := [last]) (by simpa using hlast)
      rw [← List.singleton_append, downloads_append, this, List.nil_append]
    rw [downloads_append, downloads_cons hpacket, downloads_eq_nil hpolls, hlast',
      ih fun p hp => hplan p (by simp [hp])]
    rfl

theorem Pending.downloads_prefix (hw : Pending plan w) (hplan : ∀ p ∈ plan, p.IsDownload) :
    downloads w <+: plan := by
  rcases hw with hw | ⟨packet, left, reply?, polls, rfl, rfl, hpolls⟩
  · rw [downloads_eq_nil hw]
    exact List.nil_prefix
  · rw [downloads_cons (Exchange.isDownload_iff.mpr (hplan packet (by simp))), downloads_eq_nil hpolls]
    exact ⟨left, rfl⟩

theorem Lockstep.downloads_prefix (hw : Lockstep plan w) (hplan : ∀ p ∈ plan, p.IsDownload) :
    downloads w <+: plan := by
  obtain ⟨done, left, w₁, w₂, rfl, rfl, h₁, h₂⟩ := hw
  rw [downloads_append, h₁.downloads_eq fun p hp => hplan p (by simp [hp])]
  exact (List.prefix_append_right_inj done).mpr (h₂.downloads_prefix fun p hp => hplan p (by simp [hp]))

theorem Delivered.append (hw : Delivered plan w) (hw' : Delivered plan' w') :
    Delivered (plan ++ plan') (w ++ w') := by
  induction hw with
  | nil => exact hw'
  | @cons packet reply plan polls rest last hpolls hlast hack _ ih =>
    have hall : Delivered (packet :: (plan ++ plan'))
        (⟨packet, some (.ok reply)⟩ :: polls ++ last :: (rest ++ w')) :=
      .cons hpolls hlast hack ih
    simpa using hall

theorem Delivered.append_lockstep (hw : Delivered plan w) (hw' : Lockstep plan' w') :
    Lockstep (plan ++ plan') (w ++ w') := by
  obtain ⟨done, left, w₁, w₂, rfl, rfl, h₁, h₂⟩ := hw'
  exact ⟨plan ++ done, left, w ++ w₁, w₂, by simp, by simp, hw.append h₁, h₂⟩

theorem Pending.lockstep (hw : Pending plan w) : Lockstep plan w := ⟨[], plan, [], w, rfl, rfl, .nil, hw⟩

/-- As long as nothing is sent. -/
theorem Lockstep.quiet (hw : ∀ x ∈ w, !x.isDownload) : Lockstep plan w := Pending.lockstep (.inl hw)

/-- From the sending of a packet until its acknowledgement. -/
theorem Lockstep.sent {packet : ControlPacket} {reply? : Option (Except LinkError ControlPacket)}
    (hw : ∀ x ∈ w, !x.isDownload) : Lockstep (packet :: plan) (⟨packet, reply?⟩ :: w) :=
  Pending.lockstep (.inr ⟨packet, plan, reply?, w, rfl, rfl, hw⟩)

theorem Lockstep.mono (hw : Lockstep plan w) : Lockstep (plan ++ plan') w := by
  obtain ⟨done, left, w₁, w₂, rfl, rfl, h₁, h₂⟩ := hw
  refine ⟨done, left ++ plan', w₁, w₂, by simp, rfl, h₁, ?_⟩
  rcases h₂ with h₂ | ⟨packet, left', reply?, polls, rfl, rfl, hpolls⟩
  · exact .inl h₂
  · exact .inr ⟨packet, left' ++ plan', reply?, polls, rfl, rfl, hpolls⟩

/-- A download does not lie among transfers that are none. -/
theorem append_eq_of_isDownload {quiet before rest : List Exchange} {x : Exchange}
    (hquiet : ∀ z ∈ quiet, !z.isDownload) (hx : x.isDownload) (heq : quiet ++ w = before ++ x :: rest) :
    ∃ before', before = quiet ++ before' ∧ w = before' ++ x :: rest := by
  induction quiet generalizing before with
  | nil => exact ⟨before, rfl, heq⟩
  | cons z quiet ih =>
    have hz : !z.isDownload := hquiet z (by simp)
    cases before with
    | nil =>
      obtain rfl : z = x := by simpa using congrArg List.head? heq
      simp [hx] at hz
    | cons b before =>
      rw [List.cons_append, List.cons_append, List.cons.injEq] at heq
      obtain ⟨rfl, heq⟩ := heq
      obtain ⟨before', rfl, hw⟩ := ih (fun z hz => hquiet z (by simp [hz])) heq
      exact ⟨before', rfl, hw⟩

theorem Delivered.acknowledged (hw : Delivered plan w) {before rest : List Exchange} {x : Exchange}
    (heq : w = before ++ x :: rest) (hx : x.isDownload) : ∃ y ∈ rest, y.Acknowledges := by
  induction hw generalizing before with
  | nil => simp at heq
  | @cons packet reply plan polls w last hpolls hlast hack _ ih =>
    cases before with
    | nil =>
      rw [List.nil_append, List.cons_append, List.cons.injEq] at heq
      exact ⟨last, by simp [← heq.2], hack⟩
    | cons b before =>
      have hquiet : ∀ z ∈ polls ++ [last], !z.isDownload := by
        simp only [List.mem_append, List.mem_singleton]
        rintro z (hz | rfl)
        exacts [hpolls z hz, hlast]
      rw [List.cons_append, List.cons_append, List.cons.injEq] at heq
      obtain ⟨before', -, hw⟩ := append_eq_of_isDownload hquiet hx (by rw [← heq.2, List.append_assoc]; rfl)
      exact ih hw

theorem Pending.eachAcknowledged (hw : Pending plan w) : EachAcknowledged w := by
  intro before x between y rest heq hx hy _
  rcases hw with hw | ⟨packet, left, reply?, polls, rfl, rfl, hpolls⟩
  · have := hw x (by simp [heq])
    simp [hx] at this
  · have hy' : y ∈ polls := by
      cases before with
      | nil =>
        rw [List.nil_append, List.cons_append, List.cons.injEq] at heq
        simp [heq.2]
      | cons b before =>
        rw [List.cons_append, List.cons_append, List.cons.injEq] at heq
        simp [heq.2]
    have := hpolls y hy'
    simp [hy] at this

/-- Before the next download, what was delivered last is acknowledged. -/
theorem Lockstep.eachAcknowledged (hw : Lockstep plan w) : EachAcknowledged w := by
  obtain ⟨done, left, w₁, w₂, rfl, rfl, h₁, h₂⟩ := hw
  induction h₁ with
  | nil => exact h₂.eachAcknowledged
  | @cons packet reply plan polls rest last hpolls hlast hack _ ih =>
    intro before x between y after heq hx hy hbetween
    have hquiet : ∀ z ∈ polls ++ [last], !z.isDownload := by
      simp only [List.mem_append, List.mem_singleton]
      rintro z (hz | rfl)
      exacts [hpolls z hz, hlast]
    have hshape : (⟨packet, some (.ok reply)⟩ :: polls ++ last :: rest) ++ w₂
        = ⟨packet, some (.ok reply)⟩ :: ((polls ++ [last]) ++ (rest ++ w₂)) := by simp
    rw [hshape] at heq
    cases before with
    | nil =>
      -- The next download comes after the query that acknowledged this one.
      rw [List.nil_append, List.cons_append, List.cons.injEq] at heq
      obtain ⟨between', rfl, -⟩ := append_eq_of_isDownload hquiet hy heq.2
      exact ⟨last, by simp, hack⟩
    | cons b before =>
      rw [List.cons_append, List.cons_append, List.cons.injEq] at heq
      have heq' : (polls ++ [last]) ++ (rest ++ w₂) = before ++ x :: (between ++ y :: after) := by
        rw [heq.2, List.append_assoc]
        rfl
      obtain ⟨before', rfl, hrest⟩ := append_eq_of_isDownload hquiet hx heq'
      exact ih before' x between y after (by rw [hrest, List.append_assoc]; rfl) hx hy hbetween

end Lockstep

end Reflash
