import Reflash.Proofs.Actions
import Reflash.Reacquire

/-!
# Reflash.Proofs.Reacquire — which unit a search finds

`Search.Finds` is the grammar of a search that succeeds: scans that missed the unit, and then a listing whose
first match is the unit.  A camera of a listing is passed over because it is in the other mode, and then it is
not asked for its identity, or because it reported another one, none, or a failure.
-/

namespace Reflash

open Program

/-! ## Identities -/

section Identity

variable {P : (cameras.sum host).Call → Prop} {camera : Camera} {h : History}

/-- Reading an identity makes at most two calls, both on the camera itself. -/
theorem only_identityOf (hserial : P (.inl (.serial camera))) (hsensors : P (.inl (.sensors camera))) :
    (identityOf camera).Only P := by
  have hsensor : (sensorIdentity camera).Only P := by
    refine only_bind (only_ask.mpr hsensors) fun reply => ?_
    split <;> trivial
  refine only_bind (only_ask.mpr hserial) fun reply => ?_
  split
  · split
    · trivial
    · exact hsensor
  · exact hsensor
  · exact hsensor
  · trivial

theorem stallsAfter_identityOf : (identityOf camera).StallsAfter P := by
  have hsensor : (sensorIdentity camera).StallsAfter P := by
    refine stallsAfter_bind (stallsAfter_ask _) fun reply => ?_
    split <;> trivial
  refine stallsAfter_bind (stallsAfter_ask _) fun reply => ?_
  split
  · split
    · trivial
    · exact hsensor
  · exact hsensor
  · exact hsensor
  · trivial

theorem sensorIdentity_ne_empty {identity : String}
    (hf : (sensorIdentity camera).Finishes h (.ok (some identity))) :
    identity ≠ "" := by
  simp only [sensorIdentity, bind_eq, finishes_bind, finishes_ask] at hf
  obtain ⟨reply, h₁, h₂, rfl, rfl, hf⟩ := hf
  split at hf
  · have hfilter := (finishes_done.mp hf).2
    have := Option.filter_eq_some_iff.mp (Except.ok.inj hfilter).symm
    simpa using this.2
  · simp at hf

theorem identityOf_ne_empty {identity : String} (hf : (identityOf camera).Finishes h (.ok (some identity))) :
    identity ≠ "" := by
  simp only [identityOf, bind_eq, finishes_bind, finishes_ask] at hf
  obtain ⟨reply, h₁, h₂, rfl, rfl, hf⟩ := hf
  split at hf
  · split at hf
    · rename_i serial hne
      have := (finishes_done.mp hf).2
      simp only [Except.ok.injEq, Option.some.injEq] at this
      exact this ▸ hne
    · exact sensorIdentity_ne_empty hf
  · exact sensorIdentity_ne_empty hf
  · exact sensorIdentity_ne_empty hf
  · simp at hf

/-- The camera was asked for its identity, and gave this one. -/
def Identified (camera : Camera) (identity : String) (h : History) : Prop :=
  ∃ pre own post, h = pre ++ (own ++ post) ∧ (identityOf camera).Finishes own (.ok (some identity))

namespace Identified

variable {identity : String} {h' : History}

theorem of_finishes (hf : (identityOf camera).Finishes h (.ok (some identity))) : Identified camera identity h :=
  ⟨[], h, [], by simp, hf⟩

theorem append_left (hid : Identified camera identity h) : Identified camera identity (h' ++ h) := by
  obtain ⟨pre, own, post, rfl, hown⟩ := hid
  exact ⟨h' ++ pre, own, post, by simp, hown⟩

theorem append_right (hid : Identified camera identity h) : Identified camera identity (h ++ h') := by
  obtain ⟨pre, own, post, rfl, hown⟩ := hid
  exact ⟨pre, own, post ++ h', by simp, hown⟩

theorem ne_empty (hid : Identified camera identity h) : identity ≠ "" := by
  obtain ⟨pre, own, post, rfl, hown⟩ := hid
  exact identityOf_ne_empty hown

end Identified

end Identity

/-! ## Searches -/

/-- Calls on clock, log and stop request only. -/
abbrev Idle (h : History) : Prop := Within [.clock, .log, .stop] h

namespace Search

variable {s : Search} {h : History} {c : Camera}

/-- Cameras of a listing, none of which is the unit in the wanted mode. -/
inductive PassedOver (s : Search) : List Camera → History → Prop
  | nil : PassedOver s [] []
  | otherMode {c : Camera} {rest : List Camera} {h : History} :
    s.wanted.accepts c.kind = false → PassedOver s rest h → PassedOver s (c :: rest) h
  | otherUnit {c : Camera} {rest : List Camera} {asked notes h : History}
      {reply : Except LinkError (Option String)} :
    s.wanted.accepts c.kind = true → (identityOf c).Finishes asked reply →
    reply ≠ .ok (some s.identity) → Idle notes →
      PassedOver s rest h → PassedOver s (c :: rest) (asked ++ notes ++ h)

/-- A scan that did not see the unit. -/
inductive Missed (s : Search) : History → Prop
  | listed {listing : List Camera} {h : History} : PassedOver s listing h →
      Missed s (.asked .list (some (.ok listing)) :: h)
  | unavailable {e : LinkError} {notes : History} : Idle notes → Missed s (.asked .list (some (.error e)) :: notes)

/-- A search that finds a camera: it is the first match of the first listing that has one. -/
inductive Finds (s : Search) (c : Camera) : History → Prop
  | found {pre asked own post : History} {skipped rest : List Camera} : Idle pre → PassedOver s skipped asked →
      s.wanted.accepts c.kind = true → (identityOf c).Finishes own (.ok (some s.identity)) → Idle post →
      Finds s c (pre ++ .asked .list (some (.ok (skipped ++ c :: rest))) :: (asked ++ own ++ post))
  | missed {pre scan h : History} : Idle pre → Missed s scan → Finds s c h → Finds s c (pre ++ scan ++ h)

/-- A camera in the wanted mode is asked; it is the one, or the rest of the listing is looked at. -/
theorem finishes_pick_cons {listing : List Camera} {r : Option Camera} (hmode : s.wanted.accepts c.kind = true)
    (hf : (s.pick (c :: listing)).Finishes h r) :
    ∃ reply asked h', h = asked ++ h' ∧ (identityOf c).Finishes asked reply ∧
      (reply = .ok (some s.identity) ∧ h' = [] ∧ r = some c ∨ reply ≠ .ok (some s.identity) ∧ ∃ notes h'',
        h' = notes ++ h'' ∧ Idle notes ∧ (s.pick listing).Finishes h'' r) := by
  simp only [pick, hmode, Bool.not_true, Bool.false_eq_true, if_false, bind_eq, finishes_bind] at hf
  obtain ⟨reply, asked, h', rfl, hreply, hf⟩ := hf
  refine ⟨reply, asked, h', rfl, hreply, ?_⟩
  split at hf
  · split at hf
    · rename_i hid
      obtain ⟨rfl, rfl⟩ := finishes_done.mp hf
      exact .inl ⟨by rw [hid], rfl, rfl⟩
    · rename_i hid
      exact .inr ⟨by simpa using hid, [], h', rfl, by simp, hf⟩
  · exact .inr ⟨by simp, [], h', rfl, by simp, hf⟩
  · simp only [finishes_bind, finishes_report] at hf
    obtain ⟨u, notes, h'', rfl, rfl, hf⟩ := hf
    exact .inr ⟨by simp, _, h'', rfl, by simp, hf⟩

theorem finishes_pick_otherMode {listing : List Camera} {r : Option Camera}
    (hmode : s.wanted.accepts c.kind = false) :
    (s.pick (c :: listing)).Finishes h r ↔ (s.pick listing).Finishes h r := by
  simp [pick, hmode]

@[simp] def kinds : List CallKind := [.clock, .log, .stop, .list, .identity]

theorem only_pick (listing : List Camera) : (s.pick listing).Only (ofKinds [.log, .identity]) := by
  induction listing with
  | nil => trivial
  | cons c listing ih =>
    unfold pick
    split
    · exact ih
    refine only_bind (only_identityOf (by simp) (by simp)) fun reply => ?_
    split
    · split
      · trivial
      · exact ih
    · exact ih
    · exact only_bind (only_report.mpr (by simp)) fun _ => ih

theorem only_scan : s.scan.Only (ofKinds [.log, .list, .identity]) := by
  refine only_bind (only_ask.mpr (by simp)) fun reply => ?_
  split
  · exact (only_pick _).mono (ofKinds.mono (by simp))
  · exact only_bind (only_report.mpr (by simp)) fun _ => trivial

theorem only_loop (start : Nanos) (rounds : Nat) : (s.loop start rounds).Only (ofKinds kinds) := by
  induction rounds with
  | zero => trivial
  | succ rounds ih =>
    refine only_bind (only_shouldStop (by simp [kinds])) fun stop => ?_
    split
    · trivial
    refine only_bind (only_scan.mono (ofKinds.mono (by simp))) fun c? => ?_
    split
    · exact only_bind (only_tell.mpr (by simp [kinds])) fun now =>
        only_bind (only_report.mpr (by simp [kinds])) fun _ => trivial
    · refine only_bind (only_tell.mpr (by simp [kinds])) fun now => ?_
      split
      · trivial
      · exact only_bind (only_tell.mpr (by simp [kinds])) fun _ => ih

theorem only_run : s.run.Only (ofKinds kinds) :=
  only_bind (only_tell.mpr (by simp [kinds])) fun start =>
    only_bind (only_report.mpr (by simp [kinds])) fun _ => only_loop start _

theorem finishes_pick_none {listing : List Camera} (hf : (s.pick listing).Finishes h none) :
    PassedOver s listing h := by
  induction listing generalizing h with
  | nil =>
    obtain ⟨rfl, -⟩ := finishes_done.mp hf
    exact .nil
  | cons c listing ih =>
    cases hmode : s.wanted.accepts c.kind with
    | false => exact .otherMode hmode (ih ((finishes_pick_otherMode hmode).mp hf))
    | true =>
      obtain ⟨reply, asked, h', rfl, hreply, ⟨-, -, hr⟩ | ⟨hne, notes, h'', rfl, hnotes, hf⟩⟩ :=
        finishes_pick_cons hmode hf
      · cases hr
      · rw [← List.append_assoc]
        exact .otherUnit hmode hreply hne hnotes (ih hf)

theorem finishes_pick_some {listing : List Camera} (hf : (s.pick listing).Finishes h (some c)) :
    ∃ skipped rest asked own, listing = skipped ++ c :: rest ∧ h = asked ++ own ∧ PassedOver s skipped asked ∧
      s.wanted.accepts c.kind = true ∧ (identityOf c).Finishes own (.ok (some s.identity)) := by
  induction listing generalizing h with
  | nil =>
    obtain ⟨-, hr⟩ := finishes_done.mp hf
    cases hr
  | cons c' listing ih =>
    cases hmode : s.wanted.accepts c'.kind with
    | false =>
      obtain ⟨skipped, rest, asked, own, rfl, rfl, hskipped, hc, hown⟩ :=
        ih ((finishes_pick_otherMode hmode).mp hf)
      exact ⟨c' :: skipped, rest, asked, own, rfl, rfl, .otherMode hmode hskipped, hc, hown⟩
    | true =>
      obtain ⟨reply, first, h', rfl, hreply, ⟨rfl, rfl, hr⟩ | ⟨hne, notes, h'', rfl, hnotes, hf⟩⟩ :=
        finishes_pick_cons hmode hf
      · cases hr
        exact ⟨[], listing, [], first, rfl, by simp, .nil, hmode, hreply⟩
      · obtain ⟨skipped, rest, asked, own, rfl, rfl, hskipped, hc, hown⟩ := ih hf
        exact ⟨c' :: skipped, rest, first ++ notes ++ asked, own, rfl, by simp,
          .otherUnit hmode hreply hne hnotes hskipped, hc, hown⟩

theorem finishes_scan_none (hf : s.scan.Finishes h none) : Missed s h := by
  simp only [scan, bind_eq, finishes_bind, finishes_ask] at hf
  obtain ⟨reply, h₁, h₂, rfl, rfl, hf⟩ := hf
  split at hf
  · exact .listed (finishes_pick_none hf)
  · simp only [finishes_bind, finishes_report] at hf
    obtain ⟨u, h₃, h₄, rfl, rfl, hf⟩ := hf
    obtain ⟨rfl, -⟩ := finishes_done.mp hf
    exact .unavailable (by simp)

theorem finishes_scan_some (hf : s.scan.Finishes h (some c)) : ∃ listing h',
    h = .asked .list (some (.ok listing)) :: h' ∧ (s.pick listing).Finishes h' (some c) := by
  simp only [scan, bind_eq, finishes_bind, finishes_ask] at hf
  obtain ⟨reply, h₁, h₂, rfl, rfl, hf⟩ := hf
  split at hf
  · exact ⟨_, h₂, rfl, hf⟩
  · simp only [finishes_bind, finishes_report] at hf
    obtain ⟨u, h₃, h₄, rfl, rfl, hf⟩ := hf
    cases (finishes_done.mp hf).2

/-- A search that ended well found the unit, whatever idle calls came before its rounds. -/
theorem finishes_loop_ok {start : Nanos} {rounds : Nat} {pre : History} (hpre : Idle pre)
    (hf : (s.loop start rounds).Finishes h (.ok c)) : Finds s c (pre ++ h) := by
  induction rounds generalizing pre h with
  | zero => exact absurd hf not_finishes_stalled
  | succ rounds ih =>
    simp only [loop, bind_eq, finishes_bind] at hf
    obtain ⟨stop, h₁, h₂, rfl, hstop, hf⟩ := hf
    have hstops : (shouldStop s.heedsStop).Only (ofKinds [.clock, .log, .stop]) := only_shouldStop (by simp)
    have hidle : Idle (pre ++ h₁) := within_append.mpr ⟨hpre, hstops.within hstop.begins⟩
    split at hf
    · simp at hf
    simp only [finishes_bind] at hf
    obtain ⟨c?, h₃, h₄, rfl, hscan, hf⟩ := hf
    split at hf
    · simp only [finishes_bind, finishes_tell, finishes_report] at hf
      obtain ⟨now, h₅, h₆, rfl, hnow, u, h₇, h₈, rfl, hlog, hf⟩ := hf
      obtain ⟨rfl, hc⟩ := finishes_done.mp hf
      obtain rfl := Except.ok.inj hc
      obtain ⟨listing, h', rfl, hpick⟩ := finishes_scan_some hscan
      obtain ⟨skipped, rest, asked, own, rfl, rfl, hskipped, hmode, hown⟩ := finishes_pick_some hpick
      have hpost : Idle (h₅ ++ h₇) := by simp [hnow, hlog]
      simpa using @Finds.found s c _ _ _ _ _ rest hidle hskipped hmode hown hpost
    · simp only [finishes_bind, finishes_tell] at hf
      obtain ⟨now, h₅, h₆, rfl, rfl, hf⟩ := hf
      split at hf
      · simp at hf
      simp only [finishes_bind, finishes_tell] at hf
      obtain ⟨u, h₇, h₈, rfl, rfl, hf⟩ := hf
      have hpause : Idle [.told .now (some now), .told (.sleep s.interval) (some ())] := by simp
      simpa using Finds.missed hidle (finishes_scan_none hscan) (ih hpause hf)

theorem finishes_run_ok (hf : s.run.Finishes h (.ok c)) : Finds s c h := by
  simp only [run, bind_eq, finishes_bind, finishes_tell, finishes_report] at hf
  obtain ⟨start, h₁, h₂, rfl, hnow, u, h₃, h₄, rfl, hlog, hf⟩ := hf
  have hpre : Idle (h₁ ++ h₃) := by simp [hnow, hlog]
  simpa using finishes_loop_ok hpre hf

/-- The camera that is found was listed in the wanted mode, and then gave the identity. -/
theorem Finds.listed (hf : Finds s c h) :
    ∃ pre listing post, h = pre ++ .asked .list (some (.ok listing)) :: post ∧
    c ∈ listing ∧ s.wanted.accepts c.kind = true ∧ Identified c s.identity post := by
  induction hf with
  | @found pre asked own post skipped rest _ _ hmode hown _ =>
    exact ⟨pre, _, _, rfl, by simp, hmode, (Identified.of_finishes hown).append_left.append_right⟩
  | @missed pre scan h _ _ _ ih =>
    obtain ⟨pre', listing, post, rfl, hmem, hmode, hid⟩ := ih
    exact ⟨pre ++ scan ++ pre', listing, post, by simp, hmem, hmode, hid⟩

end Search

end Reflash
