import Reflash.Proofs.Session.Stages

/-!
# Reflash.Proofs.Session.Outcome — how a session ends

The record of a session is the record after the writes of its history, and `Session.result` is what one who
waits for the session is told.  Nothing but the end of a session makes its record final, so a session is done
only if its update went through every stage (`completed_of_done`), and a call that does more than keep the
record is made in some stage (`stage_of_call`).
-/

namespace Reflash

open Program

namespace Session

/-! ## The record of a history -/

namespace Record

def hear (r : Record) : Event (cameras.sum host) → Record
  | ⟨.inr (.write w), some _⟩ => r.apply w
  | _ => r

-- The answer of a call has a type that reduces, so it must not be a key of these rules.
@[simp] theorem hear_write (r : Record) (w : Write) (u : Unit) :
    r.hear (.told (.write w) (no_index (some u))) = r.apply w := rfl

@[simp] theorem hear_dead (r : Record) (w : Write) : r.hear (.told (.write w) (no_index none)) = r := rfl

@[simp] theorem hear_log (r : Record) (l : LogRecord) (u? : Option Unit) :
    r.hear (.told (.log l) (no_index u?)) = r := rfl

def after (r : Record) (h : History) : Record := h.foldl hear r

@[simp] theorem after_nil (r : Record) : r.after [] = r := rfl

@[simp] theorem after_cons (r : Record) (e : Event (cameras.sum host)) (h : History) :
    r.after (e :: h) = (r.hear e).after h := rfl

@[simp] theorem after_append (r : Record) (h₁ h₂ : History) : r.after (h₁ ++ h₂) = (r.after h₁).after h₂ :=
  List.foldl_append

def IsOpen (r : Record) : Prop := r.outcome? = none

theorem isOpen_initial : initial.IsOpen := rfl

@[simp] theorem isOpen_apply_log {r : Record} {line : String} : (r.apply (.log line)).IsOpen ↔ r.IsOpen := .rfl

@[simp] theorem outcome?_apply_finishFailed (r : Record) (reason : String) :
    (r.apply (.finishFailed reason)).outcome? = some (.failed reason) := rfl

theorem IsOpen.apply {r : Record} (hr : r.IsOpen) {w : Write} (hw : w.isVerdict = false) : (r.apply w).IsOpen := by
  cases w with
  | phase p => cases p <;> first | rfl | cases hw
  | progress n => exact hr
  | log line => exact hr
  | finishDone => cases hw
  | finishFailed reason => cases hw

/-- What each write keeps, a history keeps. -/
theorem after_keeps {P : Record → Prop} {r : Record} {h : History} (hr : P r)
    (hh : ∀ e ∈ h, ∀ w, e.call = .inr (.write w) → ∀ r, P r → P (r.apply w)) : P (r.after h) := by
  induction h generalizing r with
  | nil => exact hr
  | cons e h ih =>
    refine ih ?_ fun e' he' => hh e' (List.mem_cons_of_mem e he')
    unfold hear
    split
    · exact hh _ List.mem_cons_self _ rfl r hr
    · exact hr

theorem isVerdict_of_ne {e : Event (cameras.sum host)} {w : Write} (hw : e.call = .inr (.write w))
    (he : kindOf e.call ≠ .verdict) : w.isVerdict = false := by
  by_contra hverdict
  simp [hw, hverdict] at he

theorem IsOpen.after {r : Record} (hr : r.IsOpen) {h : History} (hh : ∀ e ∈ h, kindOf e.call ≠ .verdict) :
    (r.after h).IsOpen :=
  after_keeps hr fun e he _ hw _ hr => hr.apply (isVerdict_of_ne hw (hh e he))

theorem IsOpen.of_only {α : Type} {p : Action α} {kinds : List CallKind} {r : Record} (hr : r.IsOpen)
    (hp : p.Only (ofKinds kinds)) (hkinds : .verdict ∉ kinds) {h : History} (hb : p.Begins h) :
    (r.after h).IsOpen :=
  hr.after fun e he hkind => hkinds (hkind ▸ hp.calls hb e he)

end Record

theorem recorded_call {α : Type} (c : (cameras.sum host).Call) (next : (cameras.sum host).Answer c → Action α)
    (r : Record) :
    recorded (.call c next) r = .call c fun answer => recorded (next answer) (r.hear ⟨c, some answer⟩) := by
  cases c with
  | inl c => rfl
  | inr c => cases c <;> rfl

/-- A program that keeps a record has the record of its history. -/
theorem finishes_recorded {α : Type} {p : Action α} {r r' : Record} {h : History} {a : α} :
    (recorded p r).Finishes h (a, r') ↔ p.Finishes h a ∧ r' = r.after h := by
  induction p generalizing r h with
  | done b =>
    simp only [recorded, finishes_done, Prod.mk.injEq]
    constructor
    · rintro ⟨rfl, rfl, rfl⟩
      exact ⟨⟨rfl, rfl⟩, rfl⟩
    · rintro ⟨⟨rfl, rfl⟩, rfl⟩
      exact ⟨rfl, rfl, rfl⟩
  | stalled => simp [recorded]
  | call c next ih =>
    simp only [recorded_call, finishes_call, ih]
    constructor
    · rintro ⟨answer, rest, rfl, hf, rfl⟩
      exact ⟨⟨answer, rest, rfl, hf⟩, rfl⟩
    · rintro ⟨⟨answer, rest, rfl, hf⟩, rfl⟩
      exact ⟨answer, rest, rfl, hf, rfl⟩

theorem begins_recorded {α : Type} {p : Action α} {r : Record} {h : History} :
    (recorded p r).Begins h ↔ p.Begins h := by
  induction p generalizing r h with
  | done a => simp [recorded]
  | stalled => simp [recorded]
  | call c next ih => simp only [recorded_call, begins_call, ih]

/-- What one who waits for a session is told after it ran. -/
def result {σ : Type} (env : Environment (cameras.sum host) σ) (s : σ) (session : Action Unit) : Outcome :=
  outcome (session.run env s).1 (Record.initial.after (session.history env s))

theorem exists_failed_of_ne_done {o : Outcome} (ho : o ≠ .done) : ∃ reason, o = .failed reason := by
  cases o with
  | done => exact absurd rfl ho
  | failed reason => exact ⟨reason, rfl⟩

/-! ## The parts of a session -/

variable {config : UpdateConfig} {image : FirmwareImage} {camera : Camera} {h : History} {r : Record}

theorem only_noteImage : (noteImage image).Only (ofKinds [.log, .record]) := by
  refine only_bind (only_note (by simp) (by simp) _) fun _ => ?_
  split
  · exact only_note (by simp) (by simp) _
  · trivial

/-- A good end has closed the record as its last call, or has not closed it yet. -/
theorem conclude_ok (hr : r.IsOpen) (hb : (conclude (.ok ())).Begins h) :
    (r.after h).IsOpen ∨ (conclude (.ok ())).Finishes h () := by
  simp only [conclude, bind_eq, begins_bind, begins_tell] at hb
  have hnote : (note "firmware update done").Only (ofKinds [.log, .record]) := only_note (by simp) (by simp) _
  rcases hb with hb | ⟨u, h₁, h₂, rfl, hf, rfl | ⟨_ | a, rfl⟩⟩
  · exact .inl (hr.of_only hnote (by simp) hb)
  · exact .inl (by simpa using hr.of_only hnote (by simp) hf.begins)
  · exact .inl (by simpa using hr.of_only hnote (by simp) hf.begins)
  · refine .inr ?_
    simp only [conclude, bind_eq, finishes_bind, finishes_tell]
    exact ⟨(), h₁, _, rfl, hf, rfl⟩

/-- A bad end closes the record as failed, or has not closed it yet. -/
theorem conclude_error {e : UpdateError} (hr : r.IsOpen) (hb : (conclude (.error e)).Begins h) :
    (r.after h).IsOpen ∨ (r.after h).outcome? = some (.failed e.reason) := by
  simp only [conclude, report, bind_eq, begins_bind, begins_tell, finishes_tell] at hb
  rcases hb with (rfl | ⟨a?, rfl⟩) | ⟨u, h₁, h₂, rfl, rfl, (rfl | ⟨a?, rfl⟩) | ⟨u', h₃, h₄, rfl, rfl,
    (rfl | ⟨a?, rfl⟩) | ⟨u'', h₅, h₆, rfl, rfl, rfl | ⟨_ | a, rfl⟩⟩⟩⟩
  · exact .inl hr
  · exact .inl (by simpa using hr)
  · exact .inl (by simpa using hr)
  · cases a? <;> exact .inl (by simpa using hr)
  · exact .inl (by simpa using hr)
  · cases a? <;> exact .inl (by simpa using hr)
  · exact .inl (by simpa using hr)
  · exact .inl (by simpa using hr)
  · exact .inr (by simp)

/-- A session is before its update, in it, or at its end. -/
theorem begins_run (hb : (run config image camera).Begins h) : (noteImage image).Begins h ∨
    ∃ h₀ h', h = h₀ ++ h' ∧ (noteImage image).Finishes h₀ () ∧ ((attempt config image camera).Begins h' ∨
      ∃ h₁ h₂ result, h' = h₁ ++ h₂ ∧ (attempt config image camera).Finishes h₁ result ∧
        (conclude result).Begins h₂) := by
  simp only [run, bind_eq, begins_bind, Attempt.begins_run] at hb
  rcases hb with hb | ⟨u, h₀, h', rfl, hf, hb | ⟨result, h₁, h₂, rfl, hatt, hb⟩⟩
  · exact .inl hb
  · exact .inr ⟨h₀, h', rfl, hf, .inl hb⟩
  · exact .inr ⟨h₀, _, rfl, hf, .inr ⟨h₁, h₂, result, rfl, hatt, hb⟩⟩

theorem only_conclude (result : Except UpdateError Unit) :
    (conclude result).Only (ofKinds [.log, .record, .verdict]) := by
  cases result with
  | ok u => exact only_bind (only_note (by simp) (by simp) _) fun _ => only_tell.mpr (by simp [Write.isVerdict])
  | error e =>
    refine only_bind (only_report.mpr (by simp)) fun _ =>
      only_bind (only_tell.mpr (by simp [Write.isVerdict])) fun _ => ?_
    exact only_bind (only_tell.mpr (by simp [Write.isVerdict])) fun _ => only_tell.mpr (by simp [Write.isVerdict])

theorem stallsAfter_noteImage {P : (cameras.sum host).Call → Prop} : (noteImage image).StallsAfter P := by
  refine stallsAfter_bind (stallsAfter_note _) fun _ => ?_
  split
  · exact stallsAfter_note _
  · trivial

theorem stallsAfter_conclude {P : (cameras.sum host).Call → Prop} (r : Except UpdateError Unit) :
    (conclude r).StallsAfter P := by
  cases r with
  | ok u => exact stallsAfter_bind (stallsAfter_note _) fun _ => stallsAfter_tell _
  | error e =>
    refine stallsAfter_bind (stallsAfter_report _ _) fun _ => stallsAfter_bind (stallsAfter_tell _) fun _ => ?_
    exact stallsAfter_bind (stallsAfter_tell _) fun _ => stallsAfter_tell _

/-- A session stalls only in its update. -/
theorem stallsAfter_run {P : (cameras.sum host).Call → Prop} (hatt : (attempt config image camera).StallsAfter P) :
    (run config image camera).StallsAfter P :=
  stallsAfter_bind stallsAfter_noteImage fun _ => stallsAfter_bind hatt stallsAfter_conclude

/-- What a session calls outside its update only keeps the record. -/
theorem parts_of_begins (hb : (run config image camera).Begins h) : ∃ h₀ h₁ h₂, h = h₀ ++ (h₁ ++ h₂) ∧
    Within [.log, .record] h₀ ∧ (attempt config image camera).Begins h₁ ∧ Within [.log, .record, .verdict] h₂ := by
  rcases begins_run hb with hb | ⟨h₀, h', rfl, hnote, hb | ⟨h₁, h₂, result, rfl, hatt, hb⟩⟩
  · exact ⟨h, [], [], by simp, only_noteImage.within hb, .here _, within_nil⟩
  · exact ⟨h₀, h', [], by simp, only_noteImage.within hnote.begins, hb, within_nil⟩
  · exact ⟨h₀, h₁, h₂, rfl, only_noteImage.within hnote.begins, hatt.begins, (only_conclude result).within hb⟩

/-- A kind of call that only stages with so many left make, each of them at most once, is made at most once. -/
theorem countOf_run_le_one {kind : CallKind} {level : Nat} (hkind : kind ∉ [CallKind.log, .record, .verdict])
    (hlevel : ∀ b : Stage, kind ∈ b.kinds → b.left = level) (hlast : 0 < level)
    (hone : ∀ b : Stage, kind ∈ b.kinds → ∀ h, (b.advance config image).Begins h → countOf kind h ≤ 1)
    (hb : (run config image camera).Begins h) : countOf kind h ≤ 1 := by
  obtain ⟨h₀, h₁, h₂, rfl, hnote, hatt, hend⟩ := parts_of_begins hb
  have h₀' : countOf kind h₀ = 0 := hnote.countOf_eq_zero fun hmem =>
    hkind (List.mem_append_left [CallKind.verdict] hmem)
  have h₂' : countOf kind h₂ = 0 := hend.countOf_eq_zero hkind
  rw [attempt_eq] at hatt
  have h₁' := Stage.countOf_complete_le_one hlevel hlast hone hatt
  rw [countOf_append, countOf_append]
  omega

/-- A session that was started runs its update, on an image that suits the camera. -/
theorem start_eq_ok {session : Action Unit} :
    start config camera image = .ok session ↔ image.validate camera.kind = .ok () ∧
    (camera.kind.isRecovery = true ∨ camera.kind.line.reportsIdentityInRecovery = true) ∧
      session = run config image camera := by
  unfold start
  split
  · rename_i e hvalid
    simp [hvalid]
  · rename_i hvalid
    cases hmode : camera.kind.isRecovery <;> cases hline : camera.kind.line.reportsIdentityInRecovery <;>
      simp [hvalid, eq_comm]

theorem start_obliging : start Obliging.config Obliging.unit Obliging.image =
    .ok (run Obliging.config Obliging.image Obliging.unit) := start_eq_ok.mpr ⟨by decide +kernel, .inr rfl, rfl⟩

theorem isOpen_of_attempt (hr : r.IsOpen) (hb : (attempt config image camera).Begins h) : (r.after h).IsOpen := by
  rw [attempt_eq] at hb
  exact hr.after ((Stage.only_complete _ _).calls hb)

/-- The last of some calls is the last of their last part. -/
theorem concat_eq_append {before h₁ h₂ : History} {e : Event (cameras.sum host)} (heq : before ++ [e] = h₁ ++ h₂)
    (hne : h₂ ≠ []) : ∃ h₂', h₂ = h₂' ++ [e] ∧ before = h₁ ++ h₂' := by
  obtain rfl | ⟨h₂', x, rfl⟩ := List.eq_nil_or_concat h₂
  · exact absurd rfl hne
  · rw [List.concat_eq_append, ← List.append_assoc] at heq
    obtain ⟨rfl, hx⟩ := List.append_inj' heq rfl
    exact ⟨h₂', by rw [List.concat_eq_append, hx], rfl⟩

/-- Where the last call of a session does more than keep the record, the session is in some stage. -/
theorem stage_of_call {before : History} {e : Event (cameras.sum host)}
    (hb : (run config image camera).Begins (before ++ [e]))
    (he : kindOf e.call ∉ [CallKind.log, .record, .verdict]) : ∃ h₀ h₁ h₂ stage, before = h₀ ++ (h₁ ++ h₂) ∧
      (noteImage image).Finishes h₀ () ∧ Stage.Walk config image (.start camera) h₁ stage ∧
        (stage.advance config image).Begins (h₂ ++ [e]) ∧ kindOf e.call ∈ stage.kinds := by
  have hnot : kindOf e.call ∉ [CallKind.log, .record] := fun hk => he (List.mem_append_left [CallKind.verdict] hk)
  rcases begins_run hb with hb | ⟨h₀, h', heq, hnote, hpart⟩
  · exact absurd (only_noteImage.calls hb e (by simp)) hnot
  -- Neither the note before the update nor the end after it makes such a call, so the update does.
  have hne : h' ≠ [] := by
    rintro rfl
    exact absurd (only_noteImage.calls hnote.begins e (by rw [← List.append_nil h₀, ← heq]; simp)) hnot
  obtain ⟨h'', rfl, rfl⟩ := concat_eq_append heq hne
  have hatt : (attempt config image camera).Begins (h'' ++ [e]) := by
    rcases hpart with hatt | ⟨h₁, h₂, result, heq', hatt, hend⟩
    · exact hatt
    · obtain rfl : h₂ = [] := by
        by_contra hne'
        obtain ⟨h₂', rfl, -⟩ := concat_eq_append heq' hne'
        exact absurd ((only_conclude result).calls hend e (by simp)) he
      rw [heq', List.append_nil]
      exact hatt.begins
  rw [attempt_eq] at hatt
  obtain ⟨stage, h₁, h₂, heq', hne', hwalk, hadv⟩ := Stage.begins_complete hatt (by simp)
  obtain ⟨h₂', rfl, rfl⟩ := concat_eq_append heq' hne'
  exact ⟨h₀, h₁, h₂', stage, rfl, hnote, hwalk, hadv, Stage.within_of_begins_advance hadv e (by simp)⟩

/-- A record that says done was closed by a session that finished. -/
theorem finishes_of_outcome?_done {h : History} (hb : (run config image camera).Begins h)
    (hdone : (Record.initial.after h).outcome? = some .done) : (run config image camera).Finishes h () ∧
      ∃ h₀ h₁ h₂, h = h₀ ++ (h₁ ++ h₂) ∧ (noteImage image).Finishes h₀ () ∧
        (attempt config image camera).Finishes h₁ (.ok ()) ∧ (conclude (.ok ())).Finishes h₂ () := by
  have hnot : ¬ (Record.initial.after h).IsOpen := fun hopen => by
    rw [Record.IsOpen, hdone] at hopen
    cases hopen
  rcases begins_run hb with hb | ⟨h₀, h', rfl, hnote, hb⟩
  · exact absurd (Record.isOpen_initial.of_only only_noteImage (by simp) hb) hnot
  have hopen : (Record.initial.after h₀).IsOpen :=
    Record.isOpen_initial.of_only only_noteImage (by simp) hnote.begins
  rw [Record.after_append] at hnot hdone
  rcases hb with hb | ⟨h₁, h₂, result, rfl, hatt, hb⟩
  · exact absurd (isOpen_of_attempt hopen hb) hnot
  have hopen' := isOpen_of_attempt hopen hatt.begins
  rw [Record.after_append] at hnot hdone
  cases result with
  | error e =>
    rcases conclude_error hopen' hb with h | h
    · exact absurd h hnot
    · rw [hdone] at h
      cases h
  | ok u =>
    rcases conclude_ok hopen' hb with h | hend
    · exact absurd h hnot
    · refine ⟨?_, h₀, h₁, h₂, rfl, hnote, hatt, hend⟩
      simp only [run, bind_eq, finishes_bind]
      exact ⟨(), h₀, _, rfl, hnote, .ok (), h₁, h₂, rfl, hatt, hend⟩

variable {σ : Type} {env : Environment (cameras.sum host) σ} {s : σ}

theorem outcome?_of_result {session : Action Unit} (hdone : result env s session = .done) :
    (Record.initial.after (session.history env s)).outcome? = some .done := by
  unfold result outcome at hdone
  cases hend : (session.run env s).1 with
  | panicked =>
    rw [hend] at hdone
    cases hdone
  | _ =>
    rw [hend] at hdone
    dsimp only at hdone
    cases ho : (Record.initial.after (session.history env s)).outcome? with
    | none =>
      rw [ho] at hdone
      cases hdone
    | some o =>
      rw [ho] at hdone
      exact congrArg some hdone

theorem completed_of_done (hdone : result env s (run config image camera) = .done) : ∃ h₀ h₁ h₂,
    (run config image camera).history env s = h₀ ++ (h₁ ++ h₂) ∧ (noteImage image).Finishes h₀ () ∧
      Stage.Walk config image (.start camera) h₁ .completed ∧ (conclude (.ok ())).Finishes h₂ () := by
  obtain ⟨-, h₀, h₁, h₂, heq, hnote, hatt, hend⟩ :=
    finishes_of_outcome?_done (begins_history env _ s) (outcome?_of_result hdone)
  rw [attempt_eq] at hatt
  exact ⟨h₀, h₁, h₂, heq, hnote, Stage.finishes_complete_ok rfl hatt, hend⟩

theorem result_ne_done_of_stage {h₀ h₁ h₂ rest : History} {stage : Stage} {e : UpdateError}
    (heq : (run config image camera).history env s = h₀ ++ (h₁ ++ (h₂ ++ rest)))
    (hnote : (noteImage image).Finishes h₀ ()) (hwalk : Stage.Walk config image (.start camera) h₁ stage)
    (hfail : (stage.advance config image).Finishes h₂ (.error e)) :
    result env s (run config image camera) ≠ .done := by
  intro hdone
  obtain ⟨-, h₀', h₁', h₂', heq', hnote', hatt', hend⟩ :=
    finishes_of_outcome?_done (begins_history env _ s) (outcome?_of_result hdone)
  have hatt : (attempt config image camera).Finishes (h₁ ++ h₂) (.error e) := by
    rw [attempt_eq]
    exact hwalk.finishes_complete_error hfail
  obtain ⟨rfl, hrest, -⟩ := hnote.unique hnote' (heq.symm.trans heq')
  rw [← List.append_assoc] at hrest
  obtain ⟨-, -, hresult⟩ := hatt.unique hatt' hrest
  cases hresult

end Session

end Reflash
