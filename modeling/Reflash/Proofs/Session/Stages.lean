import Reflash.Proofs.Session.Steps

/-!
# Reflash.Proofs.Session.Stages — an update as a walk through stages

An update goes through stages, each of which makes its calls and ends in the next stage or in a failure.  A
`Walk` is the calls of the stages that are behind.  `Session.attempt` is the walk from its first stage to the
last one (`attempt_eq`): as long as it runs it is in some stage (`begins_complete`), it ends well only at the
last one (`finishes_complete_ok`), and it fails only where a stage fails (`finishes_complete_error`).
-/

namespace Reflash

open Program

namespace Attempt

variable {δ ε α β : Type}

theorem of_run_bind (f : δ → ε) (x : Attempt δ α) (g : α → Attempt δ β) :
    Attempt.of f (x >>= g).run = Attempt.of f x.run >>= fun a => Attempt.of f (g a).run := by
  refine ExceptT.ext ?_
  rw [run_of, run_bind, run_bind, run_of, Program.bind_assoc, Program.bind_assoc]
  congr
  funext r
  cases r with
  | error d => rfl
  | ok a => exact (run_of f (g a).run).symm

theorem of_run_discard (f : δ → ε) (x : Attempt δ α) :
    Attempt.of f (discard x).run = discard (Attempt.of f x.run) := by
  refine ExceptT.ext ?_
  rw [run_of, run_discard, run_discard, run_of, Program.bind_assoc, Program.bind_assoc]
  congr
  funext r
  cases r <;> rfl

end Attempt

namespace Session

/-- Where an update stands, with what it has learnt on its way. -/
inductive Stage where
  | identifying (camera : Camera)
  | securing (camera : Camera) (identity : String)
  | switching (camera : Camera) (identity : String)
  | finding (identity : String)
  | recognising (camera : Camera)
  | opening (camera : Camera) (identity? : Option String)
  | preparing (channel : ControlChannel) (identity? : Option String)
  | sending (channel : ControlChannel) (identity? : Option String)
  | ending (channel : ControlChannel) (identity? : Option String) (transaction : UInt16)
  | manifesting (channel : ControlChannel) (identity? : Option String)
  | returning (identity? : Option String)
  | completed

namespace Stage

/-- The first stage of an update. -/
def start (camera : Camera) : Stage := if camera.kind.isRecovery then recognising camera else identifying camera

/-- How many stages are left. -/
def left : Stage → Nat
  | identifying _ => 10
  | securing _ _ => 9
  | switching _ _ => 8
  | finding _ | recognising _ => 7
  | opening _ _ => 6
  | preparing _ _ => 5
  | sending _ _ => 4
  | ending _ _ _ => 3
  | manifesting _ _ => 2
  | returning _ => 1
  | completed => 0

variable (config : UpdateConfig) (image : FirmwareImage)

/-- One stage. -/
def advance : Stage → Attempt UpdateError Stage
  | identifying camera => do return securing camera (← identify camera)
  | securing camera identity => do
    secure config camera identity
    return switching camera identity
  | switching camera identity => do
    switchMode camera
    return finding identity
  | finding identity => do return opening (← findRecovery config identity) (some identity)
  | recognising camera => do return opening camera (← (recognise camera : Action (Option String)))
  | opening camera identity? => do return preparing (← openChannel camera) identity?
  | preparing channel identity? => do
    discard <| Attempt.of .transfer (Dfu.prepare channel config.transfer).run
    return sending channel identity?
  | sending channel identity? => do
    return ending channel identity?
      (← Attempt.of .transfer (Dfu.download channel config.transfer true image.data heedTransfer).run)
  | ending channel identity? transaction => do
    Attempt.of .transfer (Dfu.finish channel config.transfer heedTransfer transaction).run
    return manifesting channel identity?
  | manifesting channel identity? => do
    discard <| Attempt.of .transfer (Dfu.manifest channel config.transfer).run
    note "firmware download completed successfully"
    setProgress progressTransferred
    return returning identity?
  | returning identity? => do
    awaitReturn config identity?
    return completed
  | completed => return completed

/-- So many stages. -/
def complete : Nat → Stage → Attempt UpdateError Unit
  | 0, _ => return ()
  | n + 1, stage => do complete n (← stage.advance config image)

end Stage

theorem attempt_eq (config : UpdateConfig) (image : FirmwareImage) (camera : Camera) :
    attempt config image camera = (Stage.start camera).complete config image (Stage.start camera).left := by
  unfold attempt Stage.start
  split
  · simp only [Stage.left, Stage.complete, Stage.advance, runFromRecovery, flash, Dfu.transfer,
      LawfulMonad.bind_assoc, pure_bind, Attempt.of_run_bind, Attempt.of_run_discard, bind_pure_unit]
  · simp only [Stage.left, Stage.complete, Stage.advance, runFull, flash, Dfu.transfer, LawfulMonad.bind_assoc,
      pure_bind, Attempt.of_run_bind, Attempt.of_run_discard, bind_pure_unit, awaitReturn]

namespace Stage

variable {config : UpdateConfig} {image : FirmwareImage} {h h' : History} {a b c : Stage}

/-! ## One stage -/

/-- What a stage that ended well called, and the stage after it. -/
inductive Advances (config : UpdateConfig) (image : FirmwareImage) : Stage → History → Stage → Prop
  | identified {camera : Camera} {identity : String} {h : History} : (identify camera).Finishes h (.ok identity) →
      Advances config image (identifying camera) h (securing camera identity)
  | secured {camera : Camera} {identity : String} {h : History} :
      (secure config camera identity).Finishes h (.ok ()) →
      Advances config image (securing camera identity) h (switching camera identity)
  | switched {camera : Camera} {identity : String} {h : History} : (switchMode camera).Finishes h (.ok ()) →
      Advances config image (switching camera identity) h (finding identity)
  | found {identity : String} {recovery : Camera} {h : History} :
      (findRecovery config identity).Finishes h (.ok recovery) →
      Advances config image (finding identity) h (opening recovery (some identity))
  | recognised {camera : Camera} {identity? : Option String} {h : History} :
      (recognise camera).Finishes h identity? →
      Advances config image (recognising camera) h (opening camera identity?)
  | opened {camera : Camera} {identity? : Option String} {channel : ControlChannel} {h : History} :
      (openChannel camera).Finishes h (.ok channel) →
      Advances config image (opening camera identity?) h (preparing channel identity?)
  | prepared {channel : ControlChannel} {identity? : Option String} {status : DeviceStatus} {h : History} :
      (Dfu.prepare channel config.transfer).Finishes h (.ok status) →
      Advances config image (preparing channel identity?) h (sending channel identity?)
  | sent {channel : ControlChannel} {identity? : Option String} {transaction : UInt16} {h : History} :
      (Dfu.download channel config.transfer true image.data heedTransfer).Finishes h (.ok transaction) →
      Advances config image (sending channel identity?) h (ending channel identity? transaction)
  | ended {channel : ControlChannel} {identity? : Option String} {transaction : UInt16} {h : History} :
      (Dfu.finish channel config.transfer heedTransfer transaction).Finishes h (.ok ()) →
      Advances config image (ending channel identity? transaction) h (manifesting channel identity?)
  | programmed {channel : ControlChannel} {identity? : Option String} {status : DeviceStatus} {h notes : History} :
      (Dfu.manifest channel config.transfer).Finishes h (.ok status) →
      (∀ e ∈ notes, kindOf e.call ∈ [CallKind.log, CallKind.record]) →
      Advances config image (manifesting channel identity?) (h ++ notes) (returning identity?)
  | returned {identity? : Option String} {h : History} : (awaitReturn config identity?).Finishes h (.ok ()) →
      Advances config image (returning identity?) h completed
  | rest : Advances config image completed [] completed

theorem advances_of_finishes (hf : (a.advance config image).Finishes h (.ok b)) : Advances config image a h b := by
  cases a with
  | identifying camera =>
    obtain ⟨identity, hx, rfl⟩ := Attempt.finishes_bind_pure_ok.mp hf
    exact .identified hx
  | securing camera identity =>
    obtain ⟨u, hx, rfl⟩ := Attempt.finishes_bind_pure_ok.mp hf
    exact .secured hx
  | switching camera identity =>
    obtain ⟨u, hx, rfl⟩ := Attempt.finishes_bind_pure_ok.mp hf
    exact .switched hx
  | finding identity =>
    obtain ⟨recovery, hx, rfl⟩ := Attempt.finishes_bind_pure_ok.mp hf
    exact .found hx
  | recognising camera =>
    obtain ⟨identity?, hx, rfl⟩ := Attempt.finishes_bind_pure_ok.mp hf
    exact .recognised (Attempt.finishes_lift_ok.mp hx)
  | opening camera identity? =>
    obtain ⟨channel, hx, rfl⟩ := Attempt.finishes_bind_pure_ok.mp hf
    exact .opened hx
  | preparing channel identity? =>
    obtain ⟨u, hx, rfl⟩ := Attempt.finishes_bind_pure_ok.mp hf
    obtain ⟨status, hx⟩ := Attempt.finishes_discard_ok.mp hx
    exact .prepared (Attempt.finishes_of_ok.mp hx)
  | sending channel identity? =>
    obtain ⟨transaction, hx, rfl⟩ := Attempt.finishes_bind_pure_ok.mp hf
    exact .sent (Attempt.finishes_of_ok.mp hx)
  | ending channel identity? transaction =>
    obtain ⟨u, hx, rfl⟩ := Attempt.finishes_bind_pure_ok.mp hf
    exact .ended (Attempt.finishes_of_ok.mp hx)
  | manifesting channel identity? =>
    simp only [advance, Attempt.finishes_bind_ok, Attempt.finishes_discard_ok, Attempt.finishes_of_ok,
      Attempt.finishes_lift_ok, Attempt.finishes_pure, Except.ok.injEq] at hf
    obtain ⟨u, h₁, h₂, rfl, ⟨status, hman⟩, u', h₃, h₄, rfl, hnote, u'', h₅, h₆, rfl, hprogress, rfl, rfl⟩ := hf
    refine .programmed hman fun e he => ?_
    rw [List.append_nil, List.mem_append] at he
    rcases he with he | he
    · exact within_of_note hnote e he
    · exact within_of_setProgress hprogress e he
  | returning identity? =>
    obtain ⟨u, hx, rfl⟩ := Attempt.finishes_bind_pure_ok.mp hf
    exact .returned hx
  | completed =>
    obtain ⟨rfl, hb⟩ := Attempt.finishes_pure.mp hf
    obtain rfl := Except.ok.inj hb
    exact .rest

theorem left_of_finishes (hf : (a.advance config image).Finishes h (.ok b)) : b.left = a.left - 1 := by
  cases advances_of_finishes hf <;> rfl

def kinds : Stage → List CallKind
  | identifying _ => [.stop, .identity, .log, .record]
  | securing _ _ => secureKinds
  | switching _ _ => [.stop, .log, .record, .restart]
  | finding _ => .record :: Search.kinds
  | recognising _ => [.log, .record, .identity]
  | opening _ _ => [.stop, .log, .record, .openControl]
  | preparing _ _ | sending _ _ | ending _ _ _ | manifesting _ _ => Dfu.downloadKinds
  | returning _ => .firmware :: .record :: Search.kinds
  | completed => []

/-- The channel over which a stage works. -/
def channel? : Stage → Option ControlChannel
  | preparing channel _ | sending channel _ | ending channel _ _ | manifesting channel _ => some channel
  | _ => none

/-- A stage with a channel makes its transfers on this channel. -/
theorem only_advance_channel {channel : ControlChannel} (ha : a.channel? = some channel) :
    (a.advance config image).Only (Dfu.Calls channel) := by
  cases a with
  | preparing channel identity? =>
    cases ha
    exact Attempt.only_bind (Attempt.only_discard (Attempt.only_of Dfu.only_prepare)) fun _ => Attempt.only_pure _
  | sending channel identity? =>
    cases ha
    exact Attempt.only_bind (Attempt.only_of (Dfu.only_download only_heedTransfer _ _)) fun _ =>
      Attempt.only_pure _
  | ending channel identity? transaction =>
    cases ha
    exact Attempt.only_bind (Attempt.only_of (Dfu.only_finish only_heedTransfer _)) fun _ => Attempt.only_pure _
  | manifesting channel identity? =>
    cases ha
    refine Attempt.only_bind (Attempt.only_discard (Attempt.only_of Dfu.only_manifest)) fun _ => ?_
    refine Attempt.only_bind (Attempt.only_lift ((only_note (by simp) (by simp) _).mono fun c hc => .inr hc))
      fun _ => ?_
    exact Attempt.only_bind (Attempt.only_lift (only_tell.mpr (by simp [Write.isVerdict]))) fun _ =>
      Attempt.only_pure _
  | _ => cases ha

theorem only_advance (a : Stage) : (a.advance config image).Only (ofKinds a.kinds) := by
  cases a with
  | identifying camera => exact Attempt.only_bind (only_identify camera) fun _ => Attempt.only_pure _
  | securing camera identity =>
    exact Attempt.only_bind (only_secure config camera identity) fun _ => Attempt.only_pure _
  | switching camera identity => exact Attempt.only_bind (only_switchMode camera) fun _ => Attempt.only_pure _
  | finding identity => exact Attempt.only_bind (only_findRecovery config identity) fun _ => Attempt.only_pure _
  | recognising camera =>
    exact Attempt.only_bind (Attempt.only_lift (only_recognise camera)) fun _ => Attempt.only_pure _
  | opening camera identity? => exact Attempt.only_bind (only_openChannel camera) fun _ => Attempt.only_pure _
  | returning identity? => exact Attempt.only_bind (only_awaitReturn config identity?) fun _ => Attempt.only_pure _
  | completed => exact Attempt.only_pure _
  | _ => exact Program.Only.mono (only_advance_channel rfl) fun _ => Dfu.Calls.ofKinds

theorem within_of_begins_advance (hb : (a.advance config image).Begins h) : Within a.kinds h :=
  (only_advance a).within hb

theorem verdict_not_mem_kinds (a : Stage) : CallKind.verdict ∉ a.kinds := by
  cases a <;> simp [kinds]

/-- Before there is a channel, nothing is transferred. -/
theorem transfer_not_mem_kinds (ha : 5 < a.left) : CallKind.transfer ∉ a.kinds := by
  cases a <;> simp [left, kinds] at ha ⊢

theorem only_complete (n : Nat) (a : Stage) :
    (a.complete config image n).Only fun c => kindOf c ≠ .verdict := by
  induction n generalizing a with
  | zero => exact Attempt.only_pure _
  | succ n ih =>
    refine Attempt.only_bind (Program.Only.mono (only_advance a) fun c hc hverdict => ?_) ih
    exact verdict_not_mem_kinds a (hverdict ▸ hc)

/-! ## Walks -/

/-- The calls of the stages from one to another, each of which ended well. -/
inductive Walk (config : UpdateConfig) (image : FirmwareImage) : Stage → History → Stage → Prop
  | here (a : Stage) : Walk config image a [] a
  | step {a b c : Stage} {h h' : History} : Walk config image a h b →
      (b.advance config image).Finishes h' (.ok c) →
      Walk config image a (h ++ h') c

/-- The last stage that is behind. -/
theorem Walk.last (hw : Walk config image a h c) : h = [] ∧ c = a ∨
    ∃ b h₁ h₂, h = h₁ ++ h₂ ∧ Walk config image a h₁ b ∧ Advances config image b h₂ c := by
  cases hw with
  | here => exact .inl ⟨rfl, rfl⟩
  | step hw hf => exact .inr ⟨_, _, _, rfl, hw, advances_of_finishes hf⟩

theorem Walk.cons (hf : (a.advance config image).Finishes h (.ok b)) (hw : Walk config image b h' c) :
    Walk config image a (h ++ h') c := by
  induction hw with
  | here =>
    have := Walk.step (.here a) hf
    simpa using this
  | step _ hf' ih =>
    have := Walk.step ih hf'
    simpa using this

theorem Walk.calls {P : CallKind → Prop} (hP : ∀ b : Stage, c.left < b.left → ∀ k ∈ b.kinds, P k)
    (hw : Walk config image a h c) : ∀ e ∈ h, P (kindOf e.call) := by
  induction hw with
  | here => simp
  | @step b c h₁ h₂ _ hf ih =>
    have hleft := left_of_finishes hf
    intro e he
    rcases List.mem_append.mp he with he | he
    · exact ih (fun d hd => hP d (by omega)) e he
    · have hmem := within_of_begins_advance hf.begins e he
      refine hP b ?_ _ hmem
      cases hb : b.left with
      | zero =>
        cases b with
        | completed => simp [kinds] at hmem
        | _ => cases hb
      | succ n => omega

theorem Walk.not_transfer (hw : Walk config image a h c) (hc : 5 ≤ c.left) : ∀ e ∈ h, kindOf e.call ≠ .transfer :=
  hw.calls (P := (· ≠ .transfer)) fun _ hb _ hk =>
    ne_of_mem_of_not_mem hk (transfer_not_mem_kinds (Nat.lt_of_le_of_lt hc hb))

/-- Some stages that are under way: some of them are behind, and the one after them has begun. -/
theorem begins_complete {n : Nat} (hb : (a.complete config image n).Begins h) (hne : h ≠ []) : ∃ b h₁ h₂,
    h = h₁ ++ h₂ ∧ h₂ ≠ [] ∧ Walk config image a h₁ b ∧ (b.advance config image).Begins h₂ := by
  induction n generalizing a h with
  | zero => exact absurd (Attempt.begins_pure.mp hb) hne
  | succ n ih =>
    rcases Attempt.begins_bind.mp hb with hb | ⟨b, h₁, h₂, rfl, hf, hb⟩
    · exact ⟨a, [], h, rfl, hne, .here a, hb⟩
    · by_cases hnil : h₂ = []
      · subst hnil
        exact ⟨a, [], h₁, by simp, by simpa using hne, .here a, hf.begins⟩
      · obtain ⟨c, h₃, h₄, rfl, hne', hw, hb⟩ := ih hb hnil
        exact ⟨c, h₁ ++ h₃, h₄, by simp, hne', .cons hf hw, hb⟩

/-- Some stages that are under way have not come to a level yet, or have come to a stage at this level. -/
theorem begins_complete_at {n level : Nat} (hn : n = a.left) (hlevel : level ≤ n)
    (hb : (a.complete config image n).Begins h) :
    (∃ b h₁ h₂, level < b.left ∧ h = h₁ ++ h₂ ∧ Walk config image a h₁ b ∧ (b.advance config image).Begins h₂) ∨
      ∃ b h₁ h₂, b.left = level ∧ h = h₁ ++ h₂ ∧ Walk config image a h₁ b ∧
        (b.complete config image level).Begins h₂ := by
  induction n generalizing a h with
  | zero =>
    obtain rfl := Nat.le_zero.mp hlevel
    exact .inr ⟨a, [], h, hn.symm, rfl, .here a, hb⟩
  | succ n ih =>
    rcases Nat.eq_or_lt_of_le hlevel with rfl | hlt
    · exact .inr ⟨a, [], h, hn.symm, rfl, .here a, hb⟩
    rcases Attempt.begins_bind.mp hb with hb | ⟨b, h₁, h₂, rfl, hf, hb⟩
    · exact .inl ⟨a, [], h, by omega, rfl, .here a, hb⟩
    have hleft := left_of_finishes hf
    rcases ih (by omega) (by omega) hb with ⟨d, h₃, h₄, hd, rfl, hw, hb⟩ | ⟨d, h₃, h₄, hd, rfl, hw, hb⟩
    · exact .inl ⟨d, h₁ ++ h₃, h₄, hd, by simp, .cons hf hw, hb⟩
    · exact .inr ⟨d, h₁ ++ h₃, h₄, hd, by simp, .cons hf hw, hb⟩

/-- From a stage on, only stages with no more left make calls. -/
theorem calls_of_begins_complete {n : Nat} {P : (cameras.sum host).Call → Prop}
    (hP : ∀ b : Stage, b.left ≤ a.left → (b.advance config image).Only P)
    (hb : (a.complete config image n).Begins h) :
    ∀ e ∈ h, P e.call := by
  induction n generalizing a h with
  | zero => simp [Attempt.begins_pure.mp hb]
  | succ n ih =>
    have hstage := hP a (Nat.le_refl _)
    rcases Attempt.begins_bind.mp hb with hb | ⟨b, h₁, h₂, rfl, hf, hb⟩
    · exact Program.Only.calls hstage hb
    · have hleft := left_of_finishes hf
      intro e he
      rcases List.mem_append.mp he with he | he
      · exact Program.Only.calls hstage hf.begins e he
      · exact ih (fun c hc => hP c (by omega)) hb e he

theorem kinds_of_begins_complete {n : Nat} {P : CallKind → Prop}
    (hP : ∀ b : Stage, b.left ≤ a.left → ∀ k ∈ b.kinds, P k) (hb : (a.complete config image n).Begins h) :
    ∀ e ∈ h, P (kindOf e.call) :=
  calls_of_begins_complete (P := fun c => P (kindOf c))
    (fun b hle => Program.Only.mono (only_advance b) fun _ hc => hP b hle _ hc) hb

/-- Whatever comes after a stage with a channel transfers on this channel. -/
theorem transfers_of_begins_complete {n : Nat} {channel : ControlChannel}
    (ha : a.channel? = some channel ∨ a.left ≤ 1) (hb : (a.complete config image n).Begins h) :
    ∀ e ∈ h, ∀ c packet timeout, e.call = .inl (.transfer c packet timeout) → c = channel := by
  induction n generalizing a h with
  | zero => simp [Attempt.begins_pure.mp hb]
  | succ n ih =>
    have hstage : ∀ h', (a.advance config image).Begins h' →
        ∀ e ∈ h', ∀ c packet timeout, e.call = .inl (.transfer c packet timeout) → c = channel := by
      intro h' hb' e he c packet timeout hcall
      rcases ha with ha | ha
      · rcases Program.Only.calls (only_advance_channel ha) hb' e he with ⟨packet', timeout', hcall'⟩ | hkind
        · rw [hcall] at hcall'
          cases hcall'
          rfl
        · rw [hcall] at hkind
          simp at hkind
      · have hkind := within_of_begins_advance hb' e he
        rw [hcall] at hkind
        cases a <;> simp [left, kinds] at ha hkind
    rcases Attempt.begins_bind.mp hb with hb | ⟨b, h₁, h₂, rfl, hf, hb⟩
    · exact hstage h hb
    have hnext : b.channel? = some channel ∨ b.left ≤ 1 := by
      cases advances_of_finishes hf with
      | prepared _ | sent _ | ended _ => exact ha.imp_right fun hle => by simp [left] at hle
      | programmed _ _ | returned _ | rest => exact .inr (by simp [left])
      | _ => rcases ha with ha | ha <;> simp [channel?, left] at ha
    intro e he
    rcases List.mem_append.mp he with he | he
    · exact hstage h₁ hf.begins e he
    · exact ih hnext hb e he

/-- A kind of call that is made only by stages with so many left, and at most once by each,
is made at most once. -/
theorem countOf_complete_le_one {n level : Nat} {kind : CallKind}
    (hlevel : ∀ b : Stage, kind ∈ b.kinds → b.left = level) (hlast : 0 < level)
    (hone : ∀ b : Stage, kind ∈ b.kinds → ∀ h, (b.advance config image).Begins h → countOf kind h ≤ 1)
    (hb : (a.complete config image n).Begins h) : countOf kind h ≤ 1 := by
  induction n generalizing a h with
  | zero =>
    rw [Attempt.begins_pure.mp hb]
    exact Nat.zero_le 1
  | succ n ih =>
    by_cases hmem : kind ∈ a.kinds
    · rcases Attempt.begins_bind.mp hb with hb | ⟨b, h₁, h₂, rfl, hf, hb⟩
      · exact hone a hmem h hb
      -- The stages after this one do not make such calls.
      have hleft := left_of_finishes hf
      have hrest : countOf kind h₂ = 0 := by
        refine countOf_eq_zero (kinds_of_begins_complete (P := (· ≠ kind)) (fun c hc k hk hkind => ?_) hb)
        have := hlevel a hmem
        have := hlevel c (hkind ▸ hk)
        omega
      have := hone a hmem h₁ hf.begins
      rw [countOf_append]
      omega
    · rcases Attempt.begins_bind.mp hb with hb | ⟨b, h₁, h₂, rfl, hf, hb⟩
      · rw [(within_of_begins_advance hb).countOf_eq_zero hmem]
        exact Nat.zero_le 1
      · rw [countOf_append, (within_of_begins_advance hf.begins).countOf_eq_zero hmem, Nat.zero_add]
        exact ih hb

theorem finishes_complete_ok {n : Nat} (hn : n = a.left) (hf : (a.complete config image n).Finishes h (.ok ())) :
    Walk config image a h completed := by
  induction n generalizing a h with
  | zero =>
    obtain ⟨rfl, -⟩ := Attempt.finishes_pure.mp hf
    cases a <;> first | exact .here _ | cases hn
  | succ n ih =>
    obtain ⟨b, h₁, h₂, rfl, hadv, hf⟩ := Attempt.finishes_bind_ok.mp hf
    refine .cons hadv (ih ?_ hf)
    rw [left_of_finishes hadv]
    omega

theorem finishes_complete_error {n : Nat} {e : UpdateError}
    (hf : (a.complete config image n).Finishes h (.error e)) :
    ∃ b h₁ h₂, h = h₁ ++ h₂ ∧ Walk config image a h₁ b ∧ (b.advance config image).Finishes h₂ (.error e) := by
  induction n generalizing a h with
  | zero => cases (Attempt.finishes_pure.mp hf).2
  | succ n ih =>
    rcases Attempt.finishes_bind_error.mp hf with hf | ⟨b, h₁, h₂, rfl, hadv, hf⟩
    · exact ⟨a, [], h, rfl, .here a, hf⟩
    · obtain ⟨c, h₃, h₄, rfl, hw, hf⟩ := ih hf
      exact ⟨c, h₁ ++ h₃, h₄, by simp, .cons hadv hw, hf⟩

/-- What comes after a walk ends all stages as it ends. -/
theorem Walk.finishes_complete {r : Except UpdateError Unit} (hw : Walk config image a h b)
    (hf : (b.complete config image b.left).Finishes h' r) :
    (a.complete config image a.left).Finishes (h ++ h') r := by
  induction hw generalizing h' with
  | here => exact hf
  | @step b c h h'' _ hadv ih =>
    rw [List.append_assoc]
    refine ih ?_
    have hleft := left_of_finishes hadv
    cases hb : b.left with
    | zero =>
      cases advances_of_finishes hadv with
      | rest => exact hf
      | _ => cases hb
    | succ n =>
      obtain rfl : c.left = n := by omega
      exact hadv.bind hf

theorem Walk.finishes_complete_error {e : UpdateError} (hw : Walk config image a h b)
    (hf : (b.advance config image).Finishes h' (.error e)) :
    (a.complete config image a.left).Finishes (h ++ h') (.error e) := by
  refine hw.finishes_complete ?_
  cases hb : b.left with
  | zero =>
    cases b with
    | completed => cases (Attempt.finishes_pure.mp hf).2
    | _ => cases hb
  | succ n => exact Attempt.finishes_bind_error.mpr (.inl hf)

/-! ## What lies behind a stage -/

variable {camera camera' : Camera} {identity : String} {identity? : Option String} {channel : ControlChannel}

theorem walk_identifying (hw : Walk config image (start camera) h (identifying camera')) :
    camera' = camera ∧ camera.kind.isRecovery = false ∧ h = [] := by
  rcases hw.last with ⟨rfl, heq⟩ | ⟨b, h₁, h₂, rfl, hw, hadv⟩
  · unfold start at heq
    split at heq
    · cases heq
    · rename_i hmode
      cases heq
      exact ⟨rfl, by simpa using hmode, rfl⟩
  · cases hadv

theorem walk_recognising (hw : Walk config image (start camera) h (recognising camera')) :
    camera' = camera ∧ camera.kind.isRecovery = true ∧ h = [] := by
  rcases hw.last with ⟨rfl, heq⟩ | ⟨b, h₁, h₂, rfl, hw, hadv⟩
  · unfold start at heq
    split at heq
    · rename_i hmode
      cases heq
      exact ⟨rfl, hmode, rfl⟩
    · cases heq
  · cases hadv

/-- A stage that is no first stage was entered from another one. -/
theorem Walk.entered (hw : Walk config image (start camera) h c) (hidentifying : ∀ camera, c ≠ identifying camera)
    (hrecognising : ∀ camera, c ≠ recognising camera) :
    ∃ b h₁ h₂, h = h₁ ++ h₂ ∧ Walk config image (start camera) h₁ b ∧ Advances config image b h₂ c := by
  rcases hw.last with ⟨-, heq⟩ | h
  · exfalso
    by_cases hmode : camera.kind.isRecovery = true
    · exact hrecognising camera (by rw [heq, start, if_pos hmode])
    · exact hidentifying camera (by rw [heq, start, if_neg hmode])
  · exact h

theorem walk_securing (hw : Walk config image (start camera) h (securing camera' identity)) :
    camera' = camera ∧ camera.kind.isRecovery = false ∧ (identify camera).Finishes h (.ok identity) := by
  obtain ⟨b, h₁, h₂, rfl, hprior, hadv⟩ := hw.entered nofun nofun
  cases hadv with
  | identified hf =>
    obtain ⟨rfl, hmode, rfl⟩ := walk_identifying hprior
    exact ⟨rfl, hmode, hf⟩

theorem walk_switching (hw : Walk config image (start camera) h (switching camera' identity)) :
    camera' = camera ∧ camera.kind.isRecovery = false ∧ ∃ h₁ h₂, h = h₁ ++ h₂ ∧
      (identify camera).Finishes h₁ (.ok identity) ∧ (secure config camera identity).Finishes h₂ (.ok ()) := by
  obtain ⟨b, h₁, h₂, rfl, hprior, hadv⟩ := hw.entered nofun nofun
  cases hadv with
  | secured hf =>
    obtain ⟨rfl, hmode, hid⟩ := walk_securing hprior
    exact ⟨rfl, hmode, h₁, h₂, rfl, hid, hf⟩

theorem walk_finding (hw : Walk config image (start camera) h (finding identity)) :
    ∃ h₁ h₂, h = h₁ ++ h₂ ∧ Walk config image (start camera) h₁ (switching camera identity) ∧
      (switchMode camera).Finishes h₂ (.ok ()) := by
  obtain ⟨b, h₁, h₂, rfl, hprior, hadv⟩ := hw.entered nofun nofun
  cases hadv with
  | switched hf =>
    obtain ⟨rfl, -, -⟩ := walk_switching hprior
    exact ⟨h₁, h₂, rfl, hprior, hf⟩

/-- A channel is opened on a camera that was found again, or on the one in recovery mode with
which the update began. -/
theorem walk_opening (hw : Walk config image (start camera) h (opening camera' identity?)) :
    camera.kind.isRecovery = true ∧ camera' = camera ∧ (recognise camera).Finishes h identity? ∨
      camera.kind.isRecovery = false ∧ ∃ identity h₁ h₂, identity? = some identity ∧ h = h₁ ++ h₂ ∧
        Walk config image (start camera) h₁ (finding identity) ∧
        (findRecovery config identity).Finishes h₂ (.ok camera') := by
  obtain ⟨b, h₁, h₂, rfl, hprior, hadv⟩ := hw.entered nofun nofun
  cases hadv with
  | found hf =>
    obtain ⟨h₃, h₄, rfl, hprior', -⟩ := walk_finding hprior
    exact .inr ⟨(walk_switching hprior').2.1, _, _, h₂, rfl, rfl, hprior, hf⟩
  | recognised hf =>
    obtain ⟨rfl, hmode, rfl⟩ := walk_recognising hprior
    exact .inl ⟨hmode, rfl, hf⟩

theorem walk_preparing (hw : Walk config image (start camera) h (preparing channel identity?)) : ∃ target h₁ h₂,
    h = h₁ ++ h₂ ∧ Walk config image (start camera) h₁ (opening target identity?) ∧
      (openChannel target).Finishes h₂ (.ok channel) := by
  obtain ⟨b, h₁, h₂, rfl, hprior, hadv⟩ := hw.entered nofun nofun
  cases hadv with
  | opened hf => exact ⟨_, h₁, h₂, rfl, hprior, hf⟩

theorem walk_sending (hw : Walk config image (start camera) h (sending channel identity?)) : ∃ status h₁ h₂,
    h = h₁ ++ h₂ ∧ Walk config image (start camera) h₁ (preparing channel identity?) ∧
      (Dfu.prepare channel config.transfer).Finishes h₂ (.ok status) := by
  obtain ⟨b, h₁, h₂, rfl, hprior, hadv⟩ := hw.entered nofun nofun
  cases hadv with
  | prepared hf => exact ⟨_, h₁, h₂, rfl, hprior, hf⟩

theorem walk_ending {transaction : UInt16}
    (hw : Walk config image (start camera) h (ending channel identity? transaction)) : ∃ h₁ h₂,
    h = h₁ ++ h₂ ∧ Walk config image (start camera) h₁ (sending channel identity?) ∧
      (Dfu.download channel config.transfer true image.data heedTransfer).Finishes h₂ (.ok transaction) := by
  obtain ⟨b, h₁, h₂, rfl, hprior, hadv⟩ := hw.entered nofun nofun
  cases hadv with
  | sent hf => exact ⟨h₁, h₂, rfl, hprior, hf⟩

theorem walk_manifesting (hw : Walk config image (start camera) h (manifesting channel identity?)) :
    ∃ transaction h₁ h₂, h = h₁ ++ h₂ ∧
      Walk config image (start camera) h₁ (ending channel identity? transaction) ∧
      (Dfu.finish channel config.transfer heedTransfer transaction).Finishes h₂ (.ok ()) := by
  obtain ⟨b, h₁, h₂, rfl, hprior, hadv⟩ := hw.entered nofun nofun
  cases hadv with
  | ended hf => exact ⟨_, h₁, h₂, rfl, hprior, hf⟩

theorem walk_returning (hw : Walk config image (start camera) h (returning identity?)) :
    ∃ channel status h₁ h₂ notes, h = h₁ ++ (h₂ ++ notes) ∧
      Walk config image (start camera) h₁ (manifesting channel identity?) ∧
      (Dfu.manifest channel config.transfer).Finishes h₂ (.ok status) ∧ Within [.log, .record] notes := by
  obtain ⟨b, h₁, h₂, rfl, hprior, hadv⟩ := hw.entered nofun nofun
  cases hadv with
  | programmed hf hnotes => exact ⟨_, _, h₁, _, _, rfl, hprior, hf, hnotes⟩

theorem walk_completed (hw : Walk config image (start camera) h completed) : ∃ identity? h₁ h₂, h = h₁ ++ h₂ ∧
    Walk config image (start camera) h₁ (returning identity?) ∧
    (awaitReturn config identity?).Finishes h₂ (.ok ()) := by
  generalize hc : completed = c at hw
  induction hw with
  | here =>
    unfold start at hc
    split at hc <;> cases hc
  | @step b c h₁ h₂ hprior hf ih =>
    subst hc
    cases advances_of_finishes hf with
    | returned hf => exact ⟨_, h₁, h₂, rfl, hprior, hf⟩
    | rest =>
      rw [List.append_nil]
      exact ih rfl

/-- A stage has the channel that was opened on the way to it. -/
theorem Walk.opened (hw : Walk config image (start camera) h c) (hc : c.channel? = some channel) :
    ∃ target, .asked (.openControl target) (some (.ok channel)) ∈ h := by
  induction hw with
  | here =>
    unfold start at hc
    split at hc <;> cases hc
  | @step b c h₁ h₂ _ hf ih =>
    cases advances_of_finishes hf with
    | @opened target _ _ _ hopen =>
      cases hc
      obtain ⟨pre, rfl, -⟩ := finishes_openChannel_ok hopen
      exact ⟨target, by simp⟩
    | prepared _ | sent _ | ended _ =>
      obtain ⟨target, hmem⟩ := ih hc
      exact ⟨target, List.mem_append_left _ hmem⟩
    | _ => cases hc

/-- A complete update opened a channel, and programmed the image over it. -/
theorem Walk.programmed (hw : Walk config image (start camera) h completed) :
    ∃ target channel identity? status transaction status' h₁ h₂ h₃ h₄ h₅ h₆ notes h₇,
      h = h₁ ++ (h₂ ++ (h₃ ++ (h₄ ++ (h₅ ++ (h₆ ++ (notes ++ h₇)))))) ∧
      Walk config image (start camera) h₁ (opening target identity?) ∧
      (openChannel target).Finishes h₂ (.ok channel) ∧
      (Dfu.prepare channel config.transfer).Finishes h₃ (.ok status) ∧
      (Dfu.download channel config.transfer true image.data heedTransfer).Finishes h₄ (.ok transaction) ∧
      (Dfu.finish channel config.transfer heedTransfer transaction).Finishes h₅ (.ok ()) ∧
      (Dfu.manifest channel config.transfer).Finishes h₆ (.ok status') ∧ Within [.log, .record] notes ∧
      (awaitReturn config identity?).Finishes h₇ (.ok ()) := by
  obtain ⟨identity?, h₁₁, h₇, rfl, hw, hreturn⟩ := walk_completed hw
  obtain ⟨channel, status', h₁₀, h₆, notes, rfl, hw, hmanifest, hnotes⟩ := walk_returning hw
  obtain ⟨transaction, h₉, h₅, rfl, hw, hfinish⟩ := walk_manifesting hw
  obtain ⟨h₈, h₄, rfl, hw, hdownload⟩ := walk_ending hw
  obtain ⟨status, h₇', h₃, rfl, hw, hprepare⟩ := walk_sending hw
  obtain ⟨target, h₁, h₂, rfl, hw, hopen⟩ := walk_preparing hw
  exact ⟨target, channel, identity?, status, transaction, status', h₁, h₂, h₃, h₄, h₅, h₆, notes,
    h₇, by simp, hw, hopen, hprepare, hdownload, hfinish, hmanifest, hnotes, hreturn⟩

end Stage

end Session

end Reflash
