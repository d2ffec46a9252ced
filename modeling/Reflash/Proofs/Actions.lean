import Mathlib.Tactic.Common
import Reflash.Camera
import Reflash.Proofs.Runs

/-!
# Reflash.Proofs.Actions — runs of programs that work with cameras

The rules of `Runs` for the calls of an `Action` and for the steps of an `Attempt`: a step that fails ends the
attempt with its failure, and each rule says which calls were made until then.  `CallKind` sorts the calls, so
that the footprint of a program is a list of kinds.
-/

namespace Reflash

open Program

/-- Calls on cameras and host, with their answers. -/
abbrev History := List (Event (cameras.sum host))

abbrev Event.asked (c : CameraCall) (a? : Option c.Answer) : Event (cameras.sum host) :=
  ⟨(.inl c : CameraCall ⊕ HostCall), a?⟩

abbrev Event.told (c : HostCall) (a? : Option c.Answer) : Event (cameras.sum host) :=
  ⟨(.inr c : CameraCall ⊕ HostCall), a?⟩

/-! ## Events compare -/

instance : (c : CameraCall) → DecidableEq c.Answer
  | .list | .serial _ | .sensors _ | .firmware _ | .exchange _ _ _ | .enterRecovery _ | .openControl _
  | .transfer _ _ _ => inferInstanceAs (DecidableEq (Except _ _))
  | .openMonitor _ => inferInstanceAs (DecidableEq Bool)

instance : (c : HostCall) → DecidableEq c.Answer
  | .now | .localTime => inferInstanceAs (DecidableEq Nat)
  | .stopRequested => inferInstanceAs (DecidableEq Bool)
  | .createDirs _ | .writeFile _ _ | .rename _ _ | .readFile _ => inferInstanceAs (DecidableEq (Except _ _))
  | .sleep _ | .log _ | .write _ | .progress _ | .print _ | .bar _ | .aboveBar _ =>
    inferInstanceAs (DecidableEq Unit)

instance : DecidableEq (Event (cameras.sum host))
  | ⟨.inl c, a?⟩, ⟨.inl c', a'?⟩ =>
    if hc : c = c' then decidable_of_iff (hc ▸ a? = a'?) (by cases hc; simp)
    else isFalse fun heq => hc (by cases heq; rfl)
  | ⟨.inr c, a?⟩, ⟨.inr c', a'?⟩ =>
    if hc : c = c' then decidable_of_iff (hc ▸ a? = a'?) (by cases hc; simp)
    else isFalse fun heq => hc (by cases heq; rfl)
  | ⟨.inl _, _⟩, ⟨.inr _, _⟩ | ⟨.inr _, _⟩, ⟨.inl _, _⟩ => isFalse nofun

section Actions

variable {ε δ α β : Type} {h : History}

-- The type of an answer reduces once its call is known, so it must not be a key of these rules.
@[simp] theorem finishes_ask {c : CameraCall} {a : c.Answer} :
    @Program.Finishes (cameras.sum host) (no_index c.Answer) (ask c) h a ↔ h = [.asked c (some a)] :=
  finishes_perform

@[simp] theorem begins_ask {c : CameraCall} :
    @Program.Begins (cameras.sum host) (no_index c.Answer) (ask c) h ↔ h = [] ∨ ∃ a?, h = [.asked c a?] :=
  begins_perform

@[simp] theorem finishes_tell {c : HostCall} {a : c.Answer} :
    @Program.Finishes (cameras.sum host) (no_index c.Answer) (tell c) h a ↔ h = [.told c (some a)] :=
  finishes_perform

@[simp] theorem begins_tell {c : HostCall} :
    @Program.Begins (cameras.sum host) (no_index c.Answer) (tell c) h ↔ h = [] ∨ ∃ a?, h = [.told c a?] :=
  begins_perform

@[simp] theorem finishes_report {level : LogLevel} {text : String} {u : Unit} :
    (report level text).Finishes h u ↔ h = [.told (.log { level, text }) (some ())] := finishes_tell

/-! ## Attempts -/

namespace Attempt

/-- Some run makes the calls `h` and ends with the result or failure `r`. -/
def Finishes (x : Attempt ε α) (h : History) (r : Except ε α) : Prop := Program.Finishes x.run h r

/-- Some run starts with the calls `h`. -/
def Begins (x : Attempt ε α) (h : History) : Prop := Program.Begins x.run h

/-- Every call is one of `P`. -/
def Only (P : (cameras.sum host).Call → Prop) (x : Attempt ε α) : Prop := Program.Only P x.run

/-- A run stalls only after a call of `P`. -/
def StallsAfter (P : (cameras.sum host).Call → Prop) (x : Attempt ε α) : Prop := Program.StallsAfter P x.run

@[simp] theorem finishes_run {x : Attempt ε α} {r : Except ε α} : Program.Finishes x.run h r ↔ x.Finishes h r :=
  .rfl

@[simp] theorem begins_run {x : Attempt ε α} : Program.Begins x.run h ↔ x.Begins h := .rfl

theorem Finishes.begins {x : Attempt ε α} {r : Except ε α} (hx : x.Finishes h r) : x.Begins h :=
  Program.Finishes.begins hx

theorem Finishes.unique {x : Attempt ε α} {h₁ h₂ r₁ r₂ : History} {a b : Except ε α} (h₁a : x.Finishes h₁ a)
    (h₂b : x.Finishes h₂ b) (heq : h₁ ++ r₁ = h₂ ++ r₂) : h₁ = h₂ ∧ r₁ = r₂ ∧ a = b :=
  Program.Finishes.unique h₁a h₂b heq

theorem run_bind (x : Attempt ε α) (f : α → Attempt ε β) :
    (x >>= f).run = x.run.bind fun | .ok a => (f a).run | .error e => .done (.error e) := rfl

theorem run_lift (p : Action α) : (liftM p : Attempt ε α).run = p.bind fun a => .done (.ok a) := rfl

theorem run_of (f : δ → ε) (x : Action (Except δ α)) :
    (Attempt.of f x).run = x.bind fun r => .done (r.mapError f) := by
  show x.bind _ = _
  congr
  funext r
  cases r <;> rfl

theorem run_discard (x : Attempt ε α) :
    (discard x).run = x.run.bind fun | .ok _ => .done (.ok ()) | .error e => .done (.error e) := rfl

@[simp] theorem throw_bind (e : ε) (f : α → Attempt ε β) : (throw e : Attempt ε α) >>= f = throw e := rfl

@[simp] theorem finishes_bind_ok {x : Attempt ε α} {f : α → Attempt ε β} {b : β} :
    (x >>= f).Finishes h (.ok b) ↔
      ∃ a h₁ h₂, h = h₁ ++ h₂ ∧ x.Finishes h₁ (.ok a) ∧ (f a).Finishes h₂ (.ok b) := by
  rw [Finishes, run_bind, finishes_bind]
  constructor
  · rintro ⟨a | a, h₁, h₂, rfl, hx, hf⟩
    · cases hf
    · exact ⟨a, h₁, h₂, rfl, hx, hf⟩
  · rintro ⟨a, h₁, h₂, rfl, hx, hf⟩
    exact ⟨.ok a, h₁, h₂, rfl, hx, hf⟩

@[simp] theorem finishes_bind_error {x : Attempt ε α} {f : α → Attempt ε β} {e : ε} :
    (x >>= f).Finishes h (.error e) ↔ x.Finishes h (.error e) ∨
      ∃ a h₁ h₂, h = h₁ ++ h₂ ∧ x.Finishes h₁ (.ok a) ∧ (f a).Finishes h₂ (.error e) := by
  rw [Finishes, run_bind, finishes_bind]
  constructor
  · rintro ⟨a | a, h₁, h₂, rfl, hx, hf⟩
    · cases hf
      exact .inl (by simpa using hx)
    · exact .inr ⟨a, h₁, h₂, rfl, hx, hf⟩
  · rintro (hx | ⟨a, h₁, h₂, rfl, hx, hf⟩)
    · exact ⟨.error e, h, [], by simp, hx, .done _⟩
    · exact ⟨.ok a, h₁, h₂, rfl, hx, hf⟩

theorem Finishes.bind {x : Attempt ε α} {f : α → Attempt ε β} {a : α} {r : Except ε β} {h' : History}
    (hx : x.Finishes h (.ok a)) (hf : (f a).Finishes h' r) : (x >>= f).Finishes (h ++ h') r := by
  rw [Finishes, run_bind, finishes_bind]
  exact ⟨.ok a, h, h', rfl, hx, hf⟩

@[simp] theorem begins_bind {x : Attempt ε α} {f : α → Attempt ε β} :
    (x >>= f).Begins h ↔ x.Begins h ∨
      ∃ a h₁ h₂, h = h₁ ++ h₂ ∧ x.Finishes h₁ (.ok a) ∧ (f a).Begins h₂ := by
  rw [Begins, run_bind, Program.begins_bind]
  constructor
  · rintro (hx | ⟨a | a, h₁, h₂, rfl, hx, hf⟩)
    · exact .inl hx
    · obtain rfl := begins_done.mp hf
      exact .inl (by simpa using hx.begins)
    · exact .inr ⟨a, h₁, h₂, rfl, hx, hf⟩
  · rintro (hx | ⟨a, h₁, h₂, rfl, hx, hf⟩)
    · exact .inl hx
    · exact .inr ⟨.ok a, h₁, h₂, rfl, hx, hf⟩

@[simp] theorem finishes_pure {a : α} {r : Except ε α} :
    (pure a : Attempt ε α).Finishes h r ↔ h = [] ∧ r = .ok a := finishes_done

@[simp] theorem begins_pure {a : α} : (pure a : Attempt ε α).Begins h ↔ h = [] := begins_done

/-- A result that is only wrapped. -/
theorem finishes_bind_pure_ok {x : Attempt ε α} {f : α → β} {b : β} :
    (x >>= fun a => pure (f a)).Finishes h (.ok b) ↔ ∃ a, x.Finishes h (.ok a) ∧ b = f a := by
  rw [finishes_bind_ok]
  constructor
  · rintro ⟨a, h₁, h₂, rfl, hx, hf⟩
    obtain ⟨rfl, hb⟩ := finishes_pure.mp hf
    exact ⟨a, by simpa using hx, Except.ok.inj hb⟩
  · rintro ⟨a, hx, rfl⟩
    exact ⟨a, h, [], by simp, hx, finishes_pure.mpr ⟨rfl, rfl⟩⟩

theorem begins_bind_pure {x : Attempt ε α} {f : α → β} : (x >>= fun a => pure (f a)).Begins h ↔ x.Begins h := by
  rw [begins_bind]
  constructor
  · rintro (hx | ⟨a, h₁, h₂, rfl, hx, hf⟩)
    · exact hx
    · obtain rfl := begins_pure.mp hf
      simpa using hx.begins
  · exact .inl

@[simp] theorem finishes_throw {e : ε} {r : Except ε α} :
    (throw e : Attempt ε α).Finishes h r ↔ h = [] ∧ r = .error e := finishes_done

@[simp] theorem begins_throw {e : ε} : (throw e : Attempt ε α).Begins h ↔ h = [] := begins_done

@[simp] theorem finishes_decided {x r : Except ε α} : (Attempt.decided x).Finishes h r ↔ h = [] ∧ r = x :=
  finishes_done

@[simp] theorem begins_decided {x : Except ε α} : (Attempt.decided x).Begins h ↔ h = [] := begins_done

@[simp] theorem finishes_lift_ok {p : Action α} {a : α} :
    (liftM p : Attempt ε α).Finishes h (.ok a) ↔ p.Finishes h a := by
  rw [Finishes, run_lift, finishes_bind]
  constructor
  · rintro ⟨b, h₁, h₂, rfl, hp, hf⟩
    cases hf
    simpa using hp
  · exact fun hp => ⟨a, h, [], by simp, hp, .done _⟩

@[simp] theorem not_finishes_lift_error {p : Action α} {e : ε} :
    ¬ (liftM p : Attempt ε α).Finishes h (.error e) := by
  rw [Finishes, run_lift, finishes_bind]
  rintro ⟨b, h₁, h₂, rfl, -, hf⟩
  cases hf

@[simp] theorem begins_lift {p : Action α} : (liftM p : Attempt ε α).Begins h ↔ p.Begins h := by
  rw [Begins, run_lift, Program.begins_bind]
  constructor
  · rintro (hp | ⟨a, h₁, h₂, rfl, hp, hf⟩)
    · exact hp
    · obtain rfl := begins_done.mp hf
      simpa using hp.begins
  · exact .inl

@[simp] theorem finishes_of_ok {f : δ → ε} {x : Action (Except δ α)} {a : α} :
    (Attempt.of f x).Finishes h (.ok a) ↔ x.Finishes h (.ok a) := by
  rw [Finishes, run_of, finishes_bind]
  constructor
  · rintro ⟨r | r, h₁, h₂, rfl, hx, hf⟩
    · cases hf
    · cases hf
      simpa using hx
  · exact fun hx => ⟨.ok a, h, [], by simp, hx, .done _⟩

@[simp] theorem finishes_of_error {f : δ → ε} {x : Action (Except δ α)} {e : ε} :
    (Attempt.of f x).Finishes h (.error e) ↔ ∃ d, x.Finishes h (.error d) ∧ e = f d := by
  rw [Finishes, run_of, finishes_bind]
  constructor
  · rintro ⟨r | r, h₁, h₂, rfl, hx, hf⟩
    · cases hf
      exact ⟨r, by simpa using hx, rfl⟩
    · cases hf
  · rintro ⟨d, hx, rfl⟩
    exact ⟨.error d, h, [], by simp, hx, .done _⟩

@[simp] theorem begins_of {f : δ → ε} {x : Action (Except δ α)} : (Attempt.of f x).Begins h ↔ x.Begins h := by
  rw [Begins, run_of, Program.begins_bind]
  constructor
  · rintro (hx | ⟨r, h₁, h₂, rfl, hx, hf⟩)
    · exact hx
    · obtain rfl := begins_done.mp hf
      simpa using hx.begins
  · exact .inl

@[simp] theorem finishes_discard_ok {x : Attempt ε α} {u : Unit} :
    (discard x).Finishes h (.ok u) ↔ ∃ a, x.Finishes h (.ok a) := by
  rw [Finishes, run_discard, finishes_bind]
  constructor
  · rintro ⟨r | a, h₁, h₂, rfl, hx, hf⟩
    · cases hf
    · cases hf
      exact ⟨a, by simpa using hx⟩
  · rintro ⟨a, hx⟩
    exact ⟨.ok a, h, [], by simp, hx, .done _⟩

@[simp] theorem finishes_discard_error {x : Attempt ε α} {e : ε} :
    (discard x).Finishes h (.error e) ↔ x.Finishes h (.error e) := by
  rw [Finishes, run_discard, finishes_bind]
  constructor
  · rintro ⟨r | a, h₁, h₂, rfl, hx, hf⟩
    · cases hf
      simpa using hx
    · cases hf
  · exact fun hx => ⟨.error e, h, [], by simp, hx, .done _⟩

@[simp] theorem begins_discard {x : Attempt ε α} : (discard x).Begins h ↔ x.Begins h := by
  rw [Begins, run_discard, Program.begins_bind]
  constructor
  · rintro (hx | ⟨r | a, h₁, h₂, rfl, hx, hf⟩)
    · exact hx
    all_goals
      obtain rfl := begins_done.mp hf
      simpa using hx.begins
  · exact .inl

end Attempt

/-! ## Footprints -/

section Footprint

variable {P : (cameras.sum host).Call → Prop}

@[simp] theorem only_ask {c : CameraCall} :
    @Program.Only (cameras.sum host) (no_index c.Answer) P (ask c) ↔ P (.inl c) :=
  only_perform

@[simp] theorem only_tell {c : HostCall} :
    @Program.Only (cameras.sum host) (no_index c.Answer) P (tell c) ↔ P (.inr c) :=
  only_perform

@[simp] theorem only_report {level : LogLevel} {text : String} :
    (report level text).Only P ↔ P (.inr (.log { level, text })) := only_tell

theorem only_shouldStop {heedsStop : Bool} (hP : P (.inr .stopRequested)) : (shouldStop heedsStop).Only P := by
  unfold shouldStop
  split
  · exact only_tell.mpr hP
  · trivial

namespace Attempt

theorem only_bind {x : Attempt ε α} {f : α → Attempt ε β} (hx : x.Only P) (hf : ∀ a, (f a).Only P) :
    (x >>= f).Only P := by
  rw [Only, run_bind]
  refine Program.only_bind hx fun r => ?_
  cases r with
  | error e => trivial
  | ok a => exact hf a

@[simp] theorem only_pure (a : α) : (pure a : Attempt ε α).Only P := trivial

@[simp] theorem only_throw (e : ε) : (throw e : Attempt ε α).Only P := trivial

@[simp] theorem only_decided (x : Except ε α) : (Attempt.decided x).Only P := trivial

theorem only_lift {p : Action α} (hp : p.Only P) : (liftM p : Attempt ε α).Only P :=
  Program.only_bind hp fun _ => trivial

theorem only_of {f : δ → ε} {x : Action (Except δ α)} (hx : x.Only P) : (Attempt.of f x).Only P := by
  rw [Only, run_of]
  exact Program.only_bind hx fun _ => trivial

theorem only_discard {x : Attempt ε α} (hx : x.Only P) : (discard x).Only P := by
  rw [Only, run_discard]
  refine Program.only_bind hx fun r => ?_
  cases r <;> trivial

end Attempt

end Footprint

/-! ## Stalls -/

section Stalls

variable {P : (cameras.sum host).Call → Prop}

@[simp] theorem stallsAfter_ask (c : CameraCall) :
    @Program.StallsAfter (cameras.sum host) (no_index c.Answer) P (ask c) :=
  stallsAfter_perform (I := cameras.sum host) (.inl c)

@[simp] theorem stallsAfter_tell (c : HostCall) :
    @Program.StallsAfter (cameras.sum host) (no_index c.Answer) P (tell c) :=
  stallsAfter_perform (I := cameras.sum host) (.inr c)

@[simp] theorem stallsAfter_report (level : LogLevel) (text : String) : (report level text).StallsAfter P :=
  stallsAfter_tell _

theorem stallsAfter_shouldStop (heedsStop : Bool) : (shouldStop heedsStop).StallsAfter P := by
  unfold shouldStop
  split
  · exact stallsAfter_tell _
  · trivial

namespace Attempt

theorem stallsAfter_bind {x : Attempt ε α} {f : α → Attempt ε β} (hx : x.StallsAfter P)
    (hf : ∀ a, (f a).StallsAfter P) : (x >>= f).StallsAfter P := by
  rw [StallsAfter, run_bind]
  refine Program.stallsAfter_bind hx fun r => ?_
  cases r with
  | error e => trivial
  | ok a => exact hf a

@[simp] theorem stallsAfter_pure (a : α) : (pure a : Attempt ε α).StallsAfter P := trivial

@[simp] theorem stallsAfter_throw (e : ε) : (throw e : Attempt ε α).StallsAfter P := trivial

theorem stallsAfter_lift {p : Action α} (hp : p.StallsAfter P) : (liftM p : Attempt ε α).StallsAfter P :=
  Program.stallsAfter_bind hp fun _ => trivial

theorem stallsAfter_of {f : δ → ε} {x : Action (Except δ α)} (hx : x.StallsAfter P) :
    (Attempt.of f x).StallsAfter P := by
  rw [StallsAfter, run_of]
  exact Program.stallsAfter_bind hx fun _ => trivial

end Attempt

end Stalls

end Actions

/-! ## Kinds of calls -/

/-- What a call is about. -/
inductive CallKind where
  | clock
  | stop
  | log
  /-- A change of the record that leaves the session open. -/
  | record
  /-- A change of the record that ends the session. -/
  | verdict
  | progress
  | files
  | terminal
  | list
  | identity
  | firmware
  | openMonitor
  | exchange
  | restart
  | openControl
  | transfer
  deriving DecidableEq

/-- Whether a change of the record ends the session. -/
def Session.Write.isVerdict : Session.Write → Bool
  | .phase p => p.isTerminal
  | .finishDone | .finishFailed _ => true
  | .progress _ | .log _ => false

@[simp] def kindOf : (cameras.sum host).Call → CallKind
  | .inl .list => .list
  | .inl (.serial _) | .inl (.sensors _) => .identity
  | .inl (.firmware _) => .firmware
  | .inl (.openMonitor _) => .openMonitor
  | .inl (.exchange _ _ _) => .exchange
  | .inl (.enterRecovery _) => .restart
  | .inl (.openControl _) => .openControl
  | .inl (.transfer _ _ _) => .transfer
  | .inr .now | .inr (.sleep _) => .clock
  | .inr .stopRequested => .stop
  | .inr (.log _) => .log
  | .inr (.write w) => if w.isVerdict then .verdict else .record
  | .inr (.progress _) => .progress
  | .inr .localTime | .inr (.createDirs _) | .inr (.writeFile _ _) | .inr (.rename _ _) | .inr (.readFile _) =>
    .files
  | .inr (.print _) | .inr (.bar _) | .inr (.aboveBar _) => .terminal

/-- The calls of some kinds. -/
def ofKinds (kinds : List CallKind) (c : (cameras.sum host).Call) : Prop := kindOf c ∈ kinds

@[simp] theorem ofKinds_iff {kinds : List CallKind} {c : (cameras.sum host).Call} :
    ofKinds kinds c ↔ kindOf c ∈ kinds := .rfl

/-- Calls of some kinds only. -/
def Within (kinds : List CallKind) (h : History) : Prop := ∀ e ∈ h, kindOf e.call ∈ kinds

section Within

variable {kinds kinds' : List CallKind} {h h₁ h₂ : History}

@[simp] theorem within_nil : Within kinds [] := by simp [Within]

@[simp] theorem within_cons {e : Event (cameras.sum host)} :
    Within kinds (e :: h) ↔ kindOf e.call ∈ kinds ∧ Within kinds h := by
  simp [Within]

@[simp] theorem within_append : Within kinds (h₁ ++ h₂) ↔ Within kinds h₁ ∧ Within kinds h₂ := by
  simp [Within, or_imp, forall_and]

theorem Within.mono (hh : Within kinds h) (hks : kinds ⊆ kinds') : Within kinds' h := fun e he => hks (hh e he)

theorem Within.not_mem (hh : Within kinds h) {e : Event (cameras.sum host)} (he : kindOf e.call ∉ kinds) : e ∉ h :=
  fun hmem => he (hh e hmem)

theorem Within.ne (hh : Within kinds h) {kind : CallKind} (hkind : kind ∉ kinds) : ∀ e ∈ h, kindOf e.call ≠ kind :=
  fun e he heq => hkind (heq ▸ hh e he)

/-- How many calls are of a kind. -/
def countOf (kind : CallKind) (h : History) : Nat := h.countP fun e => kindOf e.call = kind

@[simp] theorem countOf_append (kind : CallKind) : countOf kind (h₁ ++ h₂) = countOf kind h₁ + countOf kind h₂ :=
  List.countP_append

theorem countOf_eq_zero {kind : CallKind} (hh : ∀ e ∈ h, kindOf e.call ≠ kind) : countOf kind h = 0 :=
  List.countP_eq_zero.mpr fun e he hkind => hh e he (of_decide_eq_true hkind)

theorem Within.countOf_eq_zero (hh : Within kinds h) {kind : CallKind} (hkind : kind ∉ kinds) :
    countOf kind h = 0 :=
  Reflash.countOf_eq_zero (hh.ne hkind)

theorem Program.Only.within {α : Type} {p : Action α} (hp : p.Only (ofKinds kinds)) (hb : p.Begins h) :
    Within kinds h := hp.calls hb

theorem Attempt.Only.within {ε α : Type} {x : Attempt ε α} (hx : x.Only (ofKinds kinds)) (hb : x.Begins h) :
    Within kinds h := Program.Only.calls hx hb

/-- A footprint leaves out the kinds that are not in it. -/
theorem Program.Only.ne_kind {α : Type} {p : Action α} (hp : p.Only (ofKinds kinds)) {kind : CallKind}
    (hkind : kind ∉ kinds) : p.Only fun c => kindOf c ≠ kind :=
  hp.mono fun _ hc heq => hkind (heq ▸ hc)

theorem Attempt.Only.ne_kind {ε α : Type} {x : Attempt ε α} (hx : x.Only (ofKinds kinds)) {kind : CallKind}
    (hkind : kind ∉ kinds) : x.Only fun c => kindOf c ≠ kind := Program.Only.ne_kind hx hkind

end Within

/-! ## One call among others -/

/-- Calls of some kinds, and at most once another call. -/
def OnceAmong (kinds : List CallKind) (c : CameraCall) (h : History) : Prop :=
  Within kinds h ∨ ∃ pre a? post, h = pre ++ .asked c a? :: post ∧ Within kinds pre ∧ Within kinds post

section OnceAmong

variable {kinds : List CallKind} {c : CameraCall} {h : History}

theorem OnceAmong.countOf_le_one (hh : OnceAmong kinds c h) {kind : CallKind} (hkind : kind ∉ kinds) :
    countOf kind h ≤ 1 := by
  rcases hh with hh | ⟨pre, a?, post, rfl, hpre, hpost⟩
  · rw [hh.countOf_eq_zero hkind]
    exact Nat.zero_le 1
  · have hone : countOf kind [.asked c a?] ≤ 1 := List.countP_le_length
    rw [countOf_append, hpre.countOf_eq_zero hkind, ← List.singleton_append, countOf_append,
      hpost.countOf_eq_zero hkind]
    omega

/-- Where the other call is the last one, nothing but calls of the kinds came before it. -/
theorem OnceAmong.of_concat {c' : CameraCall} {a'? : Option c'.Answer}
    (hh : OnceAmong kinds c (h ++ [.asked c' a'?])) (hc' : kindOf (.inl c') ∉ kinds) :
    c' = c ∧ Within kinds h := by
  rcases hh with hh | ⟨pre, a?, post, heq, hpre, hpost⟩
  · exact absurd (hh (.asked c' a'?) (by simp)) hc'
  · obtain rfl | ⟨post', e, rfl⟩ := List.eq_nil_or_concat post
    · obtain ⟨rfl, he⟩ := List.append_inj' heq rfl
      simp only [List.cons.injEq, Event.mk.injEq, Sum.inl.injEq] at he
      exact ⟨he.1.1, hpre⟩
    · rw [List.concat_eq_append, ← List.cons_append, ← List.append_assoc] at heq
      obtain ⟨-, he⟩ := List.append_inj' heq rfl
      obtain rfl := (List.cons.inj he).1
      exact absurd (hpost (.asked c' a'?) (by simp)) hc'

variable {ε δ α β : Type}

namespace Attempt

/-- The call `c` is made at most once, and no other but those of the kinds. -/
def Once (kinds : List CallKind) (c : CameraCall) (x : Attempt ε α) : Prop := ∀ h, x.Begins h → OnceAmong kinds c h

theorem once_ask {c : CameraCall} {f : δ → ε} {x : Action (Except δ α)}
    (hx : ∀ h, x.Begins h → h = [] ∨ ∃ a?, h = [.asked c a?]) :
    (Attempt.of f x).Once kinds c := by
  intro h hb
  rcases hx h (begins_of.mp hb) with rfl | ⟨a?, rfl⟩
  · exact .inl within_nil
  · exact .inr ⟨[], a?, [], rfl, within_nil, within_nil⟩

theorem once_bind_of_only {x : Attempt ε α} {f : α → Attempt ε β} (hx : x.Only (ofKinds kinds))
    (hf : ∀ a, (f a).Once kinds c) : (x >>= f).Once kinds c := by
  intro h hb
  rcases begins_bind.mp hb with hb | ⟨a, h₁, h₂, rfl, hfin, hb⟩
  · exact .inl (hx.within hb)
  · have h₁' := hx.within hfin.begins
    rcases hf a h₂ hb with h₂' | ⟨pre, a?, post, rfl, hpre, hpost⟩
    · exact .inl (within_append.mpr ⟨h₁', h₂'⟩)
    · exact .inr ⟨h₁ ++ pre, a?, post, by simp, within_append.mpr ⟨h₁', hpre⟩, hpost⟩

theorem once_bind {x : Attempt ε α} {f : α → Attempt ε β} (hx : x.Once kinds c)
    (hf : ∀ a, (f a).Only (ofKinds kinds)) :
    (x >>= f).Once kinds c := by
  intro h hb
  rcases begins_bind.mp hb with hb | ⟨a, h₁, h₂, rfl, hfin, hb⟩
  · exact hx h hb
  · have h₂' := (hf a).within hb
    rcases hx h₁ hfin.begins with h₁' | ⟨pre, a?, post, rfl, hpre, hpost⟩
    · exact .inl (within_append.mpr ⟨h₁', h₂'⟩)
    · exact .inr ⟨pre, a?, post ++ h₂, by simp, hpre, within_append.mpr ⟨hpost, h₂'⟩⟩

end Attempt

end OnceAmong

theorem ofKinds.mono {ks ks' : List CallKind} (hks : ks ⊆ ks') (c : (cameras.sum host).Call) (hc : ofKinds ks c) :
    ofKinds ks' c := hks hc

end Reflash
