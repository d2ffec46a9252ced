import Reflash.Program

/-!
# Reflash.Proofs.Runs — what the runs of a program can do

`p.Finishes h a` says that some run of `p` makes the calls `h`, with the answers in them, and ends with `a`.
`p.Begins h` says that some run of `p` starts with the calls `h`, the last of which may be without an answer.
Neither speaks of an environment, so what is shown of them holds in every one: the history of a run begins it
(`begins_history`), and ends it where the run finishes (`finishes_history`).  `p.Only P` is a footprint: no run
of `p` makes a call outside `P`.  `p.Yields Q` says that every result is one of `Q`.  `p.StallsAfter P` says
that no run of `p` stalls without a call of `P` before.
-/

namespace Reflash

namespace Program

variable {I : Interface} {α β σ : Type}

/-- Some run makes the calls `h` and ends with `a`. -/
inductive Finishes : Program I α → List (Event I) → α → Prop
  | done (a : α) : Finishes (done a) [] a
  | call {c : I.Call} {next : I.Answer c → Program I α} {answer : I.Answer c} {h : List (Event I)} {a : α} :
    Finishes (next answer) h a → Finishes (call c next) (⟨c, some answer⟩ :: h) a

/-- Some run starts with the calls `h`; the world may have died in the last one. -/
inductive Begins : Program I α → List (Event I) → Prop
  | here (p : Program I α) : Begins p []
  | died (c : I.Call) (next : I.Answer c → Program I α) : Begins (call c next) [⟨c, none⟩]
  | call {c : I.Call} {next : I.Answer c → Program I α} {answer : I.Answer c} {h : List (Event I)} :
    Begins (next answer) h → Begins (call c next) (⟨c, some answer⟩ :: h)

/-- Every call, whatever the answers before it, is one of `P`. -/
def Only (P : I.Call → Prop) : Program I α → Prop
  | done _ => True
  | stalled => True
  | call c next => P c ∧ ∀ answer, (next answer).Only P

/-- Every result, whatever the answers before it, is one of `Q`. -/
def Yields (Q : α → Prop) : Program I α → Prop
  | done a => Q a
  | stalled => True
  | call _ next => ∀ answer, (next answer).Yields Q

/-- A run stalls only after a call of `P`. -/
def StallsAfter (P : I.Call → Prop) : Program I α → Prop
  | done _ => True
  | stalled => False
  | call c next => P c ∨ ∀ answer, (next answer).StallsAfter P

/-! ## By the form of the program -/

@[simp] theorem finishes_done {a b : α} {h : List (Event I)} : (done a).Finishes h b ↔ h = [] ∧ b = a := by
  constructor
  · rintro ⟨⟩
    exact ⟨rfl, rfl⟩
  · rintro ⟨rfl, rfl⟩
    exact .done _

@[simp] theorem not_finishes_stalled {a : α} {h : List (Event I)} : ¬ (stalled : Program I α).Finishes h a := nofun

@[simp] theorem finishes_call {c : I.Call} {next : I.Answer c → Program I α} {a : α} {h : List (Event I)} :
    (call c next).Finishes h a ↔ ∃ answer rest, h = ⟨c, some answer⟩ :: rest ∧ (next answer).Finishes rest a := by
  constructor
  · rintro ⟨⟩
    exact ⟨_, _, rfl, ‹_›⟩
  · rintro ⟨answer, rest, rfl, hr⟩
    exact .call hr

@[simp] theorem begins_done {a : α} {h : List (Event I)} : (done a).Begins h ↔ h = [] := by
  constructor
  · rintro ⟨⟩
    rfl
  · rintro rfl
    exact .here _

@[simp] theorem begins_stalled {h : List (Event I)} : (stalled : Program I α).Begins h ↔ h = [] := by
  constructor
  · rintro ⟨⟩
    rfl
  · rintro rfl
    exact .here _

@[simp] theorem begins_call {c : I.Call} {next : I.Answer c → Program I α} {h : List (Event I)} :
    (call c next).Begins h ↔
      h = [] ∨ h = [⟨c, none⟩] ∨ ∃ answer rest, h = ⟨c, some answer⟩ :: rest ∧ (next answer).Begins rest := by
  constructor
  · rintro ⟨⟩
    · exact .inl rfl
    · exact .inr (.inl rfl)
    · exact .inr (.inr ⟨_, _, rfl, ‹_›⟩)
  · rintro (rfl | rfl | ⟨answer, rest, rfl, hr⟩)
    · exact .here _
    · exact .died _ _
    · exact .call hr

theorem Finishes.begins {p : Program I α} {h : List (Event I)} {a : α} (hp : p.Finishes h a) : p.Begins h := by
  induction hp with
  | done a => exact .here _
  | call _ ih => exact .call ih

/-- A run that starts with some calls starts with the first of them. -/
theorem Begins.of_append {p : Program I α} {h₁ h₂ : List (Event I)} (hp : p.Begins (h₁ ++ h₂)) : p.Begins h₁ := by
  induction h₁ generalizing p with
  | nil => exact .here p
  | cons e h₁ ih =>
    generalize heq : e :: h₁ ++ h₂ = h at hp
    cases hp with
    | here p => simp at heq
    | died c next =>
      obtain ⟨rfl, hnil⟩ := List.cons.inj heq
      obtain ⟨rfl, -⟩ := List.append_eq_nil_iff.mp hnil
      exact .died c next
    | call hp =>
      obtain ⟨rfl, rfl⟩ := List.cons.inj heq
      exact .call (ih hp)

/-! ## Sequences -/

/-- A finished run of a sequence is a finished run of the first part and one of the second. -/
theorem finishes_bind {p : Program I α} {f : α → Program I β} {h : List (Event I)} {b : β} :
    (p.bind f).Finishes h b ↔ ∃ a h₁ h₂, h = h₁ ++ h₂ ∧ p.Finishes h₁ a ∧ (f a).Finishes h₂ b := by
  induction p generalizing h with
  | done a =>
    constructor
    · exact fun hb => ⟨a, [], h, rfl, .done a, hb⟩
    · rintro ⟨a', h₁, h₂, rfl, ha, hb⟩
      obtain ⟨rfl, rfl⟩ := finishes_done.mp ha
      exact hb
  | stalled =>
    constructor
    · exact fun hb => absurd hb not_finishes_stalled
    · rintro ⟨a, h₁, h₂, rfl, ha, -⟩
      exact absurd ha not_finishes_stalled
  | call c next ih =>
    simp only [bind, finishes_call, ih]
    constructor
    · rintro ⟨answer, rest, rfl, a, h₁, h₂, rfl, ha, hb⟩
      exact ⟨a, _, h₂, rfl, ⟨answer, h₁, rfl, ha⟩, hb⟩
    · rintro ⟨a, h₁, h₂, rfl, ⟨answer, rest, rfl, ha⟩, hb⟩
      exact ⟨answer, rest ++ h₂, rfl, a, rest, h₂, rfl, ha, hb⟩

/-- A run of a sequence is still in the first part, or has finished it and is in the second. -/
theorem begins_bind {p : Program I α} {f : α → Program I β} {h : List (Event I)} :
    (p.bind f).Begins h ↔
      p.Begins h ∨ ∃ a h₁ h₂, h = h₁ ++ h₂ ∧ p.Finishes h₁ a ∧ (f a).Begins h₂ := by
  induction p generalizing h with
  | done a =>
    simp only [bind, begins_done]
    constructor
    · exact fun hb => .inr ⟨a, [], h, rfl, .done a, hb⟩
    · rintro (rfl | ⟨a', h₁, h₂, rfl, ha, hb⟩)
      · exact .here _
      · obtain ⟨rfl, rfl⟩ := finishes_done.mp ha
        exact hb
  | stalled =>
    simp only [bind, begins_stalled, not_finishes_stalled]
    simp
  | call c next ih =>
    simp only [bind, begins_call, finishes_call, ih]
    constructor
    · rintro (rfl | rfl | ⟨answer, rest, rfl, hb | ⟨a, h₁, h₂, rfl, ha, hb⟩⟩)
      · exact .inl (.inl rfl)
      · exact .inl (.inr (.inl rfl))
      · exact .inl (.inr (.inr ⟨answer, rest, rfl, hb⟩))
      · exact .inr ⟨a, _, h₂, rfl, ⟨answer, h₁, rfl, ha⟩, hb⟩
    · rintro ((rfl | rfl | ⟨answer, rest, rfl, hb⟩) | ⟨a, h₁, h₂, rfl, ⟨answer, rest, rfl, ha⟩, hb⟩)
      · exact .inl rfl
      · exact .inr (.inl rfl)
      · exact .inr (.inr ⟨answer, rest, rfl, .inl hb⟩)
      · exact .inr (.inr ⟨answer, rest ++ h₂, rfl, .inr ⟨a, rest, h₂, rfl, ha, hb⟩⟩)

/-- A result that is handed on together with something else. -/
theorem finishes_bind_pair {p : Program I α} {a : α} {b b' : β} {h : List (Event I)} :
    (p.bind fun a => done (a, b)).Finishes h (a, b') ↔ p.Finishes h a ∧ b' = b := by
  rw [finishes_bind]
  constructor
  · rintro ⟨a', h₁, h₂, rfl, ha, hdone⟩
    obtain ⟨rfl, heq⟩ := finishes_done.mp hdone
    obtain ⟨rfl, rfl⟩ := Prod.mk.inj heq
    exact ⟨by rwa [List.append_nil], rfl⟩
  · rintro ⟨ha, rfl⟩
    exact ⟨a, h, [], by rw [List.append_nil], ha, .done _⟩

@[simp] theorem finishes_perform {c : I.Call} {answer : I.Answer c} {h : List (Event I)} :
    (perform c).Finishes h answer ↔ h = [⟨c, some answer⟩] := by
  simp only [perform, finishes_call, finishes_done]
  constructor
  · rintro ⟨_, _, rfl, rfl, rfl⟩
    rfl
  · rintro rfl
    exact ⟨answer, [], rfl, rfl, rfl⟩

@[simp] theorem begins_perform {c : I.Call} {h : List (Event I)} :
    (perform c).Begins h ↔ h = [] ∨ ∃ answer?, h = [⟨c, answer?⟩] := by
  simp only [perform, begins_call, begins_done]
  constructor
  · rintro (rfl | rfl | ⟨answer, rest, rfl, rfl⟩)
    · exact .inl rfl
    · exact .inr ⟨none, rfl⟩
    · exact .inr ⟨some answer, rfl⟩
  · rintro (rfl | ⟨_ | answer, rfl⟩)
    · exact .inl rfl
    · exact .inr (.inl rfl)
    · exact .inr (.inr ⟨answer, [], rfl, rfl⟩)

/-! ## Answers determine a run -/

/-- Two finished runs that saw the same answers are the same run. -/
theorem Finishes.unique {p : Program I α} {h₁ h₂ r₁ r₂ : List (Event I)} {a b : α} (h₁a : p.Finishes h₁ a)
    (h₂b : p.Finishes h₂ b) (heq : h₁ ++ r₁ = h₂ ++ r₂) : h₁ = h₂ ∧ r₁ = r₂ ∧ a = b := by
  induction h₁a generalizing h₂ with
  | done a =>
    obtain ⟨rfl, rfl⟩ := finishes_done.mp h₂b
    exact ⟨rfl, heq, rfl⟩
  | call _ ih =>
    obtain ⟨answer, rest, rfl, hrest⟩ := finishes_call.mp h₂b
    rw [List.cons_append, List.cons_append, List.cons.injEq, Event.mk.injEq] at heq
    obtain ⟨⟨-, hanswer⟩, htail⟩ := heq
    obtain rfl := Option.some.inj (eq_of_heq hanswer)
    obtain ⟨rfl, hr, rfl⟩ := ih hrest htail
    exact ⟨rfl, hr, rfl⟩

/-! ## Footprints -/

section Footprint

variable {P Q : I.Call → Prop}

@[simp] theorem only_perform {c : I.Call} : (perform c).Only P ↔ P c := by simp [perform, Only]

theorem only_bind {p : Program I α} {f : α → Program I β} (hp : p.Only P) (hf : ∀ a, (f a).Only P) :
    (p.bind f).Only P := by
  induction p with
  | done a => exact hf a
  | stalled => trivial
  | call c next ih => exact ⟨hp.1, fun answer => ih answer (hp.2 answer)⟩

theorem only_true (p : Program I α) : p.Only fun _ => True := by
  induction p with
  | done a => trivial
  | stalled => trivial
  | call c next ih => exact ⟨trivial, ih⟩

theorem Only.mono {p : Program I α} (hp : p.Only P) (hPQ : ∀ c, P c → Q c) : p.Only Q := by
  induction p with
  | done a => trivial
  | stalled => trivial
  | call c next ih => exact ⟨hPQ c hp.1, fun answer => ih answer (hp.2 answer)⟩

/-- No run steps outside the footprint. -/
theorem Only.calls {p : Program I α} {h : List (Event I)} (hp : p.Only P) (hb : p.Begins h) :
    ∀ e ∈ h, P e.call := by
  induction hb with
  | here p => simp
  | died c next => simpa using hp.1
  | call _ ih =>
    intro e he
    rcases List.mem_cons.mp he with rfl | he
    · exact hp.1
    · exact ih (hp.2 _) e he

end Footprint

/-! ## Results -/

section Results

variable {Q : α → Prop} {R : β → Prop}

theorem yields_bind {p : Program I α} {f : α → Program I β} (hp : p.Yields Q) (hf : ∀ a, Q a → (f a).Yields R) :
    (p.bind f).Yields R := by
  induction p with
  | done a => exact hf a hp
  | stalled => trivial
  | call c next ih => exact fun answer => ih answer (hp answer)

/-- What comes before does not matter where every result will do. -/
theorem yields_bind_of_forall {p : Program I α} {f : α → Program I β} (hf : ∀ a, (f a).Yields R) :
    (p.bind f).Yields R := by
  induction p with
  | done a => exact hf a
  | stalled => trivial
  | call c next ih => exact fun answer => ih answer

theorem Yields.of_finishes {p : Program I α} {h : List (Event I)} {a : α} (hp : p.Yields Q)
    (hf : p.Finishes h a) : Q a := by
  induction hf with
  | done a => exact hp
  | call _ ih => exact ih (hp _)

end Results

/-! ## Stalls -/

section Stalls

variable {P : I.Call → Prop}

@[simp] theorem stallsAfter_perform (c : I.Call) : (perform c).StallsAfter P := .inr fun _ => trivial

theorem stallsAfter_bind {p : Program I α} {f : α → Program I β} (hp : p.StallsAfter P)
    (hf : ∀ a, (f a).StallsAfter P) :
    (p.bind f).StallsAfter P := by
  induction p with
  | done a => exact hf a
  | stalled => exact hp.elim
  | call c next ih => exact hp.imp_right fun hnext answer => ih answer (hnext answer)

/-- A call of `P` is enough, whatever comes after it. -/
theorem stallsAfter_perform_bind {c : I.Call} {f : I.Answer c → Program I α} (hc : P c) :
    ((perform c).bind f).StallsAfter P := .inl hc

/-- The history of a run that stalls has such a call. -/
theorem StallsAfter.exists_call {env : Environment I σ} {p : Program I α} {s : σ} (hp : p.StallsAfter P)
    (hr : (p.run env s).1 = .stalled) : ∃ e ∈ p.history env s, P e.call := by
  induction p generalizing s with
  | done a => cases hr
  | stalled => exact hp.elim
  | call c next ih =>
    rw [run] at hr
    rw [history]
    rcases henv : env c s with ⟨_ | answer, s'⟩
    · rw [henv] at hr
      cases hr
    rw [henv] at hr
    rcases hp with hc | hnext
    · exact ⟨_, List.mem_cons_self, hc⟩
    · obtain ⟨e, he, hcall⟩ := ih answer (hnext answer) hr
      exact ⟨e, List.mem_cons_of_mem _ he, hcall⟩

/-- A program without a stall finishes, unless the world dies. -/
theorem StallsAfter.exists_finished {env : Environment I σ} {p : Program I α} {s : σ}
    (hp : p.StallsAfter fun _ => False) (hlives : (p.run env s).1 ≠ .panicked) :
    ∃ a, (p.run env s).1 = .finished a := by
  cases hrun : (p.run env s).1 with
  | finished a => exact ⟨a, rfl⟩
  | panicked => exact absurd hrun hlives
  | stalled =>
    obtain ⟨e, -, hfalse⟩ := hp.exists_call hrun
    exact hfalse.elim

end Stalls

/-! ## Environments -/

theorem begins_history (env : Environment I σ) (p : Program I α) (s : σ) : p.Begins (p.history env s) := by
  induction p generalizing s with
  | done a => exact .here _
  | stalled => exact .here _
  | call c next ih =>
    rw [history]
    rcases env c s with ⟨_ | answer, s'⟩
    · exact .died c next
    · exact .call (ih answer s')

theorem finishes_history {env : Environment I σ} {p : Program I α} {s : σ} {a : α}
    (hr : (p.run env s).1 = .finished a) : p.Finishes (p.history env s) a := by
  induction p generalizing s with
  | done b =>
    obtain rfl : b = a := by simpa [run] using hr
    exact .done b
  | stalled => simp [run] at hr
  | call c next ih =>
    rw [run] at hr
    rw [history]
    rcases henv : env c s with ⟨_ | answer, s'⟩
    · rw [henv] at hr
      simp at hr
    · rw [henv] at hr
      exact .call (ih answer hr)

/-- A run whose first call is answered goes on with the answer. -/
theorem run_call {env : Environment I σ} {c : I.Call} {s : σ} {answer : I.Answer c}
    (hc : (env c s).1 = some answer) (next : I.Answer c → Program I α) :
    (call c next).run env s = (next answer).run env (env c s).2 := by
  rw [run]
  rcases henv : env c s with ⟨answer?, s'⟩
  rw [henv] at hc
  subst hc
  rfl

theorem history_call {env : Environment I σ} {c : I.Call} {s : σ} {answer : I.Answer c}
    (hc : (env c s).1 = some answer) (next : I.Answer c → Program I α) :
    (call c next).history env s = ⟨c, some answer⟩ :: (next answer).history env (env c s).2 := by
  rw [history]
  rcases henv : env c s with ⟨answer?, s'⟩
  rw [henv] at hc
  subst hc
  rfl

theorem history_bind (env : Environment I σ) (p : Program I α) (f : α → Program I β) (s : σ) :
    (p.bind f).history env s = p.history env s ++
      match p.run env s with
      | (.finished a, s') => (f a).history env s'
      | _ => [] := by
  induction p generalizing s with
  | done a => rfl
  | stalled => rfl
  | call c next ih =>
    simp only [bind, history, run]
    rcases env c s with ⟨_ | answer, s'⟩
    · rfl
    · exact congrArg _ (ih answer s')

/-- A run whose history finishes the program finished. -/
theorem run_of_finishes {env : Environment I σ} {p : Program I α} {s : σ} {a : α}
    (hf : p.Finishes (p.history env s) a) :
    (p.run env s).1 = .finished a := by
  induction p generalizing s with
  | done b => rw [run, (finishes_done.mp hf).2]
  | stalled => exact absurd hf not_finishes_stalled
  | call c next ih =>
    rw [history] at hf
    rw [run]
    rcases henv : env c s with ⟨_ | answer, s'⟩
    · rw [henv] at hf
      cases hf
    · rw [henv] at hf
      cases hf with
      | call hf => exact ih answer hf

/-- A run whose last call has no answer died in it. -/
theorem panicked_of_history {env : Environment I σ} {p : Program I α} {s : σ}
    {before : List (Event I)} {c : I.Call} (hdied : p.history env s = before ++ [⟨c, none⟩]) :
    (p.run env s).1 = .panicked := by
  induction p generalizing s before with
  | done a => simp [history] at hdied
  | stalled => simp [history] at hdied
  | call c' next ih =>
    rw [history] at hdied
    rw [run]
    rcases henv : env c' s with ⟨_ | answer, s'⟩
    · rfl
    · rw [henv] at hdied
      cases before with
      | nil =>
        obtain ⟨heq, -⟩ := List.cons.inj hdied
        cases heq
      | cons e before => exact ih answer (List.cons.inj hdied).2

end Program

namespace Environment

variable {I : Interface} {α σ : Type} (env : Environment I σ)

/-- The state after a list of calls. -/
def after (s : σ) (h : List (Event I)) : σ := h.foldl (fun s e => (env e.call s).2) s

/-- From the state `s` the environment answers the calls `h` as they were answered. -/
def Gives : σ → List (Event I) → Prop
  | _, [] => True
  | s, e :: h => (env e.call s).1 = e.answer? ∧ Gives (env e.call s).2 h

@[simp] theorem after_nil (s : σ) : env.after s [] = s := rfl

@[simp] theorem after_cons (s : σ) (e : Event I) (h : List (Event I)) :
    env.after s (e :: h) = env.after (env e.call s).2 h := rfl

theorem after_append (s : σ) (h₁ h₂ : List (Event I)) :
    env.after s (h₁ ++ h₂) = env.after (env.after s h₁) h₂ := by
  simp [after]

theorem gives_append (s : σ) (h₁ h₂ : List (Event I)) :
    env.Gives s (h₁ ++ h₂) ↔ env.Gives s h₁ ∧ env.Gives (env.after s h₁) h₂ := by
  induction h₁ generalizing s with
  | nil => simp [Gives]
  | cons e h ih => simp [Gives, ih, and_assoc]

/-- A run leaves the environment in the state after its calls. -/
theorem run_snd (p : Program I α) (s : σ) : (p.run env s).2 = env.after s (p.history env s) := by
  induction p generalizing s with
  | done a => rfl
  | stalled => rfl
  | call c next ih =>
    rw [Program.run, Program.history]
    rcases henv : env c s with ⟨_ | answer, s'⟩
    · show s' = (env c s).2
      rw [henv]
    · show ((next answer).run env s').2 = env.after (env c s).2 _
      rw [henv]
      exact ih answer s'

theorem gives_history (p : Program I α) (s : σ) : env.Gives s (p.history env s) := by
  induction p generalizing s with
  | done a => trivial
  | stalled => trivial
  | call c next ih =>
    rw [Program.history]
    rcases henv : env c s with ⟨_ | answer, s'⟩
    · exact ⟨by rw [henv], trivial⟩
    · exact ⟨by rw [henv], by rw [henv]; exact ih answer s'⟩

end Environment

end Reflash
