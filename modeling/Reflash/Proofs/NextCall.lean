import Reflash.Proofs.Actions

/-!
# Reflash.Proofs.NextCall — the calls that a program comes to

`p.ComesTo h c next` says that some run of `p` makes the calls `h` and is then about to make the call `c`;
`next` is the rest of the program, as it depends on the answer.  Where `Finishes` and `Begins` speak of what was
called, this speaks of what is still to come: two environments that answered `h` alike leave a program at the
same call (`ComesTo.unique`), and a run is the calls `h` and then a run of what is left (`ComesTo.history_eq`).
-/

namespace Reflash

namespace Program

variable {I : Interface} {α β σ : Type}

/-- Some run makes the calls `h` and then the call `c`, and goes on with `next`. -/
inductive ComesTo : Program I α → List (Event I) → (c : I.Call) → (I.Answer c → Program I α) → Prop
  | here (c : I.Call) (next : I.Answer c → Program I α) : ComesTo (call c next) [] c next
  | later {c c' : I.Call} {next : I.Answer c → Program I α} {next' : I.Answer c' → Program I α}
    {answer : I.Answer c} {h : List (Event I)} : ComesTo (next answer) h c' next' →
    ComesTo (call c next) (⟨c, some answer⟩ :: h) c' next'

variable {p : Program I α} {f : α → Program I β} {c c' : I.Call} {h : List (Event I)}

@[simp] theorem not_comesTo_done {a : α} {next : I.Answer c → Program I α} : ¬ (done a).ComesTo h c next := nofun

@[simp] theorem not_comesTo_stalled {next : I.Answer c → Program I α} :
    ¬ (stalled : Program I α).ComesTo h c next := nofun

/-- The calls so far determine the rest. -/
theorem ComesTo.unique {next next' : I.Answer c → Program I α} (hp : p.ComesTo h c next)
    (hp' : p.ComesTo h c next') :
    next = next' := by
  induction hp with
  | here c next =>
    cases hp'
    rfl
  | later _ ih =>
    cases hp' with
    | later hp' => exact ih hp'

/-- The world may die in the call. -/
theorem ComesTo.dies {next : I.Answer c → Program I α} (hp : p.ComesTo h c next) :
    p.Begins (h ++ [⟨c, none⟩]) := by
  induction hp with
  | here c next => exact .died c next
  | later _ ih => exact .call ih

theorem ComesTo.begins {next : I.Answer c → Program I α} {a : I.Answer c} {rest : List (Event I)}
    (hp : p.ComesTo h c next) (hb : (next a).Begins rest) : p.Begins (h ++ ⟨c, some a⟩ :: rest) := by
  induction hp with
  | here c next => exact .call hb
  | later _ ih => exact .call (ih hb)

/-- What a run begins with that makes some calls, then this one, and then others. -/
theorem begins_append_cons {e : Event I} {rest : List (Event I)} : p.Begins (h ++ e :: rest) ↔
    ∃ next, p.ComesTo h e.call next ∧
      (e.answer? = none ∧ rest = [] ∨ ∃ a, e.answer? = some a ∧ (next a).Begins rest) := by
  constructor
  · intro hb
    induction h generalizing p with
    | nil =>
      cases hb with
      | died c next => exact ⟨next, .here c next, .inl ⟨rfl, rfl⟩⟩
      | @call c next answer h hb => exact ⟨next, .here c next, .inr ⟨answer, rfl, hb⟩⟩
    | cons e' h ih =>
      cases p with
      | done a => simp at hb
      | stalled => simp at hb
      | call c next =>
        rcases begins_call.mp hb with hb | hb | ⟨answer, rest', heq, hb⟩
        · simp at hb
        · simp at hb
        · obtain ⟨rfl, rfl⟩ := List.cons.inj heq
          obtain ⟨next', hnext, hrest⟩ := ih hb
          exact ⟨next', .later hnext, hrest⟩
  · obtain ⟨c, _ | a⟩ := e
    · rintro ⟨next, hp, ⟨-, rfl⟩ | ⟨a, hanswer, -⟩⟩
      · exact hp.dies
      · cases hanswer
    · rintro ⟨next, hp, ⟨hdied, -⟩ | ⟨a', hanswer, hb⟩⟩
      · cases hdied
      · cases hanswer
        exact hp.begins hb

/-- A finished run that made some calls, then this one, and then others. -/
theorem Finishes.comesTo {a : α} {answer : I.Answer c} {rest : List (Event I)}
    (hf : p.Finishes (h ++ ⟨c, some answer⟩ :: rest) a) :
    ∃ next, p.ComesTo h c next ∧ (next answer).Finishes rest a := by
  induction h generalizing p with
  | nil =>
    cases hf with
    | call hf => exact ⟨_, .here c _, hf⟩
  | cons e h ih =>
    cases hf with
    | call hf =>
      obtain ⟨next, hc, hrest⟩ := ih hf
      exact ⟨next, .later hc, hrest⟩

/-- A program that came to a call came to each call before it. -/
theorem ComesTo.earlier {h₁ h₂ : List (Event I)} {e : Event I} {next : I.Answer c → Program I α}
    (hp : p.ComesTo (h₁ ++ e :: h₂) c next) : ∃ next', p.ComesTo h₁ e.call next' := by
  have hb := hp.dies
  rw [List.append_assoc, List.cons_append] at hb
  obtain ⟨next', hp', -⟩ := begins_append_cons.mp hb
  exact ⟨next', hp'⟩

/-- A program comes to no call outside its footprint. -/
theorem ComesTo.only {P : I.Call → Prop} {next : I.Answer c → Program I α} (hp : p.ComesTo h c next)
    (honly : p.Only P) :
    P c :=
  honly.calls hp.dies ⟨c, none⟩ (by simp)

/-! ## Sequences -/

/-- A sequence comes to a call in its first part, or in the second once the first has finished. -/
theorem comesTo_bind {next : I.Answer c → Program I β} : (p.bind f).ComesTo h c next ↔
    (∃ next', p.ComesTo h c next' ∧ next = fun a => (next' a).bind f) ∨
      ∃ a h₁ h₂, h = h₁ ++ h₂ ∧ p.Finishes h₁ a ∧ (f a).ComesTo h₂ c next := by
  constructor
  · intro hc
    induction p generalizing h with
    | done a => exact .inr ⟨a, [], h, rfl, .done a, hc⟩
    | stalled => exact absurd hc not_comesTo_stalled
    | call c' next' ih =>
      cases hc with
      | here => exact .inl ⟨next', .here c next', rfl⟩
      | later hc =>
        rcases ih _ hc with ⟨next'', hp, rfl⟩ | ⟨a, h₁, h₂, rfl, hp, hf⟩
        · exact .inl ⟨next'', .later hp, rfl⟩
        · exact .inr ⟨a, _, h₂, rfl, .call hp, hf⟩
  · rintro (⟨next', hp, rfl⟩ | ⟨a, h₁, h₂, rfl, hp, hf⟩)
    · induction hp with
      | here c next => exact .here c _
      | later _ ih => exact .later ih
    · induction hp with
      | done a => exact hf
      | call _ ih => exact .later (ih hf)

/-! ## Environments -/

/-- A run that saw the calls of a finished run finished so. -/
theorem Finishes.history_eq {env : Environment I σ} {s : σ} {a : α} (hp : p.Finishes h a)
    (hgives : env.Gives s h) :
    p.history env s = h := by
  induction hp generalizing s with
  | done a => rfl
  | call _ ih =>
    obtain ⟨hanswer, hgives⟩ := hgives
    rw [history, ← ih hgives]
    rcases henv : env _ s with ⟨a?, s'⟩
    rw [henv] at hanswer
    obtain rfl := hanswer
    rfl

/-- A run that saw these calls goes on with what is left of the program. -/
theorem ComesTo.history_eq {env : Environment I σ} {s : σ} {next : I.Answer c → Program I α}
    (hp : p.ComesTo h c next) (hgives : env.Gives s h) :
    p.history env s = h ++ (call c next).history env (env.after s h) := by
  induction hp generalizing s with
  | here c next => rfl
  | later _ ih =>
    obtain ⟨hanswer, hgives⟩ := hgives
    rw [history, Environment.after_cons, List.cons_append, ← ih hgives]
    rcases henv : env _ s with ⟨a?, s'⟩
    rw [henv] at hanswer
    obtain rfl := hanswer
    rfl

/-- A run whose history goes on after a call goes on with what is left of the program. -/
theorem ComesTo.resumes {env : Environment I σ} {s : σ} {next : I.Answer c → Program I α} {a : I.Answer c}
    {rest : List (Event I)} (hp : p.ComesTo h c next) (hh : p.history env s = h ++ ⟨c, some a⟩ :: rest) :
    ∃ s', rest = (next a).history env s' ∧ p.run env s = (next a).run env s' := by
  induction hp generalizing s with
  | here c next =>
    rw [history, List.nil_append] at hh
    rw [run]
    rcases henv : env c s with ⟨_ | answer, s'⟩
    · rw [henv] at hh
      cases hh
    · rw [henv] at hh
      obtain ⟨hanswer, hrest⟩ := List.cons.inj hh
      cases hanswer
      exact ⟨s', hrest.symm, rfl⟩
  | @later c c' next next' answer h hp ih =>
    rw [history, List.cons_append] at hh
    rw [run]
    rcases henv : env c s with ⟨_ | answer', s'⟩
    · rw [henv] at hh
      cases hh
    · rw [henv] at hh
      obtain ⟨hanswer, hrest⟩ := List.cons.inj hh
      cases hanswer
      exact ih hrest

/-- A run of a sequence goes on with the second part where the first one finished, and else it is a run of the
first part that did not finish. -/
theorem bind_splits (env : Environment I σ) (p : Program I α) (f : α → Program I β) (s : σ) :
    (∃ a s', p.run env s = (.finished a, s') ∧ (p.bind f).history env s = p.history env s ++ (f a).history env s' ∧
        (p.bind f).run env s = (f a).run env s') ∨
      (p.bind f).history env s = p.history env s ∧ ∀ b, ((p.bind f).run env s).1 ≠ .finished b := by
  induction p generalizing s with
  | done a => exact .inl ⟨a, s, rfl, rfl, rfl⟩
  | stalled => exact .inr ⟨rfl, by simp [bind, run]⟩
  | call c next ih =>
    simp only [bind, history, run]
    rcases env c s with ⟨_ | answer, s'⟩
    · exact .inr ⟨rfl, by simp⟩
    · rcases ih answer s' with ⟨a, s'', hrun, hh, hr⟩ | ⟨hh, hnot⟩
      · exact .inl ⟨a, s'', hrun, congrArg (_ :: ·) hh, hr⟩
      · exact .inr ⟨congrArg (_ :: ·) hh, hnot⟩

end Program

/-! ## Attempts -/

namespace Attempt

variable {ε δ α β : Type} {h : History} {c : (cameras.sum host).Call}

/-- What is left of an attempt once its first step has ended: nothing if it failed. -/
def andThen (f : α → Attempt ε β) : Except ε α → Action (Except ε β)
  | .ok a => (f a).run
  | .error e => .done (.error e)

@[simp] theorem andThen_ok (f : α → Attempt ε β) (a : α) : andThen f (.ok a) = (f a).run := rfl

@[simp] theorem andThen_error (f : α → Attempt ε β) (e : ε) : andThen f (.error e) = .done (.error e) := rfl

theorem run_bind_eq (x : Attempt ε α) (f : α → Attempt ε β) : (x >>= f).run = x.run.bind (andThen f) := by
  rw [run_bind]
  congr

theorem run_lift_bind (p : Action α) (f : α → Attempt ε β) :
    ((liftM p : Attempt ε α) >>= f).run = p.bind fun a => (f a).run := by
  rw [run_bind_eq, run_lift, Program.bind_assoc]
  rfl

theorem comesTo_bind {x : Attempt ε α} {f : α → Attempt ε β}
    {next : (cameras.sum host).Answer c → Action (Except ε β)} :
    (x >>= f).run.ComesTo h c next ↔
      (∃ next', x.run.ComesTo h c next' ∧ next = fun answer => (next' answer).bind (andThen f)) ∨
        ∃ a h₁ h₂, h = h₁ ++ h₂ ∧ x.Finishes h₁ (.ok a) ∧ (f a).run.ComesTo h₂ c next := by
  rw [run_bind_eq, Program.comesTo_bind]
  constructor
  · rintro (hx | ⟨a | a, h₁, h₂, rfl, hx, hf⟩)
    · exact .inl hx
    · exact absurd hf Program.not_comesTo_done
    · exact .inr ⟨a, h₁, h₂, rfl, hx, hf⟩
  · rintro (hx | ⟨a, h₁, h₂, rfl, hx, hf⟩)
    · exact .inl hx
    · exact .inr ⟨.ok a, h₁, h₂, rfl, hx, hf⟩

end Attempt

end Reflash
