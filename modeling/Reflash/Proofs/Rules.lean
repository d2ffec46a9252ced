import Reflash.Proofs.Actions

/-!
# Reflash.Proofs.Rules — programs that keep to a rule

A `Rule` watches a program from outside.  Every answered call moves its state on, and in each state it allows
some calls. `p.Obeys R post g` says that `p`, begun in the state `g`, comes to no call that is not allowed then,
whatever the answers, and that it finishes only with a result and in a state of `post`.  Where a footprint
(`Only`) says what is called, a rule says what is called when: a sequence obeys a rule if its parts do, each
from the states that the part before it leaves (`obeys_bind`), and what the rule allows holds at every call of
every run (`Obeys.allows`).
-/

namespace Reflash

/-- Which calls are allowed, by the calls before. -/
structure Rule (I : Interface) (γ : Type) where
  step : γ → Event I → γ
  allows : γ → I.Call → Prop

namespace Rule

variable {I : Interface} {γ : Type} (R : Rule I γ)

/-- The state after some calls. -/
def after (g : γ) (h : List (Event I)) : γ := h.foldl R.step g

@[simp] theorem after_nil (g : γ) : R.after g [] = g := rfl

@[simp] theorem after_cons (g : γ) (e : Event I) (h : List (Event I)) :
    R.after g (e :: h) = R.after (R.step g e) h := rfl

theorem after_append (g : γ) (h h' : List (Event I)) : R.after g (h ++ h') = R.after (R.after g h) h' :=
  List.foldl_append

theorem after_concat (g : γ) (h : List (Event I)) (e : Event I) : R.after g (h ++ [e]) = R.step (R.after g h) e :=
  after_append R g h [e]

/-- Every one of the calls was allowed when it was made. -/
def Permits (g : γ) (h : List (Event I)) : Prop :=
  ∀ before e after, h = before ++ e :: after → R.allows (R.after g before) e.call

theorem Permits.of_prefix {R : Rule I γ} {g : γ} {h before : List (Event I)} (hh : R.Permits g h)
    (hbefore : before <+: h) :
    R.Permits g before := by
  obtain ⟨rest, rfl⟩ := hbefore
  exact fun before' e after heq => hh before' e (after ++ rest) (by rw [heq, List.append_assoc, List.cons_append])

/-- A rule whose state is the calls before. -/
def ofPast (allows : List (Event I) → I.Call → Prop) : Rule I (List (Event I)) := ⟨fun h e => h ++ [e], allows⟩

@[simp] theorem step_ofPast (allows : List (Event I) → I.Call → Prop) (h : List (Event I)) (e : Event I) :
    (ofPast allows).step h e = h ++ [e] := rfl

@[simp] theorem after_ofPast (allows : List (Event I) → I.Call → Prop) (h h' : List (Event I)) :
    (ofPast allows).after h h' = h ++ h' := by
  induction h' generalizing h with
  | nil => simp
  | cons e h' ih => simp [ih]

/-- The rule of a footprint, which is the same at all times. -/
def always (P : I.Call → Prop) : Rule I Unit := ⟨fun _ _ => (), fun _ => P⟩

/-- Where `Q` holds the call is allowed, and `Q` holds after it. -/
def Keeps (Q : γ → Prop) (c : I.Call) : Prop := ∀ g, Q g → R.allows g c ∧ ∀ answer, Q (R.step g ⟨c, some answer⟩)

end Rule

namespace Program

variable {I : Interface} {α β γ : Type} {R : Rule I γ} {post : α → γ → Prop} {post' : β → γ → Prop} {g : γ}

/-- From the state `g` on, every call is allowed when it is made, and every result comes in a state of `post`. -/
def Obeys (R : Rule I γ) (post : α → γ → Prop) : Program I α → γ → Prop
  | done a, g => post a g
  | stalled, _ => True
  | call c next, g => R.allows g c ∧ ∀ answer, (next answer).Obeys R post (R.step g ⟨c, some answer⟩)

/-! ## Sequences -/

theorem Obeys.mono {p : Program I α} {post₁ : α → γ → Prop} (hp : p.Obeys R post g)
    (hpost : ∀ a g', post a g' → post₁ a g') :
    p.Obeys R post₁ g := by
  induction p generalizing g with
  | done a => exact hpost a g hp
  | stalled => trivial
  | call c next ih => exact ⟨hp.1, fun answer => ih answer (hp.2 answer)⟩

theorem obeys_bind {p : Program I α} {f : α → Program I β} (hp : p.Obeys R post g)
    (hf : ∀ a g', post a g' → (f a).Obeys R post' g') : (p.bind f).Obeys R post' g := by
  induction p generalizing g with
  | done a => exact hf a g hp
  | stalled => trivial
  | call c next ih => exact ⟨hp.1, fun answer => ih answer (hp.2 answer)⟩

/-- A program whose calls all keep `Q` keeps it. -/
theorem obeys_of_only {Q : γ → Prop} {p : Program I α} (hp : p.Only (R.Keeps Q)) (hg : Q g) :
    p.Obeys R (fun _ => Q) g := by
  induction p generalizing g with
  | done a => exact hg
  | stalled => trivial
  | call c next ih =>
    obtain ⟨hallows, hstep⟩ := hp.1 g hg
    exact ⟨hallows, fun answer => ih answer (hp.2 answer) (hstep answer)⟩

/-- What a rule allows at any time is a footprint of the programs that obey it. -/
theorem Obeys.only {P : I.Call → Prop} {p : Program I α} (hp : p.Obeys R post g) (hP : ∀ g c, R.allows g c → P c) :
    p.Only P := by
  induction p generalizing g with
  | done a => trivial
  | stalled => trivial
  | call c next ih => exact ⟨hP g c hp.1, fun answer => ih answer (hp.2 answer)⟩

/-- And what holds whenever a program finishes, its results yield. -/
theorem Obeys.yields {Q : α → Prop} {p : Program I α} (hp : p.Obeys R post g) (hQ : ∀ a g, post a g → Q a) :
    p.Yields Q := by
  induction p generalizing g with
  | done a => exact hQ a g hp
  | stalled => trivial
  | call c next ih => exact fun answer => ih answer (hp.2 answer)

theorem obeys_always {P : I.Call → Prop} {p : Program I α} (hp : p.Only P) :
    p.Obeys (.always P) (fun _ _ => True) () :=
  obeys_of_only (hp.mono fun _ hc _ _ => ⟨hc, fun _ => trivial⟩) trivial

/-- What a program leaves behind can be read off its finished runs. -/
theorem obeys_of_finishes {p : Program I α} (hp : p.Obeys R (fun _ _ => True) g)
    (hpost : ∀ h a, p.Finishes h a → post a (R.after g h)) : p.Obeys R post g := by
  induction p generalizing g with
  | done a => exact hpost [] a (.done a)
  | stalled => trivial
  | call c next ih => exact ⟨hp.1, fun answer => ih answer (hp.2 answer) fun h a hf => hpost _ a (.call hf)⟩

/-- A rule for the calls becomes a rule for those that carry them out.  `Rel` relates the states of the two
rules, with the state of the one who carries out; where it holds and a call is allowed, what carries out the
call obeys the other rule and `Rel` holds again. -/
theorem obeys_expand {J : Interface} {S δ : Type} {R' : Rule J δ} (Rel : γ → S → δ → Prop)
    {f : (c : I.Call) → S → Program J (I.Answer c × S)} {p : Program I α} {s : S} {d : δ} (hp : p.Obeys R post g)
    (hstep : ∀ c g s d, Rel g s d → R.allows g c →
      (f c s).Obeys R' (fun r d' => Rel (R.step g ⟨c, some r.1⟩) r.2 d') d) (hs : Rel g s d) :
    (p.expand f s).Obeys R' (fun r d' => ∃ g', post r.1 g' ∧ Rel g' r.2 d') d := by
  induction p generalizing g s d with
  | done a => exact ⟨g, hp, hs⟩
  | stalled => trivial
  | call c next ih =>
    exact obeys_bind (hstep c g s d hs hp.1) fun ⟨answer, s'⟩ d' hrel => ih answer (hp.2 answer) hrel

/-! ## Runs -/

/-- Every call of a run is allowed when it is made. -/
theorem Obeys.allows {p : Program I α} {before rest : List (Event I)} {e : Event I} (hp : p.Obeys R post g)
    (hb : p.Begins (before ++ e :: rest)) : R.allows (R.after g before) e.call := by
  induction before generalizing p g with
  | nil =>
    cases p with
    | done a => simp at hb
    | stalled => simp at hb
    | call c next =>
      rcases begins_call.mp hb with hnil | hdied | ⟨answer, rest', heq, -⟩
      · cases hnil
      · obtain ⟨rfl, -⟩ := List.cons.inj hdied
        exact hp.1
      · obtain ⟨rfl, -⟩ := List.cons.inj heq
        exact hp.1
  | cons e' before ih =>
    cases p with
    | done a => simp at hb
    | stalled => simp at hb
    | call c next =>
      rcases begins_call.mp hb with hnil | hdied | ⟨answer, rest', heq, hrest⟩
      · cases hnil
      · simp at hdied
      · obtain ⟨rfl, rfl⟩ := List.cons.inj heq
        exact ih (hp.2 answer) hrest

theorem Obeys.permits {p : Program I α} {h : List (Event I)} (hp : p.Obeys R post g) (hb : p.Begins h) :
    R.Permits g h :=
  fun _ _ _ heq => hp.allows (heq ▸ hb)

theorem Obeys.of_finishes {p : Program I α} {h : List (Event I)} {a : α} (hp : p.Obeys R post g)
    (hf : p.Finishes h a) :
    post a (R.after g h) := by
  induction hf generalizing g with
  | done a => exact hp
  | call _ ih => exact ih (hp.2 _)

end Program

/-! ## Calls on cameras and host -/

section Actions

open Program

variable {α β ε δ γ : Type} {R : Rule (cameras.sum host) γ} {g : γ}

theorem obeys_ask {c : CameraCall} {post : c.Answer → γ → Prop} : (ask c).Obeys R post g ↔
    R.allows g (.inl c) ∧ ∀ answer : c.Answer, post answer (R.step g (.asked c (some answer))) := .rfl

theorem obeys_tell {c : HostCall} {post : c.Answer → γ → Prop} : (tell c).Obeys R post g ↔
    R.allows g (.inr c) ∧ ∀ answer : c.Answer, post answer (R.step g (.told c (some answer))) := .rfl

namespace Attempt

/-- What holds of a result or a failure. -/
def Settled (failed : γ → Prop) (post : α → γ → Prop) : Except ε α → γ → Prop
  | .ok a, g => post a g
  | .error _, g => failed g

/-- The attempt obeys the rule; it ends well in a state of `post`, and fails in a state of `failed`. -/
def Obeys (R : Rule (cameras.sum host) γ) (failed : γ → Prop) (post : α → γ → Prop) (x : Attempt ε α) (g : γ) :
    Prop :=
  Program.Obeys R (Settled failed post) x.run g

variable {failed : γ → Prop} {post : α → γ → Prop} {post' : β → γ → Prop}

theorem obeys_bind {x : Attempt ε α} {f : α → Attempt ε β} (hx : x.Obeys R failed post g)
    (hf : ∀ a g', post a g' → (f a).Obeys R failed post' g') : (x >>= f).Obeys R failed post' g := by
  rw [Obeys, run_bind]
  refine Program.obeys_bind hx fun r g' hr => ?_
  cases r with
  | error e => exact hr
  | ok a => exact hf a g' hr

theorem Obeys.mono {post₁ : α → γ → Prop} {x : Attempt ε α} (hx : x.Obeys R failed post g)
    (hpost : ∀ a g', post a g' → post₁ a g') : x.Obeys R failed post₁ g := by
  refine Program.Obeys.mono hx fun r g' hr => ?_
  cases r with
  | error e => exact hr
  | ok a => exact hpost a g' hr

theorem obeys_pure {a : α} (hg : post a g) : (pure a : Attempt ε α).Obeys R failed post g := hg

theorem obeys_throw {e : ε} (hg : failed g) : (throw e : Attempt ε α).Obeys R failed post g := hg

theorem obeys_lift {p : Action α} (hp : p.Obeys R post g) : (liftM p : Attempt ε α).Obeys R failed post g :=
  Program.obeys_bind hp fun _ _ hpost => hpost

theorem obeys_of {f : δ → ε} {x : Action (Except δ α)} (hx : x.Obeys R (Settled failed post) g) :
    (Attempt.of f x).Obeys R failed post g := by
  rw [Obeys, run_of]
  refine Program.obeys_bind hx fun r g' hr => ?_
  cases r <;> exact hr

theorem obeys_discard {x : Attempt ε α} {post : Unit → γ → Prop} (hx : x.Obeys R failed (fun _ => post ()) g) :
    (discard x).Obeys R failed post g := by
  rw [Obeys, run_discard]
  refine Program.obeys_bind hx fun r g' hr => ?_
  cases r <;> exact hr

/-- An attempt whose calls all keep `Q` keeps it, and fails where `Q` holds. -/
theorem obeys_of_only {Q : γ → Prop} {x : Attempt ε α} (hx : x.Only (R.Keeps Q))
    (hQ : ∀ g, Q g → failed g) (hg : Q g) :
    x.Obeys R failed (fun _ => Q) g := by
  refine (Program.obeys_of_only hx hg).mono fun r g' hr => ?_
  cases r with
  | error e => exact hQ g' hr
  | ok a => exact hr

end Attempt

end Actions

end Reflash
