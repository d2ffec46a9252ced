/-!
# Reflash.Program — programs that call on the world, as trees

A program over an interface is finished, or calls on the world and goes on with the answer, or is `stalled`: a
wait on a clock that never moves, which goes on for ever.  A program says nothing about what the answers are.
An environment answers the calls from a state of its own, or dies in one (`none`); `Program.run` follows a
program through an environment, and `Program.history` lists the calls of that run with their answers.
`Program.expand` replaces every call by a program over another interface.
-/

namespace Reflash

/-- The calls a program may make, and the type of the answer to each. -/
structure Interface where
  Call : Type
  Answer : Call → Type

/-- The calls of both interfaces. -/
@[reducible] def Interface.sum (I J : Interface) : Interface where
  Call := I.Call ⊕ J.Call
  Answer
    | .inl c => I.Answer c
    | .inr c => J.Answer c

/-- A program over the interface `I` with a result in `α`. -/
inductive Program (I : Interface) (α : Type) : Type where
  | done (result : α)
  | stalled
  | call (c : I.Call) (next : I.Answer c → Program I α)

/-- How a run ends.  `panicked`: the world died in a call. -/
inductive Ending (α : Type) where
  | finished (result : α)
  | panicked
  | stalled
  deriving DecidableEq

/-- What answers the calls: from its state, an answer (`none`: it dies) and the next state. -/
abbrev Environment (I : Interface) (σ : Type) := (c : I.Call) → σ → Option (I.Answer c) × σ

/-- A call and the answer it got, `none` if the world died in it. -/
structure Event (I : Interface) where
  call : I.Call
  answer? : Option (I.Answer call)

namespace Program

variable {I J : Interface} {α β σ : Type}

/-- Runs `f` on the result. -/
def bind : Program I α → (α → Program I β) → Program I β
  | done a, f => f a
  | stalled, _ => stalled
  | call c next, f => call c fun answer => (next answer).bind f

instance : Monad (Program I) where
  pure := done
  bind := bind

/-- Makes one call. -/
def perform (c : I.Call) : Program I (I.Answer c) := call c done

/-- Follows a program through an environment. -/
def run (env : Environment I σ) : Program I α → σ → Ending α × σ
  | done a, s => (.finished a, s)
  | stalled, s => (.stalled, s)
  | call c next, s =>
    match env c s with
    | (some answer, s') => (next answer).run env s'
    | (none, s') => (.panicked, s')

/-- The calls that a run makes, in order, with their answers. -/
def history (env : Environment I σ) : Program I α → σ → List (Event I)
  | done _, _ => []
  | stalled, _ => []
  | call c next, s =>
    match env c s with
    | (some answer, s') => ⟨c, some answer⟩ :: (next answer).history env s'
    | (none, _) => [⟨c, none⟩]

/-- Replaces every call by a program over another interface; the replacement carries a state along. -/
def expand (f : (c : I.Call) → σ → Program J (I.Answer c × σ)) : Program I α → σ → Program J (α × σ)
  | done a, s => done (a, s)
  | stalled, _ => stalled
  | call c next, s => (f c s).bind fun (answer, s') => (next answer).expand f s'

/-! ### Sequencing -/

@[simp] theorem pure_eq (a : α) : (pure a : Program I α) = done a := rfl

@[simp] theorem bind_eq (p : Program I α) (f : α → Program I β) : p >>= f = p.bind f := rfl

@[simp] theorem bind_done (p : Program I α) : p.bind done = p := by
  induction p with
  | done a => rfl
  | stalled => rfl
  | call c next ih => simp only [bind, ih]

theorem bind_assoc {γ : Type} (p : Program I α) (f : α → Program I β) (g : β → Program I γ) :
    (p.bind f).bind g = p.bind fun a => (f a).bind g := by
  induction p with
  | done a => rfl
  | stalled => rfl
  | call c next ih => simp only [bind, ih]

instance : LawfulMonad (Program I) := LawfulMonad.mk' _
  (fun p => bind_done p)
  (fun _ _ => rfl)
  (fun p f g => bind_assoc p f g)

/-! ### Runs -/

/-- A run of a sequence runs the first part, and the second from where the first one finished. -/
theorem run_bind (env : Environment I σ) (p : Program I α) (f : α → Program I β) (s : σ) :
    (p.bind f).run env s =
      match p.run env s with
      | (.finished a, s') => (f a).run env s'
      | (.panicked, s') => (.panicked, s')
      | (.stalled, s') => (.stalled, s') := by
  induction p generalizing s with
  | done a => rfl
  | stalled => rfl
  | call c next ih =>
    simp only [bind, run]
    rcases env c s with ⟨_ | answer, s'⟩
    · rfl
    · exact ih answer s'

end Program

end Reflash
