import Reflash.Proofs.NextCall
import Reflash.Proofs.Obliging

/-!
# Reflash.Proofs.Stops — one run with a request to stop, and one without

`env.stoppedAt (some n)` is the world `env` with a request to stop that comes during the `n`-th event of the
run; `env.stoppedAt none` is the same world, and nobody asks.  A program runs alike in both until it heeds the
request (`stop_splits`), so what a stop does to it is said by what it goes on with there: `p.StopsAs r` says
that it ends at once with `r`.
-/

namespace Reflash

open Program

/-- Whether a call goes out to the cameras, the clock or the files.  Other calls keep the record of the session,
or look at the request to stop. -/
def CallKind.isEvent : CallKind → Bool
  | .clock | .files | .list | .identity | .firmware | .openMonitor | .exchange | .restart | .openControl
  | .transfer => true
  | .stop | .log | .record | .verdict | .progress | .terminal => false

def isEvent (c : (cameras.sum host).Call) : Bool := (kindOf c).isEvent

/-- The events of some calls. -/
def trace (h : History) : History := h.filter fun e => isEvent e.call

/-- A look at the request to stop. -/
abbrev Event.looked (stop : Bool) : Event (cameras.sum host) := .told .stopRequested (some stop)

@[simp] theorem Event.looked_inj {stop stop' : Bool} : Event.looked stop = Event.looked stop' ↔ stop = stop' := by
  constructor
  · intro h
    cases h
    rfl
  · rintro rfl
    rfl

/-- Some look found a request to stop. -/
def Heeded (h : History) : Prop := .looked true ∈ h

instance : DecidablePred Heeded := fun h => inferInstanceAs (Decidable (.looked true ∈ h))

section Trace

variable {h h₁ h₂ : History}

@[simp] theorem trace_nil : trace [] = [] := rfl

@[simp] theorem trace_append : trace (h₁ ++ h₂) = trace h₁ ++ trace h₂ := List.filter_append ..

theorem trace_cons_of_isEvent {e : Event (cameras.sum host)} (he : isEvent e.call = true) :
    trace (e :: h) = e :: trace h := List.filter_cons_of_pos he

theorem trace_cons_of_not_isEvent {e : Event (cameras.sum host)} (he : isEvent e.call = false) :
    trace (e :: h) = trace h := List.filter_cons_of_neg (by simp [he])

theorem Within.trace_eq_nil {kinds : List CallKind} (hh : Within kinds h)
    (hkinds : ∀ k ∈ kinds, k.isEvent = false) :
    trace h = [] := by
  refine List.filter_eq_nil_iff.mpr fun e he => ?_
  rw [isEvent, hkinds _ (hh e he)]
  exact Bool.false_ne_true

@[simp] theorem not_heeded_nil : ¬ Heeded [] := nofun

@[simp] theorem heeded_append : Heeded (h₁ ++ h₂) ↔ Heeded h₁ ∨ Heeded h₂ := List.mem_append

end Trace

/-! ## The same world, with a request and without -/

namespace Environment

variable {σ : Type} (env : Environment (cameras.sum host) σ)

/-- No call ends with the death of the world. -/
def Answers : Prop := ∀ c s, (env c s).1 ≠ none

/-- The world with a request to stop from the `n`-th event on, where `n? = some n`.  It counts the events. -/
def stoppedAt (n? : Option Nat) : Environment (cameras.sum host) (σ × Nat)
  | .inr .stopRequested, s => (some (n?.any (· ≤ s.2)), s)
  | c, s => ((env c s.1).1, (env c s.1).2, if isEvent c then s.2 + 1 else s.2)

variable {env}

theorem stoppedAt_of_ne {c : (cameras.sum host).Call} (hc : c ≠ .inr .stopRequested)
    (n? : Option Nat) (s : σ × Nat) :
    env.stoppedAt n? c s = ((env c s.1).1, (env c s.1).2, if isEvent c then s.2 + 1 else s.2) := by
  rcases c with c | c
  · rfl
  · cases c <;> first | rfl | exact absurd rfl hc

theorem history_look {α : Type} (n? : Option Nat) (s : σ × Nat) (next : Bool → Action α) :
    (call (.inr .stopRequested) next : Action α).history (env.stoppedAt n?) s =
      .looked (n?.any (· ≤ s.2)) :: (next (n?.any (· ≤ s.2))).history (env.stoppedAt n?) s := rfl

theorem Answers.stoppedAt (henv : env.Answers) (n? : Option Nat) : (env.stoppedAt n?).Answers := by
  intro c s
  by_cases hc : c = .inr .stopRequested
  · subst hc
    exact nofun
  · rw [stoppedAt_of_ne hc]
    exact henv c s.1

theorem Answers.not_panicked {α : Type} (henv : env.Answers) (p : Action α) (s : σ) :
    (p.run env s).1 ≠ .panicked := by
  induction p generalizing s with
  | done a => exact nofun
  | stalled => exact nofun
  | call c next ih =>
    rw [run]
    rcases hanswer : env c s with ⟨_ | answer, s'⟩
    · exact absurd (congrArg Prod.fst hanswer) (henv c s)
    · exact ih answer s'

/-- Where every call is answered, a program that never stalls finishes. -/
theorem Answers.finishes {α : Type} (henv : env.Answers) {p : Action α}
    (hp : p.StallsAfter fun _ => False) (s : σ) :
    ∃ a, (p.run env s).1 = .finished a ∧ p.Finishes (p.history env s) a := by
  cases hend : (p.run env s).1 with
  | finished a => exact ⟨a, rfl, finishes_history hend⟩
  | panicked => exact absurd hend (henv.not_panicked p s)
  | stalled =>
    obtain ⟨e, -, hfalse⟩ := hp.exists_call hend
    exact hfalse.elim

variable (env) in
/-- Nobody asked. -/
theorem not_heeded_of_unstopped {α : Type} (p : Action α) (s : σ × Nat) :
    ¬ Heeded (p.history (env.stoppedAt none) s) := by
  induction p generalizing s with
  | done a => exact not_heeded_nil
  | stalled => exact not_heeded_nil
  | call c next ih =>
    rw [history]
    by_cases hc : c = .inr .stopRequested
    · subst hc
      intro hmem
      rcases List.mem_cons.mp hmem with heq | hmem
      · cases heq
      · exact ih _ _ hmem
    · rcases env.stoppedAt none c s with ⟨_ | answer, s'⟩
      all_goals
        intro hmem
        rcases List.mem_cons.mp hmem with heq | hmem
        · exact hc (congrArg Event.call heq).symm
        · first | exact not_heeded_nil hmem | exact ih _ _ hmem

end Environment

theorem answers_obliging : Obliging.world.Answers := by
  intro c o
  cases c with
  | inl c => cases c <;> nofun
  | inr c => cases c <;> nofun

section Split

variable {σ : Type} (env : Environment (cameras.sum host) σ) (n : Nat) {α : Type}

/-- A run with a request to stop is the run without one; or both come to a look at the request, and one of them
goes on with the request and the other without it. -/
theorem stop_splits (p : Action α) (s : σ × Nat) :
    p.history (env.stoppedAt (some n)) s = p.history (env.stoppedAt none) s ∧
      p.run (env.stoppedAt (some n)) s = p.run (env.stoppedAt none) s ∨
    ∃ shared next s', p.ComesTo shared (.inr .stopRequested) next ∧ ¬ Heeded shared ∧
      p.history (env.stoppedAt (some n)) s = shared ++
        .looked true :: (next true).history (env.stoppedAt (some n)) s' ∧
      p.run (env.stoppedAt (some n)) s = (next true).run (env.stoppedAt (some n)) s' ∧
      p.history (env.stoppedAt none) s = shared ++
        .looked false :: (next false).history (env.stoppedAt none) s' := by
  induction p generalizing s with
  | done a => exact .inl ⟨rfl, rfl⟩
  | stalled => exact .inl ⟨rfl, rfl⟩
  | call c next ih =>
    by_cases hc : c = .inr .stopRequested
    · subst hc
      by_cases hn : n ≤ s.2
      · refine .inr ⟨[], next, s, .here _ next, not_heeded_nil, ?_, ?_, rfl⟩
        · simp [history, Environment.stoppedAt, hn]
        · simp [run, Environment.stoppedAt, hn]
      · -- The request has not come yet, so both runs go on without it.
        have hlook : env.stoppedAt (some n) (.inr .stopRequested) s = (some false, s) := by
          simp [Environment.stoppedAt, hn]
        have hlook' : env.stoppedAt none (.inr .stopRequested) s = (some false, s) := rfl
        simp only [history, run, hlook, hlook']
        rcases ih false s with ⟨hh, hr⟩ | ⟨shared, next', s', hcomes, hnot, hh, hr, hh'⟩
        · exact .inl ⟨by rw [hh], hr⟩
        · refine .inr ⟨.looked false :: shared, next', s', .later hcomes, ?_, ?_, hr, ?_⟩
          · intro hmem
            rcases List.mem_cons.mp hmem with heq | hmem
            · cases heq
            · exact hnot hmem
          · rw [hh]
            rfl
          · rw [hh']
            rfl
    · simp only [history, run, Environment.stoppedAt_of_ne hc]
      rcases (env c s.1).1 with _ | answer
      · exact .inl ⟨rfl, rfl⟩
      · dsimp only
        rcases ih answer ((env c s.1).2, if isEvent c then s.2 + 1 else s.2) with
          ⟨hh, hr⟩ | ⟨shared, next', s', hcomes, hnot, hh, hr, hh'⟩
        · exact .inl ⟨by rw [hh], hr⟩
        · refine .inr ⟨⟨c, some answer⟩ :: shared, next', s', .later hcomes, ?_, ?_, hr, ?_⟩
          · intro hmem
            rcases List.mem_cons.mp hmem with heq | hmem
            · exact hc (congrArg Event.call heq).symm
            · exact hnot hmem
          · rw [hh]
            rfl
          · rw [hh']
            rfl

/-- What a run did without heeding a request, the run without one did as well. -/
theorem prefix_of_not_heeded {p : Action α} {s : σ × Nat} {part rest : History}
    (hh : p.history (env.stoppedAt (some n)) s = part ++ rest) (hnot : ¬ Heeded part) :
    part <+: p.history (env.stoppedAt none) s := by
  rcases stop_splits env n p s with ⟨hsame, -⟩ | ⟨shared, next, s', -, -, hstopped, -, hunstopped⟩
  · exact ⟨rest, by rw [← hsame, hh]⟩
  · rw [hh] at hstopped
    have hshared : shared <+: p.history (env.stoppedAt none) s := by
      rw [hunstopped]
      exact List.prefix_append _ _
    rcases List.append_eq_append_iff.mp hstopped with ⟨left, rfl, -⟩ | ⟨left, rfl, hleft⟩
    · exact (List.prefix_append part left).trans hshared
    · cases left with
      | nil => rwa [List.append_nil]
      | cons e left =>
        obtain ⟨rfl, -⟩ := List.cons.inj hleft
        exact absurd (heeded_append.mpr (.inr List.mem_cons_self)) hnot

end Split

/-! ## What a program does when it is stopped -/

section Stops

variable {α β ε δ : Type}

/-- A look that finds a request to stop ends the program at once, with this result. -/
def Program.StopsAs (r : α) (p : Action α) : Prop :=
  ∀ h next, p.ComesTo h (.inr .stopRequested) next → next true = .done r

theorem stopsAs_of_only {p : Action α} (hp : p.Only fun c => kindOf c ≠ .stop) (r : α) : p.StopsAs r :=
  fun _ _ hc => absurd rfl (hc.only hp)

theorem stopsAs_done (a r : α) : (Program.done a : Action α).StopsAs r := fun _ _ hc => absurd hc not_comesTo_done

theorem stopsAs_bind {p : Action α} {f : α → Action β} {a : α} {b : β} (hp : p.StopsAs a) (ha : f a = .done b)
    (hf : ∀ a, (f a).StopsAs b) : (p.bind f).StopsAs b := by
  intro h next hc
  rcases comesTo_bind.mp hc with ⟨next', hc', rfl⟩ | ⟨a', h₁, h₂, rfl, -, hc'⟩
  · show (next' true).bind f = .done b
    rw [hp h next' hc']
    exact ha
  · exact hf a' h₂ next hc'

/-- What does not look at the request comes before what does. -/
theorem stopsAs_after {p : Action α} {f : α → Action β} {b : β} (hp : p.Only fun c => kindOf c ≠ .stop)
    (hf : ∀ a, (f a).StopsAs b) : (p.bind f).StopsAs b := by
  intro h next hc
  rcases comesTo_bind.mp hc with ⟨next', hc', rfl⟩ | ⟨a, h₁, h₂, rfl, -, hc'⟩
  · exact absurd rfl (hc'.only hp)
  · exact hf a h₂ next hc'

/-- A program that begins with a look comes to this look first. -/
theorem comesTo_look {f : Bool → Action β} {h : History} {next : Bool → Action β}
    (hc : ((tell .stopRequested).bind f).ComesTo h (.inr .stopRequested) next) :
    h = [] ∧ next = f ∨ ∃ stop h', h = .looked stop :: h' ∧ (f stop).ComesTo h' (.inr .stopRequested) next := by
  cases hc with
  | here => exact .inl ⟨rfl, rfl⟩
  | @later _ _ _ _ stop h' hc => exact .inr ⟨stop, h', rfl, hc⟩

/-- Any other call comes after the look. -/
theorem comesTo_after_look {f : Bool → Action β} {h : History} {c : (cameras.sum host).Call}
    {next : (cameras.sum host).Answer c → Action β} (hc : ((tell .stopRequested).bind f).ComesTo h c next)
    (hne : c ≠ .inr .stopRequested) : ∃ stop h', h = .looked stop :: h' ∧ (f stop).ComesTo h' c next := by
  cases hc with
  | here => exact absurd rfl hne
  | @later _ _ _ _ stop h' hc => exact ⟨stop, h', rfl, hc⟩

/-- A program that looks, and ends if there is a request. -/
theorem stopsAs_look {f : Bool → Action β} {b : β} (hstop : f true = .done b) (hgo : (f false).StopsAs b) :
    ((tell .stopRequested).bind f).StopsAs b := by
  intro h next hc
  rcases comesTo_look hc with ⟨-, rfl⟩ | ⟨stop, h', rfl, hrest⟩
  · exact hstop
  · cases stop with
    | true =>
      rw [hstop] at hrest
      exact absurd hrest not_comesTo_done
    | false => exact hgo h' next hrest

/-- Without a heeded request a program ends with a result of `R` only. -/
def Program.Unstopped (R : α → Prop) (p : Action α) : Prop := ∀ h a, p.Finishes h a → ¬ Heeded h → R a

section Unstopped

variable {R : β → Prop}

theorem unstopped_done {b : β} (hb : R b) : (Program.done b : Action β).Unstopped R := by
  intro h b' hf _
  obtain ⟨-, rfl⟩ := finishes_done.mp hf
  exact hb

theorem unstopped_bind {p : Action α} {f : α → Action β} (hf : ∀ a, (f a).Unstopped R) :
    (p.bind f).Unstopped R := by
  intro h b hfin hnot
  obtain ⟨a, h₁, h₂, rfl, -, hfin⟩ := finishes_bind.mp hfin
  exact hf a h₂ b hfin fun hh => hnot (heeded_append.mpr (.inr hh))

theorem heeded_of_shouldStop {heedsStop : Bool} {h : History} (hf : (shouldStop heedsStop).Finishes h true) :
    Heeded h := by
  unfold shouldStop at hf
  split at hf
  · rw [finishes_tell.mp hf]
    exact List.mem_singleton_self _
  · cases (finishes_done.mp hf).2

/-- A look that is not heeded found no request. -/
theorem unstopped_shouldStop {heedsStop : Bool} {f : Bool → Action β} (hgo : (f false).Unstopped R) :
    ((shouldStop heedsStop).bind f).Unstopped R := by
  intro h b hfin hnot
  obtain ⟨stop, h₁, h₂, rfl, hlook, hfin⟩ := finishes_bind.mp hfin
  rw [heeded_append, not_or] at hnot
  cases stop with
  | false => exact hgo h₂ b hfin hnot.2
  | true => exact absurd (heeded_of_shouldStop hlook) hnot.1

end Unstopped

namespace Attempt

/-- A look that finds a request to stop ends the attempt at once, with this failure. -/
def StopsAs (e : ε) (x : Attempt ε α) : Prop := Program.StopsAs (.error e) x.run

theorem stopsAs_of_only {x : Attempt ε α} (hx : x.Only fun c => kindOf c ≠ .stop) (e : ε) : x.StopsAs e :=
  Reflash.stopsAs_of_only hx _

theorem stopsAs_bind {x : Attempt ε α} {f : α → Attempt ε β} {e : ε} (hx : x.StopsAs e)
    (hf : ∀ a, (f a).StopsAs e) :
    (x >>= f).StopsAs e := by
  rw [StopsAs, run_bind_eq]
  refine Reflash.stopsAs_bind hx rfl fun r => ?_
  cases r with
  | ok a => exact hf a
  | error e' => exact stopsAs_done _ _

theorem stopsAs_of {f : δ → ε} {x : Action (Except δ α)} {d : δ} (hx : x.StopsAs (.error d)) :
    (Attempt.of f x).StopsAs (f d) := by
  rw [StopsAs, run_of]
  exact Reflash.stopsAs_bind hx rfl fun r => stopsAs_done _ _

@[simp] theorem stopsAs_pure (a : α) (e : ε) : (pure a : Attempt ε α).StopsAs e := stopsAs_done _ _

@[simp] theorem stopsAs_throw (e' e : ε) : (throw e' : Attempt ε α).StopsAs e := stopsAs_done _ _

/-- An attempt that looks, and fails if there is a request. -/
theorem stopsAs_look {f : Bool → Attempt ε β} {e : ε} (hstop : f true = throw e) (hgo : (f false).StopsAs e) :
    ((liftM (tell .stopRequested : Action Bool) : Attempt ε Bool) >>= f).StopsAs e := by
  rw [StopsAs, run_lift_bind]
  refine Reflash.stopsAs_look ?_ hgo
  rw [hstop]
  rfl

/-- Without a heeded request an attempt fails with a failure of `E` only. -/
def Unstopped (E : ε → Prop) (x : Attempt ε α) : Prop := ∀ h e, x.Finishes h (.error e) → ¬ Heeded h → E e

variable {E : ε → Prop}

theorem unstopped_bind {x : Attempt ε α} {f : α → Attempt ε β} (hx : x.Unstopped E) (hf : ∀ a, (f a).Unstopped E) :
    (x >>= f).Unstopped E := by
  intro h e hfin hnot
  rcases finishes_bind_error.mp hfin with hfin | ⟨a, h₁, h₂, rfl, -, hfin⟩
  · exact hx h e hfin hnot
  · exact hf a h₂ e hfin fun hh => hnot (heeded_append.mpr (.inr hh))

@[simp] theorem unstopped_pure (a : α) : (pure a : Attempt ε α).Unstopped E := by
  intro h e hfin
  cases (finishes_pure.mp hfin).2

@[simp] theorem unstopped_lift (p : Action α) : (liftM p : Attempt ε α).Unstopped E :=
  fun _ _ hfin => absurd hfin not_finishes_lift_error

theorem unstopped_throw {e : ε} (he : E e) : (throw e : Attempt ε α).Unstopped E := by
  intro h e' hfin _
  cases (finishes_throw.mp hfin).2
  exact he

theorem unstopped_decided {x : Except ε α} (hx : ∀ e, x = .error e → E e) : (Attempt.decided x).Unstopped E := by
  intro h e hfin _
  exact hx e (finishes_decided.mp hfin).2.symm

/-- What fails otherwise only with failures that `f` words as `E`. -/
theorem unstopped_of {f : δ → ε} {x : Action (Except δ α)}
    (hx : x.Unstopped fun r => ∀ d, r = .error d → E (f d)) :
    (Attempt.of f x).Unstopped E := by
  intro h e hfin hnot
  obtain ⟨d, hd, rfl⟩ := finishes_of_error.mp hfin
  exact hx h _ hd hnot d rfl

/-- Whatever failure it is, `f` words it as `E`. -/
theorem unstopped_of_all {f : δ → ε} {x : Action (Except δ α)} (hf : ∀ d, E (f d)) :
    (Attempt.of f x).Unstopped E :=
  unstopped_of fun _ _ _ _ d _ => hf d

theorem unstopped_discard {x : Attempt ε α} (hx : x.Unstopped E) : (discard x).Unstopped E :=
  fun h e hfin => hx h e (finishes_discard_error.mp hfin)

theorem unstopped_look {heedsStop : Bool} {f : Bool → Attempt ε β} (hgo : (f false).Unstopped E) :
    ((liftM (shouldStop heedsStop) : Attempt ε Bool) >>= f).Unstopped E := by
  have hrun : ((shouldStop heedsStop).bind fun stop => (f stop).run).Unstopped fun r => ∀ e,
      r = .error e → E e := by
    refine unstopped_shouldStop fun h r hfin hnot e hr => ?_
    subst hr
    exact hgo h e hfin hnot
  intro h e hfin hnot
  rw [Finishes, run_lift_bind] at hfin
  exact hrun h _ hfin hnot e rfl

end Attempt

end Stops

end Reflash
