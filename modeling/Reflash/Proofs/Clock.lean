import Reflash.Dfu.Wait
import Reflash.Proofs.Reacquire
import Reflash.Proofs.Stops

/-!
# Reflash.Proofs.Clock — a clock that moves, and the programs that end on it

A wait is a loop without a counter of its own: its deadline ends it, and only because the clock moves.  `Moves t
h` says that the clock of the calls `h` starts at `t`, never goes back, and is moved on by every pause; it holds
of the history of every run in a world with a `MovingClock`.  `p.Ends` says that no run of `p` on such a clock
goes on for ever.  A wait and a search end if they pause between their rounds (`Wait.ends_run`,
`Search.ends_run`): each pause brings the deadline nearer.
-/

namespace Reflash

open Program

namespace Program

variable {I : Interface} {α β σ : Type}

/-- Some run makes the calls `h` and then stalls. -/
inductive Stalls : Program I α → List (Event I) → Prop
  | here : Stalls stalled []
  | call {c : I.Call} {next : I.Answer c → Program I α} {answer : I.Answer c} {h : List (Event I)} :
    Stalls (next answer) h → Stalls (call c next) (⟨c, some answer⟩ :: h)

@[simp] theorem not_stalls_done {a : α} {h : List (Event I)} : ¬ (done a : Program I α).Stalls h := nofun

/-- A sequence stalls in its first part, or in the second after the first has finished. -/
theorem stalls_bind {p : Program I α} {f : α → Program I β} {h : List (Event I)} :
    (p.bind f).Stalls h ↔ p.Stalls h ∨ ∃ a h₁ h₂, h = h₁ ++ h₂ ∧ p.Finishes h₁ a ∧ (f a).Stalls h₂ := by
  induction p generalizing h with
  | done a =>
    constructor
    · exact fun hs => .inr ⟨a, [], h, rfl, .done a, hs⟩
    · rintro (hs | ⟨a', h₁, h₂, rfl, ha, hs⟩)
      · cases hs
      · obtain ⟨rfl, rfl⟩ := finishes_done.mp ha
        exact hs
  | stalled =>
    constructor
    · intro hs
      cases hs
      exact .inl .here
    · rintro (hs | ⟨a, h₁, h₂, rfl, ha, -⟩)
      · cases hs
        exact .here
      · exact absurd ha not_finishes_stalled
  | call c next ih =>
    constructor
    · intro hs
      cases hs with
      | call hs =>
        rcases (ih _).mp hs with hs | ⟨a, h₁, h₂, rfl, ha, hs⟩
        · exact .inl (.call hs)
        · exact .inr ⟨a, _, h₂, rfl, .call ha, hs⟩
    · rintro (hs | ⟨a, h₁, h₂, rfl, ha, hs⟩)
      · cases hs with
        | call hs => exact .call ((ih _).mpr (.inl hs))
      · cases ha with
        | call ha => exact .call ((ih _).mpr (.inr ⟨a, _, h₂, rfl, ha, hs⟩))

theorem StallsAfter.not_stalls {p : Program I α} {h : List (Event I)} (hp : p.StallsAfter fun _ => False) :
    ¬ p.Stalls h := by
  intro hs
  induction hs with
  | here => exact hp
  | call _ ih => exact ih (hp.elim False.elim fun hnext => hnext _)

/-- What comes before does not stall. -/
theorem stalls_after {p : Program I α} {f : α → Program I β} {h : List (Event I)}
    (hp : p.StallsAfter fun _ => False) :
    (p.bind f).Stalls h ↔ ∃ a h₁ h₂, h = h₁ ++ h₂ ∧ p.Finishes h₁ a ∧ (f a).Stalls h₂ := by
  rw [stalls_bind, or_iff_right hp.not_stalls]

theorem stalls_history {env : Environment I σ} {p : Program I α} {s : σ} (hr : (p.run env s).1 = .stalled) :
    p.Stalls (p.history env s) := by
  induction p generalizing s with
  | done a => cases hr
  | stalled => exact .here
  | call c next ih =>
    rw [run] at hr
    rw [history]
    rcases henv : env c s with ⟨_ | answer, s'⟩
    · rw [henv] at hr
      cases hr
    · rw [henv] at hr
      exact .call (ih answer hr)

end Program

/-! ## Clocks -/

/-- What a clock shows at least after a call, if it showed `t` before. -/
def tick (t : Nanos) : Event (cameras.sum host) → Nanos
  | ⟨.inr .now, some now⟩ => now
  | ⟨.inr (.sleep d), some _⟩ => t + d
  | _ => t

/-- What a clock shows at least after some calls. -/
def clockAfter (t : Nanos) (h : History) : Nanos := h.foldl tick t

/-- The clock of these calls starts at `t` and never goes back, and every pause moves it on. -/
def Moves : Nanos → History → Prop
  | _, [] => True
  | t, e :: h => t ≤ tick t e ∧ Moves (tick t e) h

section Moves

variable {t : Nanos} {h h₁ h₂ : History}

-- The answer of a call has a type that reduces, so it must not be a key of these rules.
@[simp] theorem tick_now (now : Nanos) : tick t (.told .now (no_index (some now))) = now := rfl

@[simp] theorem tick_sleep (d : Nanos) (u : Unit) : tick t (.told (.sleep d) (no_index (some u))) = t + d := rfl

@[simp] theorem clockAfter_nil : clockAfter t [] = t := rfl

@[simp] theorem clockAfter_cons {e : Event (cameras.sum host)} :
    clockAfter t (e :: h) = clockAfter (tick t e) h := rfl

theorem moves_append : Moves t (h₁ ++ h₂) ↔ Moves t h₁ ∧ Moves (clockAfter t h₁) h₂ := by
  induction h₁ generalizing t with
  | nil => simp [Moves]
  | cons e h₁ ih => simp only [List.cons_append, Moves, ih, clockAfter_cons, and_assoc]

theorem Moves.le (hm : Moves t h) : t ≤ clockAfter t h := by
  induction h generalizing t with
  | nil => exact Nat.le_refl _
  | cons e h ih => exact Nat.le_trans hm.1 (ih hm.2)

end Moves

/-- A world whose clock never goes back, and which a pause moves on by its length at least; any other call may
take time as well.  `time` is what the clock would show. -/
structure MovingClock {σ : Type} (env : Environment (cameras.sum host) σ) where
  time : σ → Nanos
  le_time : ∀ c s, time s ≤ time (env c s).2
  now_le : ∀ s now, (env (.inr .now) s).1 = some now → time s ≤ now ∧ now ≤ time (env (.inr .now) s).2
  sleep_le : ∀ d s, time s + d ≤ time (env (.inr (.sleep d)) s).2

namespace MovingClock

variable {σ α : Type} {env : Environment (cameras.sum host) σ} (clock : MovingClock env)

/-- A call whose answer the clock allows, and where the clock stands after it. -/
theorem tick_le {t : Nanos} {c : (cameras.sum host).Call} {s : σ} (ht : t ≤ clock.time s) :
    t ≤ tick t ⟨c, (env c s).1⟩ ∧ tick t ⟨c, (env c s).1⟩ ≤ clock.time (env c s).2 := by
  have hrest : t ≤ clock.time (env c s).2 := Nat.le_trans ht (clock.le_time c s)
  unfold tick
  split
  · rename_i now heq
    obtain ⟨rfl, hanswer⟩ := Event.mk.inj heq
    obtain ⟨hbefore, hafter⟩ := clock.now_le s now (eq_of_heq hanswer)
    exact ⟨Nat.le_trans ht hbefore, hafter⟩
  · rename_i d u heq
    obtain ⟨rfl, -⟩ := Event.mk.inj heq
    exact ⟨Nat.le_add_right t d, Nat.le_trans (Nat.add_le_add_right ht d) (clock.sleep_le d s)⟩
  · exact ⟨Nat.le_refl t, hrest⟩

theorem moves_history (p : Action α) {t : Nanos} {s : σ} (ht : t ≤ clock.time s) : Moves t (p.history env s) := by
  induction p generalizing t s with
  | done a => trivial
  | stalled => trivial
  | call c next ih =>
    have htick := clock.tick_le (c := c) ht
    rw [history]
    rcases henv : env c s with ⟨_ | answer, s'⟩
    · rw [henv] at htick
      exact ⟨htick.1, trivial⟩
    · rw [henv] at htick
      exact ⟨htick.1, ih answer htick.2⟩

end MovingClock

/-- A world with a clock of its own, on which only pauses take time. -/
def Environment.clocked {σ : Type} (env : Environment (cameras.sum host) σ) :
    Environment (cameras.sum host) (σ × Nanos)
  | .inr .now, s => (some s.2, s)
  | .inr (.sleep d), s => (some (), s.1, s.2 + d)
  | c, s => ((env c s.1).1, (env c s.1).2, s.2)

section Clocked

variable {σ : Type} {env : Environment (cameras.sum host) σ}

def Environment.clockedClock (env : Environment (cameras.sum host) σ) : MovingClock env.clocked where
  time s := s.2
  le_time c s := by
    unfold Environment.clocked
    split <;> simp
  now_le s now hnow := by
    obtain rfl := Option.some.inj hnow
    exact ⟨Nat.le_refl _, Nat.le_refl _⟩
  sleep_le d s := Nat.le_refl _

theorem Environment.Answers.clocked (henv : env.Answers) : env.clocked.Answers := by
  intro c s
  unfold Environment.clocked
  split
  · exact nofun
  · exact nofun
  · exact henv c s.1

end Clocked

/-! ## What ends on a clock that moves -/

/-- No run on a clock that moves goes on for ever. -/
def Program.Ends {α : Type} (p : Action α) : Prop := ∀ t h, Moves t h → ¬ p.Stalls h

section Ends

variable {α β ε δ : Type}

theorem MovingClock.finishes_of_ends {σ : Type} {env : Environment (cameras.sum host) σ} (clock : MovingClock env)
    {p : Action α} (hp : p.Ends) {s : σ} (hlive : (p.run env s).1 ≠ .panicked) :
    ∃ a, (p.run env s).1 = .finished a := by
  cases hend : (p.run env s).1 with
  | finished a => exact ⟨a, rfl⟩
  | panicked => exact absurd hend hlive
  | stalled => exact absurd (stalls_history hend) (hp _ _ (clock.moves_history p (Nat.le_refl _)))

theorem Program.StallsAfter.ends {p : Action α} (hp : p.StallsAfter fun _ => False) : p.Ends :=
  fun _ _ _ => hp.not_stalls

theorem ends_bind {p : Action α} {f : α → Action β} (hp : p.Ends) (hf : ∀ a, (f a).Ends) : (p.bind f).Ends := by
  intro t h hm hs
  rcases stalls_bind.mp hs with hs | ⟨a, h₁, h₂, rfl, -, hs⟩
  · exact hp t h hm hs
  · exact hf a _ h₂ (moves_append.mp hm).2 hs

@[simp] theorem ends_done (a : α) : (Program.done a : Action α).Ends := fun _ _ _ => not_stalls_done

namespace Attempt

def Ends (x : Attempt ε α) : Prop := Program.Ends x.run

theorem StallsAfter.ends {x : Attempt ε α} (hx : x.StallsAfter fun _ => False) : x.Ends :=
  Program.StallsAfter.ends hx

theorem ends_bind {x : Attempt ε α} {f : α → Attempt ε β} (hx : x.Ends) (hf : ∀ a, (f a).Ends) :
    (x >>= f).Ends := by
  rw [Ends, run_bind]
  refine Reflash.ends_bind hx fun r => ?_
  cases r with
  | error e => exact ends_done _
  | ok a => exact hf a

@[simp] theorem ends_pure (a : α) : (pure a : Attempt ε α).Ends := ends_done _

@[simp] theorem ends_throw (e : ε) : (throw e : Attempt ε α).Ends := ends_done _

@[simp] theorem ends_decided (x : Except ε α) : (Attempt.decided x).Ends := ends_done _

theorem ends_lift {p : Action α} (hp : p.Ends) : (liftM p : Attempt ε α).Ends :=
  Reflash.ends_bind hp fun _ => ends_done _

theorem ends_of {f : δ → ε} {x : Action (Except δ α)} (hx : x.Ends) : (Attempt.of f x).Ends := by
  rw [Ends, run_of]
  exact Reflash.ends_bind hx fun _ => ends_done _

theorem ends_discard {x : Attempt ε α} (hx : x.Ends) : (discard x).Ends := by
  rw [Ends, run_discard]
  refine Reflash.ends_bind hx fun r => ?_
  cases r <;> exact ends_done _

end Attempt

end Ends

/-! ## Waits and searches -/

/-- The rounds that are followed are more than the pauses that fit before a deadline. -/
theorem lt_rounds (timeout : Nat) {pause : Nat} (hpause : 0 < pause) :
    timeout < (roundsWithin timeout pause - 1) * pause := by
  have hmax : max pause 1 = pause := Nat.max_eq_left hpause
  have hdiv : timeout < (timeout / pause + 1) * pause := by
    rw [Nat.add_one_mul]
    exact Nat.lt_div_mul_add hpause
  refine Nat.lt_of_lt_of_le hdiv (Nat.mul_le_mul_right pause ?_)
  simp only [roundsWithin, hmax]
  omega

/-- So the rounds of a loop do not all come before its deadline. -/
theorem not_stalls_rounds {timeout pause passed : Nat} (hpause : 0 < pause) :
    ¬ (roundsWithin timeout pause = 0 ∨ passed + (roundsWithin timeout pause - 1) * pause < timeout) := by
  have hrounds := lt_rounds timeout hpause
  rintro (hzero | hlt)
  · rw [hzero, Nat.zero_sub, Nat.zero_mul] at hrounds
    exact Nat.not_lt_zero _ hrounds
  · omega

section Round

variable {α : Type} {start t timeout pause : Nat} {h : History}

/-- Where a round does not end a loop, the deadline is still to come, and there is a pause. -/
theorem stalls_roundEnd {late : α} {next : Action α} (hm : Moves t h)
    (hs : ((tell .now).bind fun now : Nanos => if timeout ≤ now - start then .done late
      else (tell (.sleep pause)).bind fun _ => next).Stalls h) :
    ∃ (now : Nat) (h' : History), t ≤ now ∧ now - start < timeout ∧ Moves (now + pause) h' ∧ next.Stalls h' := by
  obtain ⟨now, h₁, h₂, rfl, hnow, hround⟩ := (stalls_after (stallsAfter_tell _)).mp hs
  obtain rfl := finishes_tell.mp hnow
  split at hround
  · exact absurd hround not_stalls_done
  rename_i hearly
  obtain ⟨u, h₃, h₄, rfl, hsleep, hrest⟩ := (stalls_after (stallsAfter_tell _)).mp hround
  obtain rfl := finishes_tell.mp hsleep
  simp only [List.cons_append, List.nil_append, Moves, tick_now, tick_sleep] at hm
  exact ⟨now, h₄, hm.1, Nat.lt_of_not_le hearly, hm.2.2, hrest⟩

/-- A round and its pause come before the deadline together with the rounds after them. -/
theorem rounds_lt {now : Nat} {rounds : Nat} (hstart : start ≤ t) (hnow : t ≤ now) (hearly : now - start < timeout)
    (hrest : rounds = 0 ∨ now + pause - start + (rounds - 1) * pause < timeout) :
    t - start + rounds * pause < timeout := by
  cases rounds with
  | zero => omega
  | succ rounds =>
    rw [Nat.add_one_mul]
    simp only [Nat.add_sub_cancel] at hrest
    omega

end Round

namespace Wait

variable {w : Wait} {channel : ControlChannel} {h : History}

theorem stallsAfter_reportReply {P : (cameras.sum host).Call → Prop} (reply : Except LinkError DeviceStatus) :
    (reportReply reply).StallsAfter P := by
  unfold reportReply
  split
  · exact stallsAfter_report _ _
  · exact stallsAfter_report _ _
  · trivial

theorem stallsAfter_queryStatus {P : (cameras.sum host).Call → Prop} {timeout : Nanos} :
    (queryStatus channel timeout).StallsAfter P := by
  refine stallsAfter_bind (stallsAfter_ask _) fun reply => ?_
  split <;> trivial

/-- A wait that used up its rounds paused after each of them, and all that before the deadline. -/
theorem stalls_loop {start t : Nanos} {rounds : Nat} {last : Option DeviceStatus} (ht : start ≤ t) (hm : Moves t h)
    (hs : (w.loop channel start rounds last).Stalls h) :
    rounds = 0 ∨ t - start + (rounds - 1) * w.interval < w.timeout := by
  induction rounds generalizing h t last with
  | zero => exact .inl rfl
  | succ rounds ih =>
    obtain ⟨stop, h₁, h₂, rfl, -, hs⟩ := (stalls_after (stallsAfter_shouldStop _)).mp hs
    split at hs
    · exact absurd hs not_stalls_done
    obtain ⟨reply, h₃, h₄, rfl, -, hs⟩ := (stalls_after stallsAfter_queryStatus).mp hs
    obtain ⟨u, h₅, h₆, rfl, -, hs⟩ := (stalls_after (stallsAfter_reportReply reply)).mp hs
    split at hs
    · exact absurd hs not_stalls_done
    simp only [moves_append] at hm
    obtain ⟨hm₁, hm₃, hm₅, hm⟩ := hm
    obtain ⟨now, h', hnow, hearly, hm, hs⟩ := stalls_roundEnd hm hs
    have hle : t ≤ now := Nat.le_trans hm₁.le (Nat.le_trans hm₃.le (Nat.le_trans hm₅.le hnow))
    have hstart : start ≤ now + w.interval := Nat.le_trans ht (Nat.le_trans hle (Nat.le_add_right now _))
    exact .inr (rounds_lt ht hle hearly (ih hstart hm hs))

/-- A wait with a pause comes to its end. -/
theorem ends_run (hw : 0 < w.interval) : (w.run channel).Ends := by
  intro t h hm hs
  obtain ⟨start, h₁, h₂, rfl, hstart, hloop⟩ := (stalls_after (stallsAfter_tell _)).mp hs
  obtain rfl := finishes_tell.mp hstart
  exact not_stalls_rounds hw (stalls_loop (Nat.le_refl start) (moves_append.mp hm).2 hloop)

end Wait

namespace Search

variable {s : Search} {h : History}

theorem stallsAfter_pick {P : (cameras.sum host).Call → Prop} (listing : List Camera) :
    (s.pick listing).StallsAfter P := by
  induction listing with
  | nil => trivial
  | cons camera listing ih =>
    unfold pick
    split
    · exact ih
    refine stallsAfter_bind stallsAfter_identityOf fun reply => ?_
    split
    · split
      · trivial
      · exact ih
    · exact ih
    · exact stallsAfter_bind (stallsAfter_report _ _) fun _ => ih

theorem stallsAfter_scan {P : (cameras.sum host).Call → Prop} : s.scan.StallsAfter P := by
  refine stallsAfter_bind (stallsAfter_ask _) fun reply => ?_
  split
  · exact stallsAfter_pick _
  · exact stallsAfter_bind (stallsAfter_report _ _) fun _ => trivial

theorem stalls_loop {start t : Nanos} {rounds : Nat} (ht : start ≤ t) (hm : Moves t h)
    (hs : (s.loop start rounds).Stalls h) : rounds = 0 ∨ t - start + (rounds - 1) * s.interval < s.timeout := by
  induction rounds generalizing h t with
  | zero => exact .inl rfl
  | succ rounds ih =>
    obtain ⟨stop, h₁, h₂, rfl, -, hs⟩ := (stalls_after (stallsAfter_shouldStop _)).mp hs
    split at hs
    · exact absurd hs not_stalls_done
    obtain ⟨found?, h₃, h₄, rfl, -, hs⟩ := (stalls_after stallsAfter_scan).mp hs
    split at hs
    · refine absurd hs (StallsAfter.not_stalls (stallsAfter_bind (stallsAfter_tell _) fun now => ?_))
      exact stallsAfter_bind (stallsAfter_report _ _) fun _ => trivial
    simp only [moves_append] at hm
    obtain ⟨hm₁, hm₃, hm⟩ := hm
    obtain ⟨now, h', hnow, hearly, hm, hs⟩ := stalls_roundEnd hm hs
    have hle : t ≤ now := Nat.le_trans hm₁.le (Nat.le_trans hm₃.le hnow)
    have hstart : start ≤ now + s.interval := Nat.le_trans ht (Nat.le_trans hle (Nat.le_add_right now _))
    exact .inr (rounds_lt ht hle hearly (ih hstart hm hs))

/-- A search with a pause comes to its end. -/
theorem ends_run (hinterval : 0 < s.interval) : s.run.Ends := by
  intro t h hm hs
  obtain ⟨start, h₁, h₂, rfl, hstart, hrun⟩ := (stalls_after (stallsAfter_tell _)).mp hs
  obtain rfl := finishes_tell.mp hstart
  obtain ⟨u, h₃, h₄, rfl, hlog, hloop⟩ := (stalls_after (stallsAfter_report _ _)).mp hrun
  obtain rfl := finishes_report.mp hlog
  exact not_stalls_rounds hinterval (stalls_loop (Nat.le_refl start)
    (moves_append.mp (moves_append.mp hm).2).2 hloop)

end Search

end Reflash
