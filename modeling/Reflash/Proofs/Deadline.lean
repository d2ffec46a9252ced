import Reflash.Proofs.Clock

/-!
# Reflash.Proofs.Deadline — loops with a deadline, on an exact clock

A wait and a search are the same loop: a turn, which may decide the result; a look at the clock, which ends the
loop once its time is up; and a pause.  `Retry` is this loop with its turn as a parameter.  On an `ExactClock`
only pauses and calls to cameras take time, and a pause takes exactly its length.  There the turns of the loop
can be numbered, `r.before env s k` being the world in which turn `k` begins, and the loop ends with the first
turn that decides or comes too late (`Retry.run_of_decided`, `Retry.run_of_late`).
-/

namespace Reflash

open Program

/-! ## Calls that are answered -/

section Answered

variable {σ α : Type} {env : Environment (cameras.sum host) σ} {s : σ}

theorem run_ask_bind {c : CameraCall} {a : c.Answer} (ha : (env (.inl c) s).1 = some a)
    (next : c.Answer → Action α) :
    Program.run env ((ask c).bind next) s = (next a).run env (env (.inl c) s).2 :=
  run_call (I := cameras.sum host) ha next

theorem run_tell_bind {c : HostCall} {a : c.Answer} (ha : (env (.inr c) s).1 = some a)
    (next : c.Answer → Action α) :
    Program.run env ((tell c).bind next) s = (next a).run env (env (.inr c) s).2 :=
  run_call (I := cameras.sum host) ha next

theorem run_tell {c : HostCall} {a : c.Answer} (ha : (env (.inr c) s).1 = some a) :
    Program.run env (tell c) s = (.finished a, (env (.inr c) s).2) := by
  rw [← bind_done (tell c), run_tell_bind ha]
  rfl

theorem history_ask_bind {c : CameraCall} {a : c.Answer} (ha : (env (.inl c) s).1 = some a)
    (next : c.Answer → Action α) :
    Program.history env ((ask c).bind next) s = .asked c (some a) :: (next a).history env (env (.inl c) s).2 :=
  history_call (I := cameras.sum host) ha next

theorem history_tell_bind {c : HostCall} {a : c.Answer} (ha : (env (.inr c) s).1 = some a)
    (next : c.Answer → Action α) :
    Program.history env ((tell c).bind next) s = .told c (some a) :: (next a).history env (env (.inr c) s).2 :=
  history_call (I := cameras.sum host) ha next

variable {β : Type} {p : Action α} {a : α} {s' : σ}

/-- A sequence whose first part finishes. -/
theorem run_bind_of_finished (hp : p.run env s = (.finished a, s')) (f : α → Action β) :
    (p.bind f).run env s = (f a).run env s' := by
  rw [run_bind, hp]

theorem history_bind_of_finished (hp : p.run env s = (.finished a, s')) (f : α → Action β) :
    (p.bind f).history env s = p.history env s ++ (f a).history env s' := by
  rw [history_bind, hp]

end Answered

/-! ## Exact clocks -/

/-- Whether a call takes time: calls to cameras and pauses do. -/
def takesTime : (cameras.sum host).Call → Bool
  | .inl _ | .inr (.sleep _) => true
  | .inr _ => false

/-- The calls that take time. -/
def steps (h : History) : History := h.filter fun e => takesTime e.call

/-- A pause. -/
abbrev Event.paused (d : Nanos) : Event (cameras.sum host) := .told (.sleep d) (some ())

section Steps

variable {h h₁ h₂ : History}

@[simp] theorem steps_nil : steps [] = [] := rfl

@[simp] theorem steps_append : steps (h₁ ++ h₂) = steps h₁ ++ steps h₂ := List.filter_append ..

@[simp] theorem steps_asked (c : CameraCall) (a? : Option c.Answer) :
    steps (.asked c a? :: h) = .asked c a? :: steps h := rfl

@[simp] theorem steps_now (a? : Option Nanos) : steps (.told .now a? :: h) = steps h := rfl

@[simp] theorem steps_log (r : LogRecord) (a? : Option Unit) : steps (.told (.log r) a? :: h) = steps h := rfl

/-- Diagnostic notes take no time. -/
theorem steps_of_within {kind : CallKind} (hh : Within [.log, kind] h) : ∀ e ∈ steps h, kindOf e.call = kind := by
  intro e he
  obtain ⟨hmem, htime⟩ := List.mem_filter.mp he
  have hkind := hh e hmem
  simp only [List.mem_cons, List.not_mem_nil, or_false] at hkind
  refine hkind.resolve_left fun hlog => ?_
  rcases e with ⟨c | c, a?⟩
  · cases c <;> cases hlog
  · cases c with
    | sleep d => cases hlog
    | _ => cases htime

theorem steps_eq_nil (hh : ∀ e ∈ h, takesTime e.call = false) : steps h = [] :=
  List.filter_eq_nil_iff.mpr fun e he => by rw [hh e he]; exact Bool.false_ne_true

end Steps

/-- A world whose clock shows the time: a pause takes exactly its length, a call to a camera takes any time, and
nothing else takes time. -/
structure ExactClock {σ : Type} (env : Environment (cameras.sum host) σ) where
  /-- The time, in nanoseconds. -/
  time : σ → Nat
  now_eq : ∀ s, (env (.inr .now) s).1 = some (time s)
  sleep_eq : ∀ d s, time (env (.inr (.sleep d)) s).2 = time s + d
  instant_eq : ∀ c s, takesTime c = false → time (env c s).2 = time s
  camera_le : ∀ c s, time s ≤ time (env (.inl c) s).2

namespace ExactClock

variable {σ α : Type} {env : Environment (cameras.sum host) σ} (clock : ExactClock env)

theorem le_time (c : (cameras.sum host).Call) (s : σ) : clock.time s ≤ clock.time (env c s).2 := by
  cases hc : takesTime c with
  | false => exact Nat.le_of_eq (clock.instant_eq c s hc).symm
  | true =>
    rcases c with c | c
    · exact clock.camera_le c s
    cases c with
    | sleep d =>
      rw [clock.sleep_eq]
      exact Nat.le_add_right _ d
    | _ => cases hc

/-- The clock never goes back. -/
theorem le_time_run (p : Action α) (s : σ) : clock.time s ≤ clock.time (p.run env s).2 := by
  induction p generalizing s with
  | done a => exact Nat.le_refl _
  | stalled => exact Nat.le_refl _
  | call c next ih =>
    have hcall := clock.le_time c s
    rw [run]
    rcases henv : env c s with ⟨_ | answer, s'⟩
    · rwa [henv] at hcall
    · rw [henv] at hcall
      exact Nat.le_trans hcall (ih answer s')

/-- A program without pauses that calls no camera takes no time. -/
theorem time_run {p : Action α} (hp : p.Only fun c => takesTime c = false) (s : σ) :
    clock.time (p.run env s).2 = clock.time s := by
  induction p generalizing s with
  | done a => rfl
  | stalled => rfl
  | call c next ih =>
    have hcall := clock.instant_eq c s hp.1
    rw [run]
    rcases henv : env c s with ⟨_ | answer, s'⟩
    · rwa [henv] at hcall
    · rw [henv] at hcall
      exact (ih answer (hp.2 answer) s').trans hcall

end ExactClock

namespace Environment

variable {σ : Type} {env : Environment (cameras.sum host) σ}

theorem Answers.sleep (henv : env.Answers) (d : Nanos) (s : σ) : (env (.inr (.sleep d)) s).1 = some () := by
  cases hanswer : (env (.inr (.sleep d)) s).1 with
  | none => exact absurd hanswer (henv _ s)
  | some u => rfl

theorem Answers.log (henv : env.Answers) (r : LogRecord) (s : σ) : (env (.inr (.log r)) s).1 = some () := by
  cases hanswer : (env (.inr (.log r)) s).1 with
  | none => exact absurd hanswer (henv _ s)
  | some u => rfl

/-- Nobody asks for a stop. -/
def NoStop (env : Environment (cameras.sum host) σ) : Prop := ∀ s, (env (.inr .stopRequested) s).1 ≠ some true

theorem Answers.look (henv : env.Answers) (hcalm : env.NoStop) (s : σ) :
    (env (.inr .stopRequested) s).1 = some false := by
  cases hanswer : (env (.inr .stopRequested) s).1 with
  | none => exact absurd hanswer (henv _ s)
  | some stop =>
    cases stop with
    | true => exact absurd hanswer (hcalm s)
    | false => rfl

/-- A world with a clock of its own, on which a pause takes its length and a call to a camera takes `cost`. -/
def timed (env : Environment (cameras.sum host) σ) (cost : CameraCall → σ → Nanos) :
    Environment (cameras.sum host) (σ × Nanos)
  | .inr .now, s => (some s.2, s)
  | .inr (.sleep d), s => (some (), s.1, s.2 + d)
  | .inr c, s => ((env (.inr c) s.1).1, (env (.inr c) s.1).2, s.2)
  | .inl c, s => ((env (.inl c) s.1).1, (env (.inl c) s.1).2, s.2 + cost c s.1)

def timedClock (env : Environment (cameras.sum host) σ) (cost : CameraCall → σ → Nanos) :
    ExactClock (env.timed cost) where
  time s := s.2
  now_eq _ := rfl
  sleep_eq _ _ := rfl
  instant_eq c s hc := by
    rcases c with c | c
    · cases hc
    · cases c with
      | sleep d => cases hc
      | _ => rfl
  camera_le c s := Nat.le_add_right _ _

theorem Answers.timed (henv : env.Answers) (cost : CameraCall → σ → Nanos) : (env.timed cost).Answers := by
  intro c s
  rcases c with c | c
  · exact henv (.inl c) s.1
  cases c with
  | now => exact nofun
  | sleep d => exact nofun
  | _ => exact henv (.inr _) s.1

end Environment

/-! ## The loop -/

theorem roundsWithin_pos (timeout pause : Nat) : 0 < roundsWithin timeout pause := by
  rw [roundsWithin]
  exact Nat.add_pos_left (Nat.succ_pos _) spareRounds

/-- A loop with a deadline: what each turn sees decides the result or leaves it open, and a note is carried
along for the result of a loop whose time is up. -/
structure Retry (α γ ρ : Type) where
  turn : Action α
  verdict? : α → Option ρ
  carry : γ → α → γ
  late : γ → ρ
  /-- The time of the loop, in nanoseconds. -/
  timeout : Nat
  /-- The length of a pause. -/
  interval : Nat

namespace Retry

variable {α γ ρ σ : Type} (r : Retry α γ ρ)

/-- The turns of a loop that began at `start`. -/
def loop (start : Nat) : Nat → γ → Action ρ
  | 0, _ => .stalled
  | rounds + 1, note => r.turn.bind fun seen =>
    match r.verdict? seen with
    | some result => .done result
    | none => (tell .now).bind fun now : Nat =>
      if r.timeout ≤ now - start then .done (r.late (r.carry note seen))
      else (tell (.sleep r.interval)).bind fun _ => loop start rounds (r.carry note seen)

section World

variable (env : Environment (cameras.sum host) σ) (s : σ)

/-- The world in which turn `k` begins, if no turn before it ends the loop. -/
def before : Nat → σ
  | 0 => s
  | k + 1 => (env (.inr (.sleep r.interval)) (env (.inr .now) (r.turn.run env (before k)).2).2).2

/-- The world in which turn `k` ends. -/
def after (k : Nat) : σ := (r.turn.run env (r.before env s k)).2

/-- The note after the turns before `k`, where turn `j` sees `seen j`. -/
def noted (note : γ) (seen : Nat → α) : Nat → γ
  | 0 => note
  | k + 1 => r.carry (noted note seen k) (seen k)

variable {env} (clock : ExactClock env) (start : Nat) (seen : Nat → α)

/-- Turn `k` leaves the loop open, and ends before the deadline. -/
def Goes (k : Nat) : Prop := r.verdict? (seen k) = none ∧ clock.time (r.after env s k) - start < r.timeout

/-- The calls of the first `k` turns and of the pauses after them. -/
def passed (k : Nat) : History :=
  (List.range k).flatMap fun j => r.turn.history env (r.before env s j) ++
    [.told .now (some (clock.time (r.after env s j))), .paused r.interval]

theorem steps_passed (k : Nat) : steps (r.passed s clock k) =
    (List.range k).flatMap fun j => steps (r.turn.history env (r.before env s j)) ++ [.paused r.interval] := by
  induction k with
  | zero => rfl
  | succ k ih =>
    have hpassed : r.passed s clock (k + 1) = r.passed s clock k ++ (r.turn.history env (r.before env s k) ++
        [.told .now (some (clock.time (r.after env s k))), .paused r.interval]) := by
      rw [passed, passed, List.range_succ, List.flatMap_append, List.flatMap_singleton]
    rw [hpassed, steps_append, ih, List.range_succ, List.flatMap_append, List.flatMap_singleton, steps_append]
    rfl

end World

section Run

variable {env : Environment (cameras.sum host) σ} {s : σ} {start : Nat} (rounds : Nat) {k : Nat}
  (note : γ) {seen : Nat → α} (clock : ExactClock env)
  (hseen : ∀ k, (r.turn.run env (r.before env s k)).1 = .finished (seen k))

include hseen

theorem run_turn (k : Nat) : r.turn.run env (r.before env s k) = (.finished (seen k), r.after env s k) :=
  Prod.ext (hseen k) rfl

/-- A turn that decides ends the loop. -/
theorem run_of_verdict {result : ρ} (hk : r.verdict? (seen k) = some result) :
    (r.loop start (rounds + 1) note).run env (r.before env s k) = (.finished result, r.after env s k) ∧
      (r.loop start (rounds + 1) note).history env (r.before env s k) = r.turn.history env (r.before env s k) := by
  rw [loop, run_bind_of_finished (r.run_turn hseen k), history_bind_of_finished (r.run_turn hseen k)]
  simp [hk, run, history]

include clock

/-- A turn that leaves the loop open ends it nevertheless where it comes too late. -/
theorem run_of_late (hk : r.verdict? (seen k) = none) (hlate : r.timeout ≤ clock.time (r.after env s k) - start) :
    (r.loop start (rounds + 1) note).run env (r.before env s k) =
        (.finished (r.late (r.carry note (seen k))), (env (.inr .now) (r.after env s k)).2) ∧
      (r.loop start (rounds + 1) note).history env (r.before env s k) =
        r.turn.history env (r.before env s k) ++ [.told .now (some (clock.time (r.after env s k)))] := by
  rw [loop, run_bind_of_finished (r.run_turn hseen k), history_bind_of_finished (r.run_turn hseen k)]
  simp only [hk, run_tell_bind (clock.now_eq _), history_tell_bind (clock.now_eq _), hlate, if_true, run, history]
  exact ⟨trivial, trivial⟩

variable (henv : env.Answers)
include henv

/-- A turn that goes on is followed by a pause and the next turn. -/
theorem run_of_goes (hk : r.Goes s clock start seen k) :
    (r.loop start (rounds + 1) note).run env (r.before env s k) =
        (r.loop start rounds (r.carry note (seen k))).run env (r.before env s (k + 1)) ∧
      (r.loop start (rounds + 1) note).history env (r.before env s k) =
        r.turn.history env (r.before env s k) ++ [.told .now (some (clock.time (r.after env s k))),
          .paused r.interval] ++
        (r.loop start rounds (r.carry note (seen k))).history env (r.before env s (k + 1)) := by
  obtain ⟨hopen, hearly⟩ := hk
  rw [loop, run_bind_of_finished (r.run_turn hseen k), history_bind_of_finished (r.run_turn hseen k)]
  simp only [hopen, run_tell_bind (clock.now_eq _), history_tell_bind (clock.now_eq _),
    Nat.not_le_of_lt hearly, if_false, run_tell_bind (henv.sleep _ _), history_tell_bind (henv.sleep _ _)]
  exact ⟨rfl, by simp; rfl⟩

/-- The loop after its first turns, all of which went on. -/
theorem run_of_gone (hgo : ∀ j < k, r.Goes s clock start seen j) :
    (r.loop start (k + rounds) note).run env s =
        (r.loop start rounds (r.noted note seen k)).run env (r.before env s k) ∧
      (r.loop start (k + rounds) note).history env s =
        r.passed s clock k ++ (r.loop start rounds (r.noted note seen k)).history env (r.before env s k) := by
  induction k generalizing rounds with
  | zero =>
    rw [Nat.zero_add]
    exact ⟨rfl, rfl⟩
  | succ k ih =>
    obtain ⟨hrun, hhistory⟩ := ih (rounds + 1) fun j hj => hgo j (Nat.lt_succ_of_lt hj)
    obtain ⟨hturn, hcalls⟩ := r.run_of_goes rounds (r.noted note seen k) clock hseen henv
      (hgo k (Nat.lt_succ_self k))
    rw [Nat.succ_add_eq_add_succ, hrun, hhistory, hturn, hcalls, passed, passed, List.range_succ,
      List.flatMap_append, List.flatMap_singleton, ← List.append_assoc]
    exact ⟨rfl, rfl⟩

/-- The first turn that does not go on ends the loop if it decides the result. -/
theorem run_of_decided {result : ρ} (hk : k < rounds) (hgo : ∀ j < k, r.Goes s clock start seen j)
    (hverdict : r.verdict? (seen k) = some result) :
    (r.loop start rounds note).run env s = (.finished result, r.after env s k) ∧
      (r.loop start rounds note).history env s = r.passed s clock k ++ r.turn.history env (r.before env s k) := by
  obtain ⟨left, rfl⟩ := Nat.exists_eq_add_of_lt hk
  obtain ⟨hrun, hhistory⟩ := r.run_of_gone (left + 1) note clock hseen henv hgo
  obtain ⟨hturn, hcalls⟩ := r.run_of_verdict left (r.noted note seen k) hseen hverdict
  rw [Nat.add_assoc, hrun, hhistory, hturn, hcalls]
  exact ⟨rfl, rfl⟩

/-- It ends the loop with the note if it decides nothing and comes too late. -/
theorem run_of_overdue (hk : k < rounds) (hgo : ∀ j < k, r.Goes s clock start seen j)
    (hverdict : r.verdict? (seen k) = none) (hlate : r.timeout ≤ clock.time (r.after env s k) - start) :
    (r.loop start rounds note).run env s =
        (.finished (r.late (r.noted note seen (k + 1))), (env (.inr .now) (r.after env s k)).2) ∧
      (r.loop start rounds note).history env s = r.passed s clock k ++ (r.turn.history env (r.before env s k) ++
        [.told .now (some (clock.time (r.after env s k)))]) := by
  obtain ⟨left, rfl⟩ := Nat.exists_eq_add_of_lt hk
  obtain ⟨hrun, hhistory⟩ := r.run_of_gone (left + 1) note clock hseen henv hgo
  obtain ⟨hturn, hcalls⟩ := r.run_of_late left (r.noted note seen k) clock hseen hverdict hlate
  rw [Nat.add_assoc, hrun, hhistory, hturn, hcalls]
  exact ⟨rfl, rfl⟩

/-- A loop whose turns all go on is followed no further. -/
theorem run_of_all_gone (hgo : ∀ j < rounds, r.Goes s clock start seen j) :
    (r.loop start rounds note).run env s = (.stalled, r.before env s rounds) ∧
      (r.loop start rounds note).history env s = r.passed s clock rounds := by
  obtain ⟨hrun, hhistory⟩ := r.run_of_gone 0 note clock hseen henv hgo
  rw [Nat.add_zero] at hrun hhistory
  rw [hrun, hhistory]
  exact ⟨rfl, List.append_nil _⟩

omit hseen henv in
/-- There is a first turn that does not go on, or none at all. -/
theorem exists_last : (∀ j < rounds, r.Goes s clock start seen j) ∨
    ∃ k < rounds, (∀ j < k, r.Goes s clock start seen j) ∧ ((∃ result, r.verdict? (seen k) = some result) ∨
      r.verdict? (seen k) = none ∧ r.timeout ≤ clock.time (r.after env s k) - start) := by
  induction rounds with
  | zero => exact .inl nofun
  | succ rounds ih =>
    rcases ih with hall | ⟨k, hk, hgo, hend⟩
    · cases hverdict : r.verdict? (seen rounds) with
      | some result => exact .inr ⟨rounds, Nat.lt_succ_self rounds, hall, .inl ⟨result, hverdict⟩⟩
      | none =>
        by_cases hlate : r.timeout ≤ clock.time (r.after env s rounds) - start
        · exact .inr ⟨rounds, Nat.lt_succ_self rounds, hall, .inr ⟨hverdict, hlate⟩⟩
        · refine .inl fun j hj => ?_
          rcases Nat.lt_succ_iff_lt_or_eq.mp hj with hj | rfl
          · exact hall j hj
          · exact ⟨hverdict, Nat.lt_of_not_le hlate⟩
    · exact .inr ⟨k, Nat.lt_succ_of_lt hk, hgo, hend⟩

end Run

/-! ## The time of the turns -/

section Time

variable {env : Environment (cameras.sum host) σ} {s : σ} {k : Nat} {seen : Nat → α} (clock : ExactClock env)

theorem time_before_succ (k : Nat) :
    clock.time (r.before env s (k + 1)) = clock.time (r.after env s k) + r.interval := by
  have hnow : clock.time (env (.inr .now) (r.after env s k)).2 = clock.time (r.after env s k) :=
    clock.instant_eq (.inr .now) _ rfl
  rw [before, clock.sleep_eq, ← hnow]
  rfl

theorem time_before_le_after (k : Nat) : clock.time (r.before env s k) ≤ clock.time (r.after env s k) :=
  clock.le_time_run _ _

/-- As many pauses as turns have passed. -/
theorem mul_le_time (k : Nat) : clock.time s + k * r.interval ≤ clock.time (r.before env s k) := by
  induction k with
  | zero => exact Nat.le_of_eq (by rw [Nat.zero_mul]; rfl)
  | succ k ih =>
    have hturn := r.time_before_le_after (s := s) clock k
    rw [r.time_before_succ, Nat.succ_mul]
    omega

/-- A turn begins at most a pause after the deadline. -/
theorem time_before_le (hgo : ∀ j < k, r.Goes s clock (clock.time s) seen j) :
    clock.time (r.before env s k) - clock.time s ≤ r.timeout + r.interval := by
  cases k with
  | zero => exact Nat.le_trans (Nat.le_of_eq (Nat.sub_self _)) (Nat.zero_le _)
  | succ k =>
    have hearly := (hgo k (Nat.lt_succ_self k)).2
    rw [r.time_before_succ]
    omega

/-- With a pause, fewer turns go on than are followed. -/
theorem lt_rounds_of_gone (hpause : 0 < r.interval) (hgo : ∀ j < k, r.Goes s clock (clock.time s) seen j) :
    k < roundsWithin r.timeout r.interval := by
  by_contra hnot
  have hrounds := lt_rounds r.timeout hpause
  cases k with
  | zero =>
    have hzero : roundsWithin r.timeout r.interval = 0 := by omega
    rw [hzero, Nat.zero_sub, Nat.zero_mul] at hrounds
    exact Nat.not_lt_zero _ hrounds
  | succ k =>
    have hearly := (hgo k (Nat.lt_succ_self k)).2
    have htime := r.mul_le_time (s := s) clock k
    have hturn := r.time_before_le_after (s := s) clock k
    have hmul : (roundsWithin r.timeout r.interval - 1) * r.interval ≤ k * r.interval :=
      Nat.mul_le_mul_right _ (by omega)
    omega

end Time

end Retry

end Reflash
