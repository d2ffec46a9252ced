import Mathlib.Data.List.Basic
import Reflash.Proofs.Deadline

/-!
# Reflash.Proofs.BoundedSearch — a search finds its unit if it shows up in time

On an exact clock the scans of a search can be numbered before it is known which one ends it.  `s.interviews`
asks the cameras of a listing one after the other, as a scan does that matches none of them; the scan returns
the first of them that gave the identity (`Search.run_scan`).  A search is a loop with a deadline
(`Search.loop_eq`), so it ends with the first scan that has a match or comes too late.
-/

namespace Reflash

open Program

namespace Search

/-! ## One scan -/

/-- Asks a camera for its identity, and notes where it gives none for a failure. -/
def interview (c : Camera) : Action (Except LinkError (Option String)) :=
  (identityOf c).bind fun reply =>
    match reply with
    | .ok identity? => .done (.ok identity?)
    | .error e => (report .warn ("skipping " ++ c.name ++ ": failed to read serial: " ++ e.message)).bind fun _ =>
      .done (.error e)

theorem pick_cons (s : Search) (c : Camera) (rest : List Camera) :
    s.pick (c :: rest) = if s.wanted.accepts c.kind then (interview c).bind fun reply =>
      if reply = .ok (some s.identity) then .done (some c) else s.pick rest
    else s.pick rest := by
  rw [pick]
  cases s.wanted.accepts c.kind with
  | false => rfl
  | true =>
    rw [interview, if_pos rfl, bind_assoc]
    show (identityOf c).bind _ = (identityOf c).bind _
    congr
    funext reply
    rcases reply with e | _ | identity
    · show (report _ _).bind _ = ((report _ _).bind _).bind _
      rw [bind_assoc]
      simp [Program.bind]
    · simp [Program.bind]
    · simp only [Program.bind, Except.ok.injEq, Option.some.injEq]
      rfl

section Scan

variable {s : Search} {P : (cameras.sum host).Call → Prop} {c : Camera}

theorem only_interview (hserial : P (.inl (.serial c))) (hsensors : P (.inl (.sensors c)))
    (hlog : ∀ r, P (.inr (.log r))) :
    (interview c).Only P := by
  refine only_bind (only_identityOf hserial hsensors) fun reply => ?_
  split
  · trivial
  · exact only_bind (only_report.mpr (hlog _)) fun _ => trivial

theorem stallsAfter_interview : (interview c).StallsAfter P := by
  refine stallsAfter_bind stallsAfter_identityOf fun reply => ?_
  split
  · trivial
  · exact stallsAfter_bind (stallsAfter_report _ _) fun _ => trivial

/-- Only cameras in the wanted mode are asked. -/
theorem only_pick_of (hask : ∀ c, s.wanted.accepts c.kind = true → P (.inl (.serial c)) ∧ P (.inl (.sensors c)))
    (hlog : ∀ r, P (.inr (.log r))) (listing : List Camera) : (s.pick listing).Only P := by
  induction listing with
  | nil => trivial
  | cons c rest ih =>
    rw [pick_cons]
    split
    · rename_i hmode
      refine only_bind (only_interview (hask c hmode).1 (hask c hmode).2 hlog) fun reply => ?_
      split
      · trivial
      · exact ih
    · exact ih

variable (s) {σ : Type} (env : Environment (cameras.sum host) σ)

/-- The cameras of a listing in the wanted mode, with the identities that they give when they are asked in turn. -/
def interviews : List Camera → σ → List (Camera × Except LinkError (Option String))
  | [], _ => []
  | c :: rest, x =>
    if s.wanted.accepts c.kind then
      match (interview c).run env x with
      | (.finished reply, x') => (c, reply) :: interviews rest x'
      | _ => []
    else interviews rest x

/-- The first camera that gave the identity. -/
def match? (candidates : List (Camera × Except LinkError (Option String))) : Option Camera :=
  (candidates.find? fun candidate => candidate.2 = .ok (some s.identity)).map Prod.fst

variable {env} (henv : env.Answers)
include henv

theorem run_interview (c : Camera) (x : σ) :
    ∃ reply, (interview c).run env x = (.finished reply, ((interview c).run env x).2) := by
  obtain ⟨reply, hreply, -⟩ := henv.finishes (stallsAfter_interview (c := c)) x
  exact ⟨reply, Prod.ext hreply rfl⟩

/-- Every camera in the wanted mode is a candidate, in the order of the listing. -/
theorem map_fst_interviews (listing : List Camera) (x : σ) :
    (s.interviews env listing x).map Prod.fst = listing.filter fun c => s.wanted.accepts c.kind := by
  induction listing generalizing x with
  | nil => rfl
  | cons c rest ih =>
    rw [interviews]
    split
    · rename_i hmode
      obtain ⟨reply, hreply⟩ := run_interview henv c x
      rw [hreply, List.filter_cons, if_pos hmode]
      exact congrArg (c :: ·) (ih _)
    · rename_i hmode
      rw [List.filter_cons, if_neg hmode]
      exact ih x

/-- A look through a listing gives the first match. -/
theorem run_pick (listing : List Camera) (x : σ) :
    ((s.pick listing).run env x).1 = .finished (s.match? (s.interviews env listing x)) := by
  induction listing generalizing x with
  | nil => rfl
  | cons c rest ih =>
    rw [pick_cons, interviews]
    split
    · obtain ⟨reply, hreply⟩ := run_interview henv c x
      rw [run_bind_of_finished hreply, hreply]
      by_cases hid : reply = .ok (some s.identity)
      · simp [match?, hid, Program.run]
      · rw [if_neg hid, ih]
        simp [match?, hid]
    · exact ih x

end Scan

/-! ## The loop -/

variable (s : Search)

/-- A round up to its end or its look at the clock; a request to stop comes before it. -/
def turn (start : Nanos) : Action (Option (Option Camera)) :=
  (shouldStop s.heedsStop).bind fun stop =>
    if stop then .done none
    else s.scan.bind fun found? =>
      match found? with
      | some camera => (tell .now).bind fun now =>
        (report .debug ("found " ++ camera.name ++ " (" ++ camera.kind.text ++ ") after " ++
          Nanos.text (now - start))).bind fun _ => .done (some (some camera))
      | none => .done (some none)

/-- The search as a loop with a deadline. -/
def retry (start : Nanos) : Retry (Option (Option Camera)) Unit (Except SearchError Camera) where
  turn := s.turn start
  verdict?
    | none => some (.error .stopped)
    | some found? => found?.map .ok
  carry _ _ := ()
  late _ := .error (.timedOut s.identity s.timeout)
  timeout := s.timeout
  interval := s.interval

theorem loop_eq (start : Nanos) (rounds : Nat) : s.loop start rounds = (s.retry start).loop start rounds () := by
  induction rounds with
  | zero => rfl
  | succ rounds ih =>
    show (shouldStop s.heedsStop).bind _ = ((shouldStop s.heedsStop).bind _).bind _
    rw [bind_assoc]
    congr
    funext stop
    cases stop with
    | true => rfl
    | false =>
      show s.scan.bind _ = (s.scan.bind _).bind _
      rw [bind_assoc]
      congr
      funext found?
      cases found? with
      | some camera =>
        show (tell .now).bind _ = ((tell .now).bind _).bind _
        rw [bind_assoc]
        rfl
      | none =>
        simp only [Program.bind, retry, bind_eq, pure_eq, ih]
        rfl

/-- The note with which a search begins. -/
def opening : LogRecord :=
  ⟨.debug, "waiting up to " ++ s.timeout.text ++ " for " ++ s.wanted.name ++ " device " ++ s.identity, false⟩

/-- A search that is followed for some rounds. -/
def runFor (rounds : Nat) : Action (Except SearchError Camera) :=
  (tell .now).bind fun start => (tell (.log s.opening)).bind fun _ => s.loop start rounds

theorem run_eq_runFor : s.run = s.runFor (roundsWithin s.timeout s.interval) := rfl

/-! ## Its scans -/

section World

variable {σ : Type} (env : Environment (cameras.sum host) σ)

/-- What is listed; a listing that fails lists nothing. -/
def listed (x : σ) : List Camera :=
  match (env (.inl .list) x).1 with
  | some (.ok listing) => listing
  | _ => []

/-- The cameras that a scan asks unless it finds the unit before, with the identities they give. -/
def candidates (x : σ) : List (Camera × Except LinkError (Option String)) :=
  s.interviews env (listed env x) (env (.inl .list) x).2

/-- The world in which the first round begins. -/
def begun (x : σ) : σ := (env (.inr (.log s.opening)) (env (.inr .now) x).2).2

variable {env} (clock : ExactClock env) (x : σ)

/-- The world in which round `k` begins, if no round before it ends the search. -/
def top (k : Nat) : σ := (s.retry (clock.time x)).before env (s.begun env x) k

/-- The world in which scan `k` begins. -/
def looking (k : Nat) : σ := ((shouldStop s.heedsStop).run env (s.top clock x k)).2

/-- What scan `k` finds. -/
def found? (k : Nat) : Option Camera := s.match? (s.candidates env (s.looking clock x k))

/-- The world in which scan `k` ends. -/
def scanned (k : Nat) : σ := (s.scan.run env (s.looking clock x k)).2

/-- The calls to cameras that scan `k` makes. -/
def scanCalls (k : Nat) : History := steps (s.scan.history env (s.looking clock x k))

/-- The scans before `k`, each with the pause after it. -/
def paced (k : Nat) : History := (List.range k).flatMap fun j => s.scanCalls clock x j ++ [.paused s.interval]

/-- How long after the start of the search scan `k` ends. -/
def ended (k : Nat) : Nat := clock.time (s.scanned clock x k) - clock.time x

/-- How long scan `k` takes. -/
def cost (k : Nat) : Nat := clock.time (s.scanned clock x k) - clock.time (s.looking clock x k)

/-- Scan `k` does not end the search: it has no match, and ends before the deadline. -/
def Passes (k : Nat) : Prop := s.found? clock x k = none ∧ s.ended clock x k < s.timeout

end World

section Round

variable {σ : Type} {env : Environment (cameras.sum host) σ} (henv : env.Answers) (hcalm : env.NoStop)
  (clock : ExactClock env) {x : σ} {k rounds : Nat}

include henv

/-- A scan returns the first match. -/
theorem run_scan (x : σ) : (s.scan.run env x).1 = .finished (s.match? (s.candidates env x)) := by
  cases hlist : (env (.inl .list) x).1 with
  | none => exact absurd hlist (henv _ x)
  | some reply =>
    rw [scan, bind_eq, run_ask_bind hlist, candidates, listed, hlist]
    cases reply with
    | ok listing => exact s.run_pick henv listing _
    | error e =>
      obtain ⟨u, hnote, -⟩ := henv.finishes (stallsAfter_report .trace ("device list unavailable: " ++ e.message))
        (env (.inl .list) x).2
      exact congrArg Prod.fst (run_bind_of_finished (Prod.ext hnote rfl) _)

/-- A scan lists the cameras once, and then asks some of them. -/
theorem steps_scan (x : σ) : ∃ reply rest, steps (s.scan.history env x) = .asked .list (some reply) :: rest ∧
    ∀ e ∈ rest, kindOf e.call = .identity := by
  cases hlist : (env (.inl .list) x).1 with
  | none => exact absurd hlist (henv _ x)
  | some reply =>
    rw [scan, bind_eq, history_ask_bind hlist, steps_asked]
    refine ⟨reply, _, rfl, steps_of_within (Only.within ?_ (begins_history _ _ _))⟩
    split
    · exact only_pick _
    · exact only_bind (only_report.mpr (by simp)) fun _ => trivial

include hcalm

theorem run_look (k : Nat) :
    (shouldStop s.heedsStop).run env (s.top clock x k) = (.finished false, s.looking clock x k) := by
  refine Prod.ext ?_ rfl
  unfold shouldStop
  split
  · rw [run_tell (henv.look hcalm _)]
  · rfl

omit henv hcalm in
theorem steps_look (y : σ) : steps ((shouldStop s.heedsStop).history env y) = [] :=
  steps_eq_nil ((only_shouldStop (P := fun c => takesTime c = false) rfl).calls (begins_history _ _ _))

/-- A round is its scan; whatever else it does takes no time. -/
theorem run_turn (k : Nat) :
    ((s.turn (clock.time x)).run env (s.top clock x k)).1 = .finished (some (s.found? clock x k)) ∧
      clock.time ((s.turn (clock.time x)).run env (s.top clock x k)).2 = clock.time (s.scanned clock x k) ∧
      steps ((s.turn (clock.time x)).history env (s.top clock x k)) = s.scanCalls clock x k := by
  have hlook := s.run_look henv hcalm clock (x := x) k
  have hscan : s.scan.run env (s.looking clock x k) = (.finished (s.found? clock x k), s.scanned clock x k) :=
    Prod.ext (s.run_scan henv _) rfl
  rw [turn, run_bind_of_finished hlook, history_bind_of_finished hlook, steps_append, steps_look, List.nil_append,
    if_neg Bool.false_ne_true, run_bind_of_finished hscan, history_bind_of_finished hscan, steps_append]
  cases s.found? clock x k with
  | none => exact ⟨rfl, rfl, List.append_nil _⟩
  | some camera =>
    have hnote : ((tell .now).bind fun now : Nat =>
        (report .debug ("found " ++ camera.name ++ " (" ++ camera.kind.text ++ ") after " ++
          Nanos.text (now - clock.time x))).bind fun _ => Program.done (some (some camera))).Only
        fun c => takesTime c = false :=
      only_bind (only_tell.mpr rfl) fun now => only_bind (only_report.mpr rfl) fun _ => trivial
    refine ⟨?_, clock.time_run hnote _, ?_⟩
    · rw [run_tell_bind (clock.now_eq _)]
      obtain ⟨u, hlog, -⟩ :=
        henv.finishes
          (stallsAfter_report .debug ("found " ++ camera.name ++ " (" ++ camera.kind.text ++ ") after " ++
            Nanos.text (clock.time (s.scanned clock x k) - clock.time x)))
          (env (.inr .now) (s.scanned clock x k)).2
      rw [run_bind_of_finished (Prod.ext hlog rfl)]
      rfl
    · have hnothing := steps_eq_nil (hnote.calls (begins_history env _ (s.scanned clock x k)))
      exact (congrArg _ hnothing).trans (List.append_nil _)

/-! ## How it ends -/

theorem finished_turn (k : Nat) :
    ((s.retry (clock.time x)).turn.run env ((s.retry (clock.time x)).before env (s.begun env x) k)).1 =
      .finished (some (s.found? clock x k)) :=
  (s.run_turn henv hcalm clock k).1

theorem time_after (k : Nat) :
    clock.time ((s.retry (clock.time x)).after env (s.begun env x) k) = clock.time (s.scanned clock x k) :=
  (s.run_turn henv hcalm clock k).2.1

theorem goes_iff (k : Nat) :
    (s.retry (clock.time x)).Goes (s.begun env x) clock (clock.time x) (fun k => some (s.found? clock x k)) k ↔
      s.Passes clock x k := by
  rw [Retry.Goes, Passes, s.time_after henv hcalm clock]
  show (s.found? clock x k).map Except.ok = none ∧ _ ↔ _
  rw [Option.map_eq_none_iff]
  rfl

theorem steps_passed (k : Nat) :
    steps ((s.retry (clock.time x)).passed (s.begun env x) clock k) = s.paced clock x k := by
  rw [Retry.steps_passed, paced]
  refine List.flatMap_congr fun j hj => ?_
  exact congrArg (· ++ _) (s.run_turn henv hcalm clock j).2.2

omit henv hcalm in
theorem time_start : clock.time (s.begun env x) = clock.time x := by
  rw [begun, clock.instant_eq (.inr (.log s.opening)) _ rfl, clock.instant_eq (.inr .now) x rfl]

omit hcalm in
theorem run_runFor (rounds : Nat) :
    (s.runFor rounds).run env x =
      ((s.retry (clock.time x)).loop (clock.time x) rounds ()).run env (s.begun env x) ∧
      steps ((s.runFor rounds).history env x) =
        steps (((s.retry (clock.time x)).loop (clock.time x) rounds ()).history env (s.begun env x)) := by
  rw [runFor, run_tell_bind (clock.now_eq x), history_tell_bind (clock.now_eq x), steps_now,
    run_tell_bind (henv.log _ _), history_tell_bind (henv.log _ _), steps_log, loop_eq]
  exact ⟨rfl, rfl⟩

/-- The search ends with the first scan that has a match. -/
theorem run_of_found {camera : Camera} (hk : k < rounds) (hpass : ∀ j < k, s.Passes clock x j)
    (hfound : s.found? clock x k = some camera) :
    ((s.runFor rounds).run env x).1 = .finished (.ok camera) ∧
      clock.time ((s.runFor rounds).run env x).2 = clock.time (s.scanned clock x k) ∧
      steps ((s.runFor rounds).history env x) = s.paced clock x k ++ s.scanCalls clock x k := by
  obtain ⟨hrun, hhistory⟩ :=
    (s.retry (clock.time x)).run_of_decided rounds () clock (s.finished_turn henv hcalm clock) henv hk
      (fun j hj => (s.goes_iff henv hcalm clock j).mpr (hpass j hj))
      (show Option.map Except.ok _ = _ by rw [hfound]; rfl)
  obtain ⟨hrun', hhistory'⟩ := s.run_runFor henv clock (x := x) rounds
  rw [hrun', hrun, hhistory', hhistory, steps_append, s.steps_passed henv hcalm clock]
  exact ⟨rfl, s.time_after henv hcalm clock k, congrArg _ (s.run_turn henv hcalm clock k).2.2⟩

/-- It ends with the first scan that comes too late, if none before it has a match. -/
theorem run_of_overdue (hk : k < rounds) (hpass : ∀ j < k, s.Passes clock x j)
    (hmissed : s.found? clock x k = none) (hlate : s.timeout ≤ s.ended clock x k) :
    ((s.runFor rounds).run env x).1 = .finished (.error (.timedOut s.identity s.timeout)) ∧
      clock.time ((s.runFor rounds).run env x).2 = clock.time (s.scanned clock x k) ∧
      steps ((s.runFor rounds).history env x) = s.paced clock x k ++ s.scanCalls clock x k := by
  have hafter := s.time_after henv hcalm clock (x := x) k
  obtain ⟨hrun, hhistory⟩ :=
    (s.retry (clock.time x)).run_of_overdue rounds () clock (s.finished_turn henv hcalm clock) henv hk
      (fun j hj => (s.goes_iff henv hcalm clock j).mpr (hpass j hj))
      (show Option.map Except.ok _ = _ by rw [hmissed]; rfl) (by rw [hafter]; exact hlate)
  obtain ⟨hrun', hhistory'⟩ := s.run_runFor henv clock (x := x) rounds
  rw [hrun', hrun, hhistory', hhistory, steps_append, steps_append, s.steps_passed henv hcalm clock,
    steps_now, steps_nil, List.append_nil]
  exact ⟨rfl, (clock.instant_eq (.inr .now) _ rfl).trans hafter, congrArg _ (s.run_turn henv hcalm clock k).2.2⟩

/-- Some scan ends the search, by a match or by coming too late, or all of them pass. -/
theorem exists_end (rounds : Nat) : ∃ k, (∀ j < k, s.Passes clock x j) ∧
    (k = rounds ∧ ((s.runFor rounds).run env x).1 = .stalled ∧
        steps ((s.runFor rounds).history env x) = s.paced clock x k ∨
      k < rounds ∧ clock.time ((s.runFor rounds).run env x).2 = clock.time (s.scanned clock x k) ∧
        steps ((s.runFor rounds).history env x) = s.paced clock x k ++ s.scanCalls clock x k ∧
        ((∃ camera, s.found? clock x k = some camera ∧ ((s.runFor rounds).run env x).1 = .finished (.ok camera)) ∨
          s.found? clock x k = none ∧ s.timeout ≤ s.ended clock x k ∧
            ((s.runFor rounds).run env x).1 = .finished (.error (.timedOut s.identity s.timeout)))) := by
  have hlast : (∀ j < rounds, (s.retry (clock.time x)).Goes (s.begun env x) clock (clock.time x)
      (fun k => some (s.found? clock x k)) j) ∨ _ := (s.retry (clock.time x)).exists_last rounds clock
  rcases hlast with hall | ⟨k, hk, hgo, hend⟩
  · obtain ⟨hrun, hcalls⟩ :=
      (s.retry (clock.time x)).run_of_all_gone rounds () clock (s.finished_turn henv hcalm clock) henv hall
    obtain ⟨hrun', hcalls'⟩ := s.run_runFor henv clock (x := x) rounds
    refine ⟨rounds, fun j hj => (s.goes_iff henv hcalm clock j).mp (hall j hj), .inl ⟨rfl, ?_, ?_⟩⟩
    · rw [hrun', hrun]
    · rw [hcalls', hcalls, s.steps_passed henv hcalm clock]
  have hpass : ∀ j < k, s.Passes clock x j := fun j hj => (s.goes_iff henv hcalm clock j).mp (hgo j hj)
  rw [s.time_after henv hcalm clock] at hend
  refine ⟨k, hpass, .inr ⟨hk, ?_⟩⟩
  cases hfound : s.found? clock x k with
  | some camera =>
    obtain ⟨hrun, htime, hcalls⟩ := s.run_of_found henv hcalm clock hk hpass hfound
    exact ⟨htime, hcalls, .inl ⟨camera, rfl, hrun⟩⟩
  | none =>
    have hlate : s.timeout ≤ s.ended clock x k := by
      rcases hend with ⟨result, hresult⟩ | ⟨-, hlate⟩
      · rw [hfound] at hresult
        cases hresult
      · exact hlate
    obtain ⟨hrun, htime, hcalls⟩ := s.run_of_overdue henv hcalm clock hk hpass hfound hlate
    exact ⟨htime, hcalls, .inr ⟨rfl, hlate, hrun⟩⟩

/-- Where there is a pause, no more scans pass than are followed. -/
theorem lt_rounds_of_passes (hrounds : roundsWithin s.timeout s.interval ≤ rounds)
    (hpass : ∀ j < k, s.Passes clock x j) (hpause : s.interval = 0 → k < rounds) : k < rounds := by
  rcases Nat.eq_zero_or_pos s.interval with hzero | hpos
  · exact hpause hzero
  · refine Nat.lt_of_lt_of_le ?_ hrounds
    have hgo : ∀ j < k, (s.retry (clock.time x)).Goes (s.begun env x) clock (clock.time (s.begun env x))
        (fun k => some (s.found? clock x k)) j := by
      rw [s.time_start clock]
      exact fun j hj => (s.goes_iff henv hcalm clock j).mpr (hpass j hj)
    exact (s.retry (clock.time x)).lt_rounds_of_gone clock hpos hgo

/-- A scan ends at most a pause and its own time after the deadline. -/
theorem ended_le (hpass : ∀ j < k, s.Passes clock x j) :
    s.ended clock x k ≤ s.timeout + s.interval + s.cost clock x k := by
  have hgo : ∀ j < k, (s.retry (clock.time x)).Goes (s.begun env x) clock (clock.time (s.begun env x))
      (fun k => some (s.found? clock x k)) j := by
    rw [s.time_start clock]
    exact fun j hj => (s.goes_iff henv hcalm clock j).mpr (hpass j hj)
  have htop : clock.time (s.top clock x k) - clock.time (s.begun env x) ≤ s.timeout + s.interval :=
    (s.retry (clock.time x)).time_before_le clock hgo
  have hlook : clock.time (s.looking clock x k) = clock.time (s.top clock x k) :=
    clock.time_run (only_shouldStop rfl) _
  rw [s.time_start clock] at htop
  rw [ended, cost, hlook]
  omega

end Round

/-- An empty text is nobody's identity. -/
theorem identity_ne_empty {σ : Type} {env : Environment (cameras.sum host) σ} {x : σ}
    {rounds : Nat} {camera : Camera} (hrun : ((s.runFor rounds).run env x).1 = .finished (.ok camera)) :
    s.identity ≠ "" := by
  have hf := finishes_history hrun
  rw [runFor, finishes_bind] at hf
  obtain ⟨start, h₁, h₂, -, -, hf⟩ := hf
  obtain ⟨u, h₃, h₄, -, -, hf⟩ := finishes_bind.mp hf
  have hfinds : Finds s camera ([] ++ h₄) := finishes_loop_ok within_nil hf
  obtain ⟨pre, listing, post, -, -, -, hid⟩ := hfinds.listed
  exact hid.ne_empty

/-- The call asks no camera in the other mode for its identity. -/
def Spares : (cameras.sum host).Call → Prop
  | .inl (.serial c) | .inl (.sensors c) => s.wanted.accepts c.kind = true
  | _ => True

theorem only_runFor_of {P : (cameras.sum host).Call → Prop} (hlist : P (.inl .list)) (hhost : ∀ c, P (.inr c))
    (hask : ∀ c, s.wanted.accepts c.kind = true → P (.inl (.serial c)) ∧ P (.inl (.sensors c))) (rounds : Nat) :
    (s.runFor rounds).Only P := by
  have hscan : s.scan.Only P := by
    refine only_bind (only_ask.mpr hlist) fun reply => ?_
    split
    · exact only_pick_of hask (fun _ => hhost _) _
    · exact only_bind (only_report.mpr (hhost _)) fun _ => trivial
  have hloop : ∀ start rounds, (s.loop start rounds).Only P := by
    intro start rounds
    induction rounds with
    | zero => trivial
    | succ rounds ih =>
      refine only_bind (only_shouldStop (hhost _)) fun stop => ?_
      split
      · trivial
      refine only_bind hscan fun found? => ?_
      split
      · exact only_bind (only_tell.mpr (hhost _)) fun now => only_bind (only_report.mpr (hhost _)) fun _ => trivial
      · refine only_bind (only_tell.mpr (hhost _)) fun now => ?_
        split
        · trivial
        · exact only_bind (only_tell.mpr (hhost _)) fun _ => ih
  exact only_bind (only_tell.mpr (hhost _)) fun start => only_bind (only_tell.mpr (hhost _)) fun _ =>
    hloop start rounds

/-! ## What a search guarantees -/

section Bounds

variable {σ : Type} {env : Environment (cameras.sum host) σ}

/-- No scan before scan `k` ends the search; without a pause it is followed that far. -/
def Looks (clock : ExactClock env) (x : σ) (rounds k : Nat) : Prop :=
  (∀ j < k, s.Passes clock x j) ∧ (s.interval = 0 → k < rounds)

/-- What holds of a search that is followed for `rounds` rounds, with its ending, the time that
it takes and its calls. -/
structure Timely (clock : ExactClock env) (x : σ) (rounds : Nat) (ending : Ending (Except SearchError Camera))
    (elapsed : Nat) (h : History) : Prop where
  /-- The candidates of a scan are the cameras in the wanted mode, in the order of the listing. -/
  candidates : ∀ y, (s.candidates env y).map Prod.fst = (listed env y).filter fun c => s.wanted.accepts c.kind
  /-- A listing that fails has none. -/
  unlisted : ∀ y e, (env (.inl .list) y).1 = some (.error e) → listed env y = []
  /-- It returns the first match of the first scan that has one. -/
  finds : ∀ camera, ending = .finished (.ok camera) ↔
    ∃ k, s.Looks clock x rounds k ∧ s.found? clock x k = some camera
  /-- It is late only if no scan had a match and the timeout is over. -/
  late : ∀ e, ending = .finished (.error e) → e = .timedOut s.identity s.timeout ∧ s.timeout ≤ elapsed ∧
    ∃ k, (∀ j ≤ k, s.found? clock x j = none) ∧ steps h = s.paced clock x k ++ s.scanCalls clock x k
  /-- It returns at most a pause after the deadline, not counting its last scan. -/
  inTime : ∀ result, ending = .finished result →
    ∃ k, steps h = s.paced clock x k ++ s.scanCalls clock x k ∧
      elapsed ≤ s.timeout + s.interval + s.cost clock x k
  /-- It pauses exactly once between two scans. -/
  paces : ∃ k, steps h = s.paced clock x k ∨ steps h = s.paced clock x k ++ s.scanCalls clock x k
  /-- A scan is one listing, and then identities. -/
  scans : ∀ k, ∃ reply rest, s.scanCalls clock x k = .asked .list (some reply) :: rest ∧
    ∀ e ∈ rest, kindOf e.call = .identity
  /-- A camera in the other mode is not asked. -/
  spares : ∀ e ∈ h, ∀ camera, e.call = .inl (.serial camera) ∨ e.call = .inl (.sensors camera) →
    s.wanted.accepts camera.kind = true
  nameless : s.identity = "" → ∀ camera, ending ≠ .finished (.ok camera)
  ends : 0 < s.interval → ∃ result, ending = .finished result

theorem accepts_of_asked (x : σ) (rounds : Nat) {e : Event (cameras.sum host)}
    (he : e ∈ (s.runFor rounds).history env x) {camera : Camera}
    (hcall : e.call = .inl (.serial camera) ∨ e.call = .inl (.sensors camera)) :
    s.wanted.accepts camera.kind = true := by
  have honly : (s.runFor rounds).Only s.Spares :=
    s.only_runFor_of trivial (fun _ => trivial) (fun c hmode => ⟨hmode, hmode⟩) rounds
  have hspared := honly.calls (begins_history env _ x) e he
  rcases hcall with hcall | hcall
  · rwa [hcall] at hspared
  · rwa [hcall] at hspared

variable (henv : env.Answers) (hcalm : env.NoStop) (clock : ExactClock env) {x : σ} {rounds : Nat}

include henv hcalm clock

/-- A late search has seen no match, and took at least its timeout. -/
theorem timedOut_of_run {e : SearchError} (hrun : ((s.runFor rounds).run env x).1 = .finished (.error e)) :
    e = .timedOut s.identity s.timeout ∧ s.timeout ≤ clock.time ((s.runFor rounds).run env x).2 - clock.time x ∧
      ∃ k, (∀ j ≤ k, s.found? clock x j = none) ∧
        steps ((s.runFor rounds).history env x) = s.paced clock x k ++ s.scanCalls clock x k := by
  obtain ⟨k, hpass, ⟨-, hend, -⟩ | ⟨hk, htime, hcalls, ⟨camera, -, hend⟩ | ⟨hmissed, hlate, hend⟩⟩⟩ :=
    s.exists_end henv hcalm clock (x := x) rounds
  · cases hrun.symm.trans hend
  · cases hrun.symm.trans hend
  · cases hrun.symm.trans hend
    rw [htime]
    refine ⟨rfl, hlate, k, fun j hj => ?_, hcalls⟩
    rcases Nat.lt_or_eq_of_le hj with hj | rfl
    · exact (hpass j hj).1
    · exact hmissed

/-- Only its last scan can keep a search beyond the first round after the deadline. -/
theorem elapsed_le_of_run {result : Except SearchError Camera}
    (hrun : ((s.runFor rounds).run env x).1 = .finished result) :
    ∃ k, steps ((s.runFor rounds).history env x) = s.paced clock x k ++ s.scanCalls clock x k ∧
      clock.time ((s.runFor rounds).run env x).2 - clock.time x ≤ s.timeout + s.interval + s.cost clock x k := by
  obtain ⟨k, hpass, ⟨-, hend, -⟩ | ⟨hk, htime, hcalls, -⟩⟩ := s.exists_end henv hcalm clock (x := x) rounds
  · cases hrun.symm.trans hend
  · rw [htime]
    exact ⟨k, hcalls, s.ended_le henv hcalm clock hpass⟩

theorem steps_runFor : ∃ k, steps ((s.runFor rounds).history env x) = s.paced clock x k ∨
    steps ((s.runFor rounds).history env x) = s.paced clock x k ++ s.scanCalls clock x k := by
  obtain ⟨k, -, ⟨-, -, hcalls⟩ | ⟨-, -, hcalls, -⟩⟩ := s.exists_end henv hcalm clock (x := x) rounds
  · exact ⟨k, .inl hcalls⟩
  · exact ⟨k, .inr hcalls⟩

variable (hrounds : roundsWithin s.timeout s.interval ≤ rounds)

include hrounds

theorem finished_ok_iff (camera : Camera) : ((s.runFor rounds).run env x).1 = .finished (.ok camera) ↔
    ∃ k, s.Looks clock x rounds k ∧ s.found? clock x k = some camera := by
  constructor
  · intro hrun
    obtain ⟨k, hpass, ⟨-, hend, -⟩ | ⟨hk, -, -, ⟨camera', hfound, hend⟩ | ⟨-, -, hend⟩⟩⟩ :=
      s.exists_end henv hcalm clock (x := x) rounds
    all_goals
      have hresult := hrun.symm.trans hend
      cases hresult
    exact ⟨k, ⟨hpass, fun _ => hk⟩, hfound⟩
  · rintro ⟨k, ⟨hpass, hpause⟩, hfound⟩
    have hlt := s.lt_rounds_of_passes henv hcalm clock hrounds hpass hpause
    exact (s.run_of_found henv hcalm clock hlt hpass hfound).1

/-- With a pause, the rounds that are followed do not all pass. -/
theorem exists_result (hpause : 0 < s.interval) :
    ∃ result, ((s.runFor rounds).run env x).1 = .finished result := by
  obtain ⟨k, hpass, ⟨rfl, -⟩ | ⟨-, -, -, ⟨camera, -, hend⟩ | ⟨-, -, hend⟩⟩⟩ :=
    s.exists_end henv hcalm clock (x := x) rounds
  · have hlt := s.lt_rounds_of_passes henv hcalm clock hrounds hpass fun hzero =>
      absurd hzero (Nat.ne_of_gt hpause)
    exact absurd hlt (Nat.lt_irrefl _)
  · exact ⟨_, hend⟩
  · exact ⟨_, hend⟩

end Bounds

/-- Whatever is listed, whatever the cameras report and however long that takes: a search that nobody stops
returns the first match of the first scan that has one, if every scan before it ended before the deadline.
The candidates of a scan are the cameras in the wanted mode in the order of the listing, and no other camera
is asked; a listing that fails has none.  The search is late only if no scan had a match and the timeout is
over; it returns at most a pause after the deadline, not counting its last scan.  It pauses exactly once
between two scans, never finds an empty identity, and ends if its pause is not zero. `rounds` is how long a
search without a pause is followed. -/
theorem run_finds_unit_in_time {σ : Type} (env : Environment (cameras.sum host) σ) (henv : env.Answers)
    (hcalm : env.NoStop) (clock : ExactClock env) (s : Search) (x : σ) (rounds : Nat)
    (hrounds : roundsWithin s.timeout s.interval ≤ rounds) :
    let program := s.runFor rounds
    s.run = s.runFor (roundsWithin s.timeout s.interval) ∧
      s.Timely clock x rounds (program.run env x).1 (clock.time (program.run env x).2 - clock.time x)
        (program.history env x) := by
  intro program
  refine ⟨s.run_eq_runFor, ?_⟩
  exact
    { candidates := fun y => s.map_fst_interviews henv _ _
      unlisted := fun y e he => by rw [listed, he]
      finds := s.finished_ok_iff henv hcalm clock hrounds
      late := fun _ hrun => s.timedOut_of_run henv hcalm clock hrun
      inTime := fun _ hrun => s.elapsed_le_of_run henv hcalm clock hrun
      paces := s.steps_runFor henv hcalm clock
      scans := fun k => s.steps_scan henv _
      spares := fun _ he _ hcall => s.accepts_of_asked x rounds he hcall
      nameless := fun hempty _ hrun => s.identity_ne_empty hrun hempty
      ends := s.exists_result henv hcalm clock hrounds }

/-- A world that lists these cameras, one listing after the other, and then none.  The first camera is busy when
it is asked, the second is another unit, and the third reports its identity by its sensor. -/
def showing : Environment (cameras.sum host) (List (Except LinkError (List Camera)))
  | .inl .list, listing :: listings => (some listing, listings)
  | .inl .list, [] => (some (.ok []), [])
  | .inl (.serial c), listings =>
    (some (if c.id = 1 then .error .busy else if c.id = 2 then .ok (some "other") else .ok none), listings)
  | .inl (.sensors _), listings => (some (.ok ["unit"]), listings)
  | c, listings => ((Obliging.world c { camera := Obliging.unit }).1, listings)

theorem answers_showing : showing.Answers := by
  intro c listings
  rcases c with c | c
  · cases c with
    | list => cases listings <;> exact nofun
    | _ => exact nofun
  · cases c <;> exact nofun

/-- A camera in a mode, by its number. -/
def numbered (id : Nat) (mode : Mode) : Camera := ⟨id, ⟨.d400, mode⟩, "camera"⟩

/-- The unit is found in the second scan, behind a camera in the other mode, one that is busy and one that is
another unit; and where nothing is listed the search is late. -/
theorem run_finds_unit_in_time_showing :
    let env := showing.timed fun _ _ => 3
    let clock := showing.timedClock fun _ _ => 3
    let s : Search := { identity := "unit", wanted := .normal, timeout := 20, interval := 10 }
    let program := s.runFor (roundsWithin 20 10)
    let good : List (Except LinkError (List Camera)) × Nat := ([.error .disconnected,
      .ok [numbered 9 .recovery, numbered 1 .normal, numbered 2 .normal, numbered 3 .normal,
        numbered 4 .normal]], 0)
    (program.run env good).1 = .finished (.ok (numbered 3 .normal)) ∧
      (∃ k, s.found? clock good k = some (numbered 3 .normal)) ∧
      (program.run env ([], 0)).1 = .finished (.error (.timedOut "unit" 20)) ∧
      20 ≤ (program.run env ([], 0)).2.2 := by
  intro env clock s program good
  have hcalm : env.NoStop := nofun
  have hgood : (program.run env good).1 = .finished (.ok (numbered 3 .normal)) := by decide +kernel
  have hlate : (program.run env ([], 0)).1 = .finished (.error (.timedOut "unit" 20)) := by decide +kernel
  obtain ⟨-, htimely⟩ := run_finds_unit_in_time env (answers_showing.timed _) hcalm clock s good _ (Nat.le_refl _)
  obtain ⟨-, htimely'⟩ :=
    run_finds_unit_in_time env (answers_showing.timed _) hcalm clock s ([], 0) _ (Nat.le_refl _)
  obtain ⟨k, -, hfound⟩ := (htimely.finds _).mp hgood
  exact ⟨hgood, ⟨k, hfound⟩, hlate, (htimely'.late _ hlate).2.1⟩

end Search

end Reflash
