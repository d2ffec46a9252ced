import Mathlib.Data.List.Basic
import Reflash.Proofs.Deadline
import Reflash.Proofs.Dfu.Polling

/-!
# Reflash.Proofs.Dfu.BoundedWait — a wait returns the first accepted status, in bounded time

On an exact clock the queries of a wait can be numbered before it is known how the wait ends: `w.reply? channel
env s k` is what query `k` would be told if no round before it ended the wait, and `w.ended channel clock s k`
is when.  `w.Reaches` says that no round before `k` does end it.  A wait is a loop with a deadline
(`Wait.loop_eq`), so the first round that decides or comes too late ends it.
-/

namespace Reflash

open Program

namespace Wait

variable (w : Wait) (channel : ControlChannel)

/-! ## The loop -/

/-- A round up to its reply; a request to stop comes before it. -/
def turn : Action (Option (Except LinkError DeviceStatus)) :=
  (shouldStop w.heedsStop).bind fun stop =>
    if stop then .done none
    else (queryStatus channel w.requestTimeout).bind fun reply => (reportReply reply).bind fun _ =>
      .done (some reply)

/-- The wait as a loop with a deadline, which carries the last status along. -/
def retry : Retry (Option (Except LinkError DeviceStatus)) (Option DeviceStatus)
    (Except WaitError DeviceStatus) where
  turn := w.turn channel
  verdict?
    | none => some (.error .stopped)
    | some reply => w.verdict? reply
  carry last
    | none => last
    | some reply => lastSeen last reply
  late last := .error (.timeout w.timeout w.accepted last)
  timeout := w.timeout
  interval := w.interval

theorem loop_eq (start : Nanos) (rounds : Nat) (last : Option DeviceStatus) :
    w.loop channel start rounds last = (w.retry channel).loop start rounds last := by
  induction rounds generalizing last with
  | zero => rfl
  | succ rounds ih =>
    show (shouldStop w.heedsStop).bind _ = ((shouldStop w.heedsStop).bind _).bind _
    rw [bind_assoc]
    congr
    funext stop
    cases stop with
    | true => rfl
    | false =>
      show (queryStatus channel w.requestTimeout).bind _ = ((queryStatus channel w.requestTimeout).bind _).bind _
      rw [bind_assoc]
      congr
      funext reply
      show (reportReply reply).bind _ = ((reportReply reply).bind _).bind _
      rw [bind_assoc]
      congr
      funext u
      cases hverdict : w.verdict? reply with
      | some result => simp only [Program.bind, retry, hverdict, pure_eq]
      | none =>
        simp only [Program.bind, retry, hverdict, bind_eq, pure_eq, ih]
        rfl

/-- A wait that is followed for some rounds. -/
def runFor (rounds : Nat) : Action (Except WaitError DeviceStatus) :=
  (tell .now).bind fun start => w.loop channel start rounds none

theorem run_eq_runFor : w.run channel = w.runFor channel (roundsWithin w.timeout w.interval) := rfl

/-! ## Its rounds -/

section World

variable {σ : Type} (env : Environment (cameras.sum host) σ) (s : σ)

/-- The world in which round `k` begins, if no round before it ends the wait. -/
def top (k : Nat) : σ := (w.retry channel).before env (env (.inr .now) s).2 k

/-- Whether round `k` finds a request to stop. -/
def stopped (k : Nat) : Bool := ((shouldStop w.heedsStop).run env (w.top channel env s k)).1 = .finished true

/-- The world in which round `k` asks for the status. -/
def asking (k : Nat) : σ := ((shouldStop w.heedsStop).run env (w.top channel env s k)).2

/-- Query `k`. -/
def query (k : Nat) : Event (cameras.sum host) :=
  .asked (.transfer channel .getStatus w.requestTimeout)
    (env (.inl (.transfer channel .getStatus w.requestTimeout)) (w.asking channel env s k)).1

/-- What query `k` is told. -/
def reply? (k : Nat) : Option (Except LinkError DeviceStatus) :=
  ((env (.inl (.transfer channel .getStatus w.requestTimeout)) (w.asking channel env s k)).1 :
    Option (Except LinkError ControlPacket)).map statusOf

/-- The world in which query `k` has its reply. -/
def replied (k : Nat) : σ :=
  (env (.inl (.transfer channel .getStatus w.requestTimeout)) (w.asking channel env s k)).2

/-- The last status that the queries before `k` are told. -/
def lastStatus (k : Nat) : Option DeviceStatus :=
  ((List.range k).filterMap fun j => (w.reply? channel env s j).bind Except.toOption).getLast?

/-- The queries before `k`, each with the pause after it. -/
def paced (k : Nat) : History := (List.range k).flatMap fun j => [w.query channel env s j, .paused w.interval]

variable {env} (clock : ExactClock env)

/-- How long after the start of the wait query `k` ends. -/
def ended (k : Nat) : Nat := clock.time (w.replied channel env s k) - clock.time s

/-- How long query `k` takes. -/
def cost (k : Nat) : Nat := clock.time (w.replied channel env s k) - clock.time (w.asking channel env s k)

/-- Round `k` does not end the wait: nobody asks for a stop, and a reply that leaves it open
comes before the deadline. -/
def Passes (k : Nat) : Prop :=
  w.stopped channel env s k = false ∧ (∃ reply, w.reply? channel env s k = some reply ∧ w.Open reply) ∧
    w.ended channel s clock k < w.timeout

/-- The wait comes to query `k`: no round before it ends the wait, and nobody asks for a stop. -/
def Reaches (k : Nat) : Prop := (∀ j < k, w.Passes channel s clock j) ∧ w.stopped channel env s k = false

end World

section Round

variable {σ : Type} {env : Environment (cameras.sum host) σ} {s : σ} (henv : env.Answers) {k : Nat}

/-- What round `k` sees. -/
def seen (w : Wait) (channel : ControlChannel) (env : Environment (cameras.sum host) σ) (s : σ) (k : Nat) :
    Option (Except LinkError DeviceStatus) :=
  if w.stopped channel env s k then none else w.reply? channel env s k

include henv

theorem exists_reply (k : Nat) : ∃ reply, w.reply? channel env s k = some reply := by
  rw [reply?]
  cases hreply : (env (.inl (.transfer channel .getStatus w.requestTimeout)) (w.asking channel env s k)).1 with
  | none => exact absurd hreply (henv _ _)
  | some reply => exact ⟨statusOf reply, rfl⟩

omit henv in
/-- A query is one call. -/
theorem run_queryStatus {timeout : Nanos} {reply : Except LinkError ControlPacket} {x : σ}
    (hreply : (env (.inl (.transfer channel .getStatus timeout)) x).1 = some reply) :
    (queryStatus channel timeout).run env x =
        (.finished (statusOf reply), (env (.inl (.transfer channel .getStatus timeout)) x).2) ∧
      (queryStatus channel timeout).history env x =
        [.asked (.transfer channel .getStatus timeout) (some reply)] := by
  simp only [queryStatus, bind_eq]
  rw [run_ask_bind hreply, history_ask_bind hreply]
  cases reply <;> exact ⟨rfl, rfl⟩

theorem run_look (k : Nat) : (shouldStop w.heedsStop).run env (w.top channel env s k) =
    (.finished (w.stopped channel env s k), w.asking channel env s k) := by
  obtain ⟨stop, hstop, -⟩ := henv.finishes (stallsAfter_shouldStop w.heedsStop) (w.top channel env s k)
  refine Prod.ext ?_ rfl
  rw [stopped, hstop]
  cases stop <;> simp

omit henv in
theorem steps_look (k : Nat) : steps ((shouldStop w.heedsStop).history env (w.top channel env s k)) = [] :=
  steps_eq_nil ((only_shouldStop (P := fun c => takesTime c = false) rfl).calls (begins_history _ _ _))

/-- A round that finds a request to stop. -/
theorem turn_of_stopped (hk : w.stopped channel env s k = true) :
    (w.turn channel).run env (w.top channel env s k) = (.finished none, w.asking channel env s k) ∧
      steps ((w.turn channel).history env (w.top channel env s k)) = [] := by
  have hlook := w.run_look channel (s := s) henv k
  rw [hk] at hlook
  rw [turn, run_bind_of_finished hlook, history_bind_of_finished hlook, steps_append, w.steps_look channel]
  exact ⟨rfl, rfl⟩

/-- Any other round makes its query, and a note of the reply. -/
theorem turn_of_not_stopped (hk : w.stopped channel env s k = false) :
    ∃ reply, w.reply? channel env s k = some reply ∧ (w.turn channel).run env (w.top channel env s k) =
        (.finished (some reply), ((reportReply reply).run env (w.replied channel env s k)).2) ∧
      steps ((w.turn channel).history env (w.top channel env s k)) = [w.query channel env s k] := by
  have hlook := w.run_look channel (s := s) henv k
  rw [hk] at hlook
  cases hraw : (env (.inl (.transfer channel .getStatus w.requestTimeout)) (w.asking channel env s k)).1 with
  | none => exact absurd hraw (henv _ _)
  | some raw =>
    obtain ⟨hrun, hhistory⟩ := run_queryStatus channel hraw
    obtain ⟨u, hnote, -⟩ := henv.finishes (stallsAfter_reportReply (statusOf raw)) (w.replied channel env s k)
    have hnote' : (reportReply (statusOf raw)).run env (w.replied channel env s k) =
      (.finished u, ((reportReply (statusOf raw)).run env (w.replied channel env s k)).2) := Prod.ext hnote rfl
    have hnotes : steps ((reportReply (statusOf raw)).history env (w.replied channel env s k)) = [] :=
      steps_eq_nil ((only_reportReply (P := fun c => takesTime c = false) (fun _ => rfl) _).calls
        (begins_history _ _ _))
    refine ⟨statusOf raw, by rw [reply?, hraw]; rfl, ?_, ?_⟩
    · rw [turn, run_bind_of_finished hlook, if_neg Bool.false_ne_true, run_bind_of_finished hrun]
      exact run_bind_of_finished hnote' _
    · rw [turn, history_bind_of_finished hlook, if_neg Bool.false_ne_true,
        history_bind_of_finished hrun, steps_append,
        w.steps_look channel, hhistory, List.nil_append, List.singleton_append, steps_asked, query, hraw]
      show _ :: steps (((reportReply (statusOf raw)).bind _).history env (w.replied channel env s k)) = _
      rw [history_bind_of_finished hnote', steps_append, hnotes]
      rfl

theorem finished_turn (k : Nat) :
    ((w.turn channel).run env (w.top channel env s k)).1 = .finished (w.seen channel env s k) := by
  rw [seen]
  cases hk : w.stopped channel env s k with
  | true => rw [(w.turn_of_stopped channel henv hk).1, if_pos rfl]
  | false =>
    obtain ⟨reply, hreply, hrun, -⟩ := w.turn_of_not_stopped channel henv hk
    rw [hrun, if_neg Bool.false_ne_true, hreply]

omit henv in
theorem lastStatus_succ (k : Nat) : w.lastStatus channel env s (k + 1) =
    ((w.reply? channel env s k).bind Except.toOption).or (w.lastStatus channel env s k) := by
  simp [lastStatus, List.range_succ]

omit henv in
/-- The last status that the loop carries along. -/
theorem noted_eq (hk : ∀ j < k, w.stopped channel env s j = false) :
    (w.retry channel).noted none (w.seen channel env s) k = w.lastStatus channel env s k := by
  induction k with
  | zero => rfl
  | succ k ih =>
    have hseen : w.seen channel env s k = w.reply? channel env s k := by
      rw [seen, hk k (Nat.lt_succ_self k), if_neg Bool.false_ne_true]
    rw [Retry.noted, ih fun j hj => hk j (Nat.lt_succ_of_lt hj), hseen, w.lastStatus_succ channel]
    rcases w.reply? channel env s k with _ | e | status
    · rfl
    · rfl
    · rfl

variable (clock : ExactClock env)

omit henv in
theorem time_start : clock.time (env (.inr .now) s).2 = clock.time s := clock.instant_eq (.inr .now) s rfl

omit henv in
theorem time_asking (k : Nat) : clock.time (w.asking channel env s k) = clock.time (w.top channel env s k) :=
  clock.time_run (only_shouldStop rfl) _

theorem time_after (hk : w.stopped channel env s k = false) :
    clock.time ((w.retry channel).after env (env (.inr .now) s).2 k) = clock.time (w.replied channel env s k) := by
  obtain ⟨reply, -, hrun, -⟩ := w.turn_of_not_stopped channel henv hk
  show clock.time ((w.turn channel).run env (w.top channel env s k)).2 = _
  rw [hrun]
  exact clock.time_run (only_reportReply (fun _ => rfl) reply) _

/-- A round ends the wait, or leaves it to the next one. -/
theorem goes_iff (k : Nat) :
    (w.retry channel).Goes (env (.inr .now) s).2 clock (clock.time s) (w.seen channel env s) k ↔
    w.Passes channel s clock k := by
  rw [Retry.Goes, Passes, seen]
  cases hk : w.stopped channel env s k with
  | true => simp [retry]
  | false =>
    obtain ⟨reply, hreply⟩ := w.exists_reply channel (s := s) henv k
    rw [w.time_after channel henv clock hk, if_neg Bool.false_ne_true, hreply]
    show w.verdict? reply = none ∧ w.ended channel s clock k < w.timeout ↔ _
    rw [verdict?_eq_none_iff]
    simp

theorem steps_passed (hk : ∀ j < k, w.Passes channel s clock j) :
    steps ((w.retry channel).passed (env (.inr .now) s).2 clock k) = w.paced channel env s k := by
  rw [Retry.steps_passed, paced]
  refine List.flatMap_congr fun j hj => ?_
  obtain ⟨reply, -, -, hsteps⟩ := w.turn_of_not_stopped channel henv (hk j (List.mem_range.mp hj)).1
  show steps ((w.turn channel).history env (w.top channel env s j)) ++ _ = _
  rw [hsteps]
  rfl

/-! ## How it ends -/

variable {rounds : Nat}

omit henv in
theorem run_runFor (rounds : Nat) :
    (w.runFor channel rounds).run env s =
      ((w.retry channel).loop (clock.time s) rounds none).run env (env (.inr .now) s).2 ∧
    steps ((w.runFor channel rounds).history env s) =
      steps (((w.retry channel).loop (clock.time s) rounds none).history env (env (.inr .now) s).2) := by
  rw [runFor, run_tell_bind (clock.now_eq s), history_tell_bind (clock.now_eq s), steps_now, loop_eq]
  exact ⟨rfl, rfl⟩

/-- The wait ends with the first reply that decides it. -/
theorem run_of_reply {reply : Except LinkError DeviceStatus}
    {result : Except WaitError DeviceStatus} (hk : k < rounds) (hreach : w.Reaches channel s clock k)
    (hreply : w.reply? channel env s k = some reply) (hverdict : w.verdict? reply = some result) :
    ((w.runFor channel rounds).run env s).1 = .finished result ∧
      clock.time ((w.runFor channel rounds).run env s).2 = clock.time (w.replied channel env s k) ∧
      steps ((w.runFor channel rounds).history env s) = w.paced channel env s k ++ [w.query channel env s k] := by
  obtain ⟨hpass, hstop⟩ := hreach
  have hseen : (w.retry channel).verdict? (w.seen channel env s k) = some result := by
    rw [seen, hstop, if_neg Bool.false_ne_true, hreply]
    exact hverdict
  obtain ⟨hrun, hhistory⟩ :=
    (w.retry channel).run_of_decided rounds none clock (w.finished_turn channel henv) henv hk
      (fun j hj => (w.goes_iff channel henv clock j).mpr (hpass j hj)) hseen
  obtain ⟨hrun', hhistory'⟩ := w.run_runFor channel (s := s) clock rounds
  obtain ⟨-, -, -, hsteps⟩ := w.turn_of_not_stopped channel henv hstop
  rw [hrun', hrun, hhistory', hhistory, steps_append, w.steps_passed channel henv clock hpass]
  exact ⟨rfl, w.time_after channel henv clock hstop, congrArg _ hsteps⟩

/-- It ends with the first reply that comes after the deadline. -/
theorem run_of_overdue {reply : Except LinkError DeviceStatus} (hk : k < rounds)
    (hreach : w.Reaches channel s clock k) (hreply : w.reply? channel env s k = some reply)
    (hopen : w.Open reply) (hlate : w.timeout ≤ w.ended channel s clock k) :
    ((w.runFor channel rounds).run env s).1 =
        .finished (.error (.timeout w.timeout w.accepted (w.lastStatus channel env s (k + 1)))) ∧
      clock.time ((w.runFor channel rounds).run env s).2 = clock.time (w.replied channel env s k) ∧
      steps ((w.runFor channel rounds).history env s) = w.paced channel env s k ++ [w.query channel env s k] := by
  obtain ⟨hpass, hstop⟩ := hreach
  have hseen : (w.retry channel).verdict? (w.seen channel env s k) = none := by
    rw [seen, hstop, if_neg Bool.false_ne_true, hreply]
    exact verdict?_eq_none_iff.mpr hopen
  have hafter := w.time_after channel (s := s) henv clock hstop
  obtain ⟨hrun, hhistory⟩ :=
    (w.retry channel).run_of_overdue rounds none clock (w.finished_turn channel henv) henv hk
      (fun j hj => (w.goes_iff channel henv clock j).mpr (hpass j hj)) hseen (by rw [hafter]; exact hlate)
  obtain ⟨hrun', hhistory'⟩ := w.run_runFor channel (s := s) clock rounds
  obtain ⟨-, -, -, hsteps⟩ := w.turn_of_not_stopped channel henv hstop
  have hnever : ∀ j < k + 1, w.stopped channel env s j = false := by
    intro j hj
    rcases Nat.lt_succ_iff_lt_or_eq.mp hj with hj | rfl
    · exact (hpass j hj).1
    · exact hstop
  rw [hrun', hrun, hhistory', hhistory, w.noted_eq channel hnever, steps_append, steps_append,
    w.steps_passed channel henv clock hpass, steps_now, steps_nil, List.append_nil]
  exact ⟨rfl, (clock.instant_eq (.inr .now) _ rfl).trans hafter, congrArg _ hsteps⟩

/-- It ends with the first round that finds a request to stop. -/
theorem run_of_stopped (hk : k < rounds) (hpass : ∀ j < k, w.Passes channel s clock j)
    (hstop : w.stopped channel env s k = true) :
    ((w.runFor channel rounds).run env s).1 = .finished (.error .stopped) ∧
      clock.time ((w.runFor channel rounds).run env s).2 = clock.time (w.top channel env s k) ∧
      steps ((w.runFor channel rounds).history env s) = w.paced channel env s k := by
  have hseen : (w.retry channel).verdict? (w.seen channel env s k) = some (.error .stopped) := by
    rw [seen, hstop, if_pos rfl]
    rfl
  obtain ⟨hrun, hhistory⟩ :=
    (w.retry channel).run_of_decided rounds none clock (w.finished_turn channel henv) henv hk
      (fun j hj => (w.goes_iff channel henv clock j).mpr (hpass j hj)) hseen
  obtain ⟨hrun', hhistory'⟩ := w.run_runFor channel (s := s) clock rounds
  obtain ⟨hturn, hsteps⟩ := w.turn_of_stopped channel henv hstop
  rw [hrun', hrun, hhistory', hhistory, steps_append, w.steps_passed channel henv clock hpass]
  refine ⟨rfl, ?_, (congrArg _ hsteps).trans (List.append_nil _)⟩
  show clock.time ((w.turn channel).run env (w.top channel env s k)).2 = _
  rw [hturn]
  exact w.time_asking channel clock k

/-- A wait of which every round passes is followed no further. -/
theorem run_of_all_passed (hpass : ∀ j < rounds, w.Passes channel s clock j) :
    ((w.runFor channel rounds).run env s).1 = .stalled ∧
      steps ((w.runFor channel rounds).history env s) = w.paced channel env s rounds := by
  obtain ⟨hrun, hhistory⟩ :=
    (w.retry channel).run_of_all_gone rounds none clock (w.finished_turn channel henv) henv
      fun j hj => (w.goes_iff channel henv clock j).mpr (hpass j hj)
  obtain ⟨hrun', hhistory'⟩ := w.run_runFor channel (s := s) clock rounds
  rw [hrun', hrun, hhistory', hhistory, w.steps_passed channel henv clock hpass]
  exact ⟨rfl, rfl⟩

/-- Some round ends the wait, by a request to stop, by a reply that decides, or by one that comes too late; or
all of the rounds pass. -/
theorem exists_end (rounds : Nat) : ∃ k, (∀ j < k, w.Passes channel s clock j) ∧
    (steps ((w.runFor channel rounds).history env s) = w.paced channel env s k ∧
      (k = rounds ∧ ((w.runFor channel rounds).run env s).1 = .stalled ∨
        w.stopped channel env s k = true ∧ ((w.runFor channel rounds).run env s).1 = .finished (.error .stopped) ∧
          clock.time ((w.runFor channel rounds).run env s).2 = clock.time (w.top channel env s k)) ∨
    steps ((w.runFor channel rounds).history env s) = w.paced channel env s k ++ [w.query channel env s k] ∧
      k < rounds ∧ w.stopped channel env s k = false ∧
      clock.time ((w.runFor channel rounds).run env s).2 = clock.time (w.replied channel env s k) ∧
      ∃ reply, w.reply? channel env s k = some reply ∧
        ((∃ result, w.verdict? reply = some result ∧ ((w.runFor channel rounds).run env s).1 = .finished result) ∨
          w.Open reply ∧ w.timeout ≤ w.ended channel s clock k ∧ ((w.runFor channel rounds).run env s).1 =
            .finished (.error (.timeout w.timeout w.accepted (w.lastStatus channel env s (k + 1)))))) := by
  have hlast : (∀ j < rounds, (w.retry channel).Goes (env (.inr .now) s).2 clock (clock.time s)
      (w.seen channel env s) j) ∨ _ :=
    (w.retry channel).exists_last rounds clock
  rcases hlast with hall | ⟨k, hk, hgo, hend⟩
  · have hpass : ∀ j < rounds, w.Passes channel s clock j :=
      fun j hj => (w.goes_iff channel henv clock j).mp (hall j hj)
    obtain ⟨hrun, hcalls⟩ := w.run_of_all_passed channel henv clock hpass
    exact ⟨rounds, hpass, .inl ⟨hcalls, .inl ⟨rfl, hrun⟩⟩⟩
  have hpass : ∀ j < k, w.Passes channel s clock j := fun j hj => (w.goes_iff channel henv clock j).mp (hgo j hj)
  refine ⟨k, hpass, ?_⟩
  cases hstop : w.stopped channel env s k with
  | true =>
    obtain ⟨hrun, htime, hcalls⟩ := w.run_of_stopped channel henv clock hk hpass hstop
    exact .inl ⟨hcalls, .inr ⟨rfl, hrun, htime⟩⟩
  | false =>
    obtain ⟨reply, hreply⟩ := w.exists_reply channel (s := s) henv k
    rw [seen, hstop, if_neg Bool.false_ne_true, hreply, w.time_after channel henv clock hstop] at hend
    rcases hend with ⟨result, hverdict⟩ | ⟨hopen, hlate⟩
    · obtain ⟨hrun, htime, hcalls⟩ := w.run_of_reply channel henv clock hk ⟨hpass, hstop⟩ hreply hverdict
      exact .inr ⟨hcalls, hk, rfl, htime, reply, hreply, .inl ⟨result, hverdict, hrun⟩⟩
    · have hopen : w.Open reply := verdict?_eq_none_iff.mp hopen
      obtain ⟨hrun, htime, hcalls⟩ := w.run_of_overdue channel henv clock hk ⟨hpass, hstop⟩ hreply hopen hlate
      exact .inr ⟨hcalls, hk, rfl, htime, reply, hreply, .inr ⟨hopen, hlate, hrun⟩⟩

/-- A wait that returns anything but a late result was decided by a reply, or stopped. -/
theorem exists_reply_of_run {result : Except WaitError DeviceStatus}
    (hrun : ((w.runFor channel rounds).run env s).1 = .finished result) (hstop : result ≠ .error .stopped)
    (hlate : ∀ last, result ≠ .error (.timeout w.timeout w.accepted last)) :
    ∃ k reply, w.Reaches channel s clock k ∧ k < rounds ∧ w.reply? channel env s k = some reply ∧
      w.verdict? reply = some result := by
  obtain ⟨k, hpass, ⟨-, ⟨-, hend⟩ | ⟨-, hend, -⟩⟩ |
      ⟨-, hk, hgo, -, reply, hreply, ⟨result', hverdict, hend⟩ | ⟨-, -, hend⟩⟩⟩ :=
    w.exists_end channel henv clock (s := s) rounds
  all_goals rw [hrun] at hend
  · cases hend
  · exact absurd (Ending.finished.inj hend) hstop
  · exact ⟨k, reply, ⟨hpass, hgo⟩, hk, hreply, by rw [hverdict, Ending.finished.inj hend]⟩
  · exact absurd (Ending.finished.inj hend) (hlate _)

/-- Where there is a pause, no more rounds pass than are followed. -/
theorem lt_rounds_of_passes (hrounds : roundsWithin w.timeout w.interval ≤ rounds)
    (hpass : ∀ j < k, w.Passes channel s clock j) (hpause : w.interval = 0 → k < rounds) : k < rounds := by
  rcases Nat.eq_zero_or_pos w.interval with hzero | hpos
  · exact hpause hzero
  · refine Nat.lt_of_lt_of_le ?_ hrounds
    have hgo : ∀ j < k, (w.retry channel).Goes (env (.inr .now) s).2 clock (clock.time (env (.inr .now) s).2)
        (w.seen channel env s) j := by
      rw [time_start clock]
      exact fun j hj => (w.goes_iff channel henv clock j).mpr (hpass j hj)
    exact (w.retry channel).lt_rounds_of_gone clock hpos hgo

/-- A round begins at most a pause after the deadline. -/
theorem time_top_le (hpass : ∀ j < k, w.Passes channel s clock j) :
    clock.time (w.top channel env s k) - clock.time s ≤ w.timeout + w.interval := by
  have hgo : ∀ j < k, (w.retry channel).Goes (env (.inr .now) s).2 clock (clock.time (env (.inr .now) s).2)
      (w.seen channel env s) j := by
    rw [time_start clock]
    exact fun j hj => (w.goes_iff channel henv clock j).mpr (hpass j hj)
  have hbefore := (w.retry channel).time_before_le clock hgo
  rwa [time_start clock] at hbefore

/-- A query ends at most its own time after that. -/
theorem ended_le (hpass : ∀ j < k, w.Passes channel s clock j) :
    w.ended channel s clock k ≤ w.timeout + w.interval + w.cost channel s clock k := by
  have htop := w.time_top_le channel henv clock hpass
  rw [ended, cost, w.time_asking channel clock k]
  omega

omit henv in
theorem query_mem_paced {j : Nat} (hj : j < k) : w.query channel env s j ∈ w.paced channel env s k :=
  List.mem_flatMap.mpr ⟨j, List.mem_range.mpr hj, List.mem_cons_self⟩

end Round

theorem verdict?_eq_ok {w : Wait} {reply : Except LinkError DeviceStatus} {status : DeviceStatus} :
    w.verdict? reply = some (.ok status) ↔ reply = .ok status ∧ status.state ∈ w.accepted := by
  rcases reply with e | status'
  · cases e <;> simp [verdict?]
  · simp only [verdict?]
    split
    · rename_i haccepted
      constructor
      · rintro ⟨⟩
        exact ⟨rfl, haccepted⟩
      · rintro ⟨⟨⟩, -⟩
        rfl
    · rename_i hnot
      constructor
      · rintro ⟨⟩
      · rintro ⟨⟨⟩, haccepted⟩
        exact absurd haccepted hnot

theorem verdict?_eq_link {w : Wait} {reply : Except LinkError DeviceStatus} {e : LinkError} :
    w.verdict? reply = some (.error (.link e)) ↔ reply = .error e ∧ e ≠ .busy := by
  rcases reply with e' | status
  · cases e' <;> simp [verdict?] <;> rintro rfl <;> simp
  · simp only [verdict?]
    split <;> simp

theorem verdict?_ne_timeout {w : Wait} {reply : Except LinkError DeviceStatus} {after : Nanos}
    {expected : List DfuState} {last : Option DeviceStatus} :
    w.verdict? reply ≠ some (.error (.timeout after expected last)) := by
  rcases reply with e | status
  · cases e <;> simp [verdict?]
  · simp only [verdict?]
    split <;> simp

/-! ## What a wait guarantees -/

section Bounds

variable {σ : Type} {env : Environment (cameras.sum host) σ} {s : σ}

/-- The wait comes to query `k`; without a pause it is followed that far. -/
def Asks (s : σ) (clock : ExactClock env) (rounds k : Nat) : Prop :=
  w.Reaches channel s clock k ∧ (w.interval = 0 → k < rounds)

/-- What holds of a wait that is followed for `rounds` rounds, with its ending, the time that
it takes and its calls. -/
structure Bounded (s : σ) (clock : ExactClock env) (rounds : Nat) (ending : Ending (Except WaitError DeviceStatus))
    (elapsed : Nat) (h : History) : Prop where
  /-- It returns the first status in an accepted state that it comes to. -/
  accepts : ∀ status, ending = .finished (.ok status) ↔
    ∃ k, w.Asks channel s clock rounds k ∧ w.reply? channel env s k = some (.ok status) ∧ status.state ∈ w.accepted
  /-- It fails where the link does, unless the loader is only busy. -/
  fails : ∀ e, ending = .finished (.error (.link e)) ↔
    ∃ k, w.Asks channel s clock rounds k ∧ w.reply? channel env s k = some (.error e) ∧ e ≠ .busy
  atOnce : ∀ k e, w.Asks channel s clock rounds k → w.reply? channel env s k = some (.error e) → e ≠ .busy →
    steps h = w.paced channel env s k ++ [w.query channel env s k] ∧ elapsed = w.ended channel s clock k
  /-- It is late only after its timeout, and then it carries the last status that it saw. -/
  late : ∀ after expected last, ending = .finished (.error (.timeout after expected last)) →
    after = w.timeout ∧ expected = w.accepted ∧ w.timeout ≤ elapsed ∧
      ∃ k, steps h = w.paced channel env s k ++ [w.query channel env s k] ∧
        last = w.lastStatus channel env s (k + 1)
  /-- It returns at most a pause after the deadline, not counting its last query. -/
  inTime : ∀ result, ending = .finished result →
    result = .error .stopped ∧ elapsed ≤ w.timeout + w.interval ∨
      ∃ k, steps h = w.paced channel env s k ++ [w.query channel env s k] ∧
        elapsed ≤ w.timeout + w.interval + w.cost channel s clock k
  /-- It pauses exactly once between two queries. -/
  paces : ∃ k, steps h = w.paced channel env s k ∨ steps h = w.paced channel env s k ++ [w.query channel env s k]
  /-- It asks at least once, unless a stop is requested at its start. -/
  asks : w.stopped channel env s 0 = false → w.query channel env s 0 ∈ h
  ends : 0 < w.interval → ∃ result, ending = .finished result

variable (henv : env.Answers) (clock : ExactClock env) {rounds k : Nat}

include henv clock

/-- A late wait took at least its timeout. -/
theorem timeout_of_run {after : Nanos} {expected : List DfuState} {last : Option DeviceStatus}
    (hrun : ((w.runFor channel rounds).run env s).1 = .finished (.error (.timeout after expected last))) :
    after = w.timeout ∧ expected = w.accepted ∧
      w.timeout ≤ clock.time ((w.runFor channel rounds).run env s).2 - clock.time s ∧
      ∃ k, steps ((w.runFor channel rounds).history env s) = w.paced channel env s k ++ [w.query channel env s k] ∧
        last = w.lastStatus channel env s (k + 1) := by
  obtain ⟨k, -, ⟨-, ⟨-, hend⟩ | ⟨-, hend, -⟩⟩ | ⟨hcalls, -, -, htime, reply, -, hdecided⟩⟩ :=
    w.exists_end channel henv clock (s := s) rounds
  · cases hrun.symm.trans hend
  · cases hrun.symm.trans hend
  rcases hdecided with ⟨result, hverdict, hend⟩ | ⟨-, hlate, hend⟩
  · cases hrun.symm.trans hend
    exact absurd hverdict verdict?_ne_timeout
  · cases hrun.symm.trans hend
    rw [htime]
    exact ⟨rfl, rfl, hlate, k, hcalls, rfl⟩

/-- Only its last query can keep a wait beyond the first round after the deadline. -/
theorem elapsed_le_of_run {result : Except WaitError DeviceStatus}
    (hrun : ((w.runFor channel rounds).run env s).1 = .finished result) :
    let elapsed := clock.time ((w.runFor channel rounds).run env s).2 - clock.time s
    result = .error .stopped ∧ elapsed ≤ w.timeout + w.interval ∨
      ∃ k, steps ((w.runFor channel rounds).history env s) = w.paced channel env s k ++ [w.query channel env s k] ∧
        elapsed ≤ w.timeout + w.interval + w.cost channel s clock k := by
  intro elapsed
  obtain ⟨k, hpass, ⟨-, ⟨-, hend⟩ | ⟨-, hend, htime⟩⟩ | ⟨hcalls, -, -, htime, -⟩⟩ :=
    w.exists_end channel henv clock (s := s) rounds
  · cases hrun.symm.trans hend
  · have helapsed : elapsed = clock.time (w.top channel env s k) - clock.time s :=
      congrArg (· - clock.time s) htime
    exact .inl ⟨Ending.finished.inj (hrun.symm.trans hend), helapsed ▸ w.time_top_le channel henv clock hpass⟩
  · have helapsed : elapsed = w.ended channel s clock k := congrArg (· - clock.time s) htime
    exact .inr ⟨k, hcalls, helapsed ▸ w.ended_le channel henv clock hpass⟩

variable (hrounds : roundsWithin w.timeout w.interval ≤ rounds)

include hrounds

theorem lt_rounds_of_asks (hk : w.Asks channel s clock rounds k) : k < rounds :=
  w.lt_rounds_of_passes channel henv clock hrounds hk.1.1 hk.2

/-- A wait that is neither late nor stopped returns what the reply to a query decides, and none is left out. -/
theorem finished_iff {result : Except WaitError DeviceStatus} (hstop : result ≠ .error .stopped)
    (hlate : ∀ last, result ≠ .error (.timeout w.timeout w.accepted last)) :
    ((w.runFor channel rounds).run env s).1 = .finished result ↔ ∃ k reply, w.Asks channel s clock rounds k ∧
      w.reply? channel env s k = some reply ∧ w.verdict? reply = some result := by
  constructor
  · intro hrun
    obtain ⟨k, reply, hreach, hk, hreply, hverdict⟩ := w.exists_reply_of_run channel henv clock hrun hstop hlate
    exact ⟨k, reply, ⟨hreach, fun _ => hk⟩, hreply, hverdict⟩
  · rintro ⟨k, reply, hk, hreply, hverdict⟩
    have hlt := w.lt_rounds_of_asks channel henv clock hrounds hk
    exact (w.run_of_reply channel henv clock hlt hk.1 hreply hverdict).1

theorem finished_ok_iff (status : DeviceStatus) :
    ((w.runFor channel rounds).run env s).1 = .finished (.ok status) ↔
    ∃ k, w.Asks channel s clock rounds k ∧ w.reply? channel env s k = some (.ok status) ∧
      status.state ∈ w.accepted := by
  have hstop : (.ok status : Except WaitError DeviceStatus) ≠ .error .stopped := nofun
  rw [w.finished_iff channel henv clock hrounds hstop fun _ => nofun]
  constructor
  · rintro ⟨k, reply, hk, hreply, hverdict⟩
    obtain ⟨rfl, haccepted⟩ := verdict?_eq_ok.mp hverdict
    exact ⟨k, hk, hreply, haccepted⟩
  · rintro ⟨k, hk, hreply, haccepted⟩
    exact ⟨k, _, hk, hreply, verdict?_eq_ok.mpr ⟨rfl, haccepted⟩⟩

theorem finished_link_iff (e : LinkError) :
    ((w.runFor channel rounds).run env s).1 = .finished (.error (.link e)) ↔
    ∃ k, w.Asks channel s clock rounds k ∧ w.reply? channel env s k = some (.error e) ∧ e ≠ .busy := by
  have hstop : (.error (.link e) : Except WaitError DeviceStatus) ≠ .error .stopped := nofun
  rw [w.finished_iff channel henv clock hrounds hstop fun _ => nofun]
  constructor
  · rintro ⟨k, reply, hk, hreply, hverdict⟩
    obtain ⟨rfl, he⟩ := verdict?_eq_link.mp hverdict
    exact ⟨k, hk, hreply, he⟩
  · rintro ⟨k, hk, hreply, he⟩
    exact ⟨k, _, hk, hreply, verdict?_eq_link.mpr ⟨rfl, he⟩⟩

theorem query_mem_history (hstart : w.stopped channel env s 0 = false) :
    w.query channel env s 0 ∈ (w.runFor channel rounds).history env s := by
  suffices hmem : w.query channel env s 0 ∈ steps ((w.runFor channel rounds).history env s) from
    (List.mem_filter.mp hmem).1
  obtain ⟨k, -, ⟨hcalls, hend⟩ | ⟨hcalls, -⟩⟩ := w.exists_end channel henv clock (s := s) rounds
  · have hk : k ≠ 0 := by
      rintro rfl
      rcases hend with ⟨hzero, -⟩ | ⟨hstop, -⟩
      · exact absurd (hzero ▸ hrounds) (Nat.not_le_of_lt (roundsWithin_pos _ _))
      · rw [hstart] at hstop
        cases hstop
    rw [hcalls]
    exact w.query_mem_paced channel (Nat.pos_of_ne_zero hk)
  · rw [hcalls]
    rcases Nat.eq_zero_or_pos k with rfl | hk
    · exact List.mem_append_right _ (List.mem_singleton_self _)
    · exact List.mem_append_left _ (w.query_mem_paced channel hk)

/-- With a pause, the rounds that are followed do not all pass. -/
theorem exists_result (hpause : 0 < w.interval) :
    ∃ result, ((w.runFor channel rounds).run env s).1 = .finished result := by
  obtain ⟨k, hpass, ⟨-, ⟨rfl, -⟩ | ⟨-, hend, -⟩⟩ | ⟨-, -, -, -, reply, -, ⟨result, -, hend⟩ | ⟨-, -, hend⟩⟩⟩ :=
    w.exists_end channel henv clock (s := s) rounds
  · have hlt := w.lt_rounds_of_passes channel henv clock hrounds hpass fun hzero =>
      absurd hzero (Nat.ne_of_gt hpause)
    exact absurd hlt (Nat.lt_irrefl _)
  · exact ⟨_, hend⟩
  · exact ⟨_, hend⟩
  · exact ⟨_, hend⟩

end Bounds

/-- Whatever the loader replies, however long a query takes, and whenever a stop is requested: a wait returns
the first status in an accepted state that it comes to, and a failure of the link other than a busy loader at
once.  It is late only after its timeout, and then it carries the last status that it saw; it returns at most a
pause after the deadline, not counting its last query.  It pauses exactly once between two queries, asks at
least once if no stop is requested at its start, and ends if its pause is not zero.  `rounds` is how long a wait
without a pause is followed. -/
theorem run_is_bounded_wait {σ : Type} (env : Environment (cameras.sum host) σ) (henv : env.Answers)
    (clock : ExactClock env) (w : Wait) (channel : ControlChannel) (s : σ) (rounds : Nat)
    (hrounds : roundsWithin w.timeout w.interval ≤ rounds) :
    let program := w.runFor channel rounds
    w.run channel = w.runFor channel (roundsWithin w.timeout w.interval) ∧
      w.Bounded channel s clock rounds (program.run env s).1 (clock.time (program.run env s).2 - clock.time s)
        (program.history env s) := by
  intro program
  refine ⟨w.run_eq_runFor channel, ?_⟩
  exact
    { accepts := w.finished_ok_iff channel henv clock hrounds
      fails := w.finished_link_iff channel henv clock hrounds
      atOnce := fun k e hk hreply he => by
        have hlt := w.lt_rounds_of_asks channel henv clock hrounds hk
        obtain ⟨-, htime, hcalls⟩ :=
          w.run_of_reply channel henv clock hlt hk.1 hreply (verdict?_eq_link.mpr ⟨rfl, he⟩)
        exact ⟨hcalls, congrArg (· - clock.time s) htime⟩
      late := fun _ _ _ hrun => w.timeout_of_run channel henv clock hrun
      inTime := fun _ hrun => w.elapsed_le_of_run channel henv clock hrun
      paces := by
        obtain ⟨k, -, hend⟩ := w.exists_end channel henv clock (s := s) rounds
        exact ⟨k, hend.imp And.left And.left⟩
      asks := w.query_mem_history channel henv clock hrounds
      ends := w.exists_result channel henv clock hrounds }

/-- A world with a loader that gives these replies, one after the other, and is gone after the last one. -/
def polled : Environment (cameras.sum host) (List (Except LinkError ControlPacket))
  | .inl (.transfer _ _ _), reply :: replies => (some reply, replies)
  | .inl (.transfer _ _ _), [] => (some (.error .disconnected), [])
  | c, replies => ((Obliging.world c { camera := Obliging.unit }).1, replies)

theorem answers_polled : polled.Answers := by
  intro c replies
  rcases c with c | c
  · cases c with
    | transfer => cases replies <;> exact nofun
    | _ => exact nofun
  · cases c <;> exact nofun

/-- A reply with this state. -/
def reporting (state : UInt8) : Except LinkError ControlPacket :=
  .ok { ControlPacket.getStatus with data := [0, 0, 0, 0, state, 0] }

/-- Queries of three nanoseconds, with pauses of ten and a timeout of twenty: the third one ends the wait, well
if the loader has come to the state by then. -/
theorem run_is_bounded_wait_polled :
    let env := polled.timed fun _ _ => 3
    let clock := polled.timedClock fun _ _ => 3
    let w : Wait := { accepted := [.downloadIdle], timeout := 20, interval := 10 }
    let program := w.runFor ⟨0⟩ (roundsWithin 20 10)
    let good := ([.error .busy, reporting 4, reporting 5], 0)
    let late := ([.error .busy, reporting 4, .error .busy], 0)
    let status (state : DfuState) : DeviceStatus := ⟨.ok, 0, state, 0⟩
    (program.run env good).1 = .finished (.ok (status .downloadIdle)) ∧
      (∃ k, w.Reaches ⟨0⟩ good clock k ∧ w.reply? ⟨0⟩ env good k = some (.ok (status .downloadIdle))) ∧
      (program.run env late).1 = .finished (.error (.timeout 20 [.downloadIdle] (some (status .downloadBusy)))) ∧
      20 ≤ (program.run env late).2.2 := by
  intro env clock w program good late status
  have hgood : (program.run env good).1 = .finished (.ok (status .downloadIdle)) := by decide +kernel
  have hlate : (program.run env late).1 =
      .finished (.error (.timeout 20 [.downloadIdle] (some (status .downloadBusy)))) := by decide +kernel
  obtain ⟨-, hbounded⟩ := run_is_bounded_wait env (answers_polled.timed _) clock w ⟨0⟩ good _ (Nat.le_refl _)
  obtain ⟨-, hbounded'⟩ := run_is_bounded_wait env (answers_polled.timed _) clock w ⟨0⟩ late _ (Nat.le_refl _)
  obtain ⟨k, hk, hreply, -⟩ := (hbounded.accepts _).mp hgood
  exact ⟨hgood, ⟨k, hk.1, hreply⟩, hlate, (hbounded'.late _ _ _ hlate).2.2.1⟩

end Wait

end Reflash
