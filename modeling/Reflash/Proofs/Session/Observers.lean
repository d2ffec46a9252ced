import Reflash.Command
import Reflash.Proofs.Session.DeadTask
import Reflash.Proofs.Session.Records

/-!
# Reflash.Proofs.Session.Observers — a session as those see it who watch it run

The task of a session and its follower run side by side: at each `Moment` the task makes a call, or the follower
takes a copy of the record, shows the lines that are new, and stops if the session is done.  In whatever order
these moments come, the records that the follower sees are records of one session, each of which grows into the
next (`Watch.Faithful`), so the follower shows the log as it is written, without a gap; and as it shows a record
before it stops at it, what it has shown in the end is the whole log (`observers_see_one_session`).
`Command.follow` shows the same lines in one look at the end.
-/

namespace Reflash

open Program

namespace Session

/-! ## Records that grow -/

namespace Record

/-- From one record of a session to a later one, the log is only appended to, and what is done stays done. -/
structure Grows (r r' : Record) : Prop where
  log : r.log <+: r'.log
  done : r.done = true → r'.done = true

/-- Flag, phase and outcome tell the same. -/
structure Coherent (r : Record) : Prop where
  phase : r.done = true ↔ r.phase.isTerminal = true
  outcome : r.phase.isTerminal = true ↔ r.outcome?.isSome = true

variable {r r' r'' : Record} {h : History}

theorem grows_refl (r : Record) : r.Grows r := ⟨List.prefix_refl _, id⟩

theorem Grows.trans (h₁ : r.Grows r') (h₂ : r'.Grows r'') : r.Grows r'' :=
  ⟨h₁.log.trans h₂.log, fun hdone => h₂.done (h₁.done hdone)⟩

theorem grows_apply (r : Record) (w : Write) : r.Grows (r.apply w) := by
  cases w with
  | phase p => exact ⟨List.prefix_refl _, id⟩
  | progress n => exact ⟨List.prefix_refl _, id⟩
  | log line => exact ⟨List.prefix_append _ _, id⟩
  | finishDone => exact ⟨List.prefix_refl _, fun _ => rfl⟩
  | finishFailed reason => exact ⟨List.prefix_refl _, fun _ => rfl⟩

theorem grows_after (r : Record) (h : History) : r.Grows (r.after h) :=
  after_keeps (grows_refl r) fun _ _ w _ r' hr => hr.trans (grows_apply r' w)

theorem grows_of_prefix {before : History} (hbefore : before <+: h) :
    (initial.after before).Grows (initial.after h) := by
  obtain ⟨rest, rfl⟩ := hbefore
  rw [after_append]
  exact grows_after _ rest

theorem outcome?_isSome (r : Record) : r.outcome?.isSome = r.phase.isTerminal := by
  unfold outcome? Phase.isTerminal
  cases r.phase <;> rfl

theorem Underway.coherent (hr : r.Underway) : r.Coherent :=
  ⟨by rw [hr.phase, hr.done], by rw [outcome?_isSome]⟩

theorem Ended.isTerminal {o : Outcome} (hr : r.Ended o) : r.phase.isTerminal = true := by
  cases o <;> rw [hr.1] <;> rfl

theorem Ended.done {o : Outcome} (hr : r.Ended o) : r.done = true := by
  cases o <;> exact hr.2.1

theorem Ended.coherent {o : Outcome} (hr : r.Ended o) : r.Coherent :=
  ⟨by rw [hr.isTerminal, hr.done], by rw [outcome?_isSome]⟩

end Record

/-! ## A task and its follower -/

/-- What happens next while a session is followed: its task makes a call, or the follower looks. -/
inductive Moment where
  | call (e : Event (cameras.sum host))
  | look

def Moment.call? : Moment → Option (Event (cameras.sum host))
  | .call e => some e
  | .look => none

/-- The calls at some moments. -/
def callsAt (moments : List Moment) : History := moments.filterMap Moment.call?

@[simp] theorem callsAt_append (ms ms' : List Moment) : callsAt (ms ++ ms') = callsAt ms ++ callsAt ms' :=
  List.filterMap_append ..

@[simp] theorem callsAt_look : callsAt [.look] = [] := rfl

/-- Looks between the calls change no call. -/
theorem callsAt_looking (h : History) : callsAt (h.flatMap fun e => [.look, .call e]) = h := by
  induction h with
  | nil => rfl
  | cons e h ih =>
    rw [List.flatMap_cons, callsAt_append, ih]
    rfl

/-- A session that is followed. -/
structure Watch where
  record : Record := .initial
  follower : Follower := {}
  /-- The records that the follower has seen, in this order. -/
  shots : List Record := []
  /-- The follower has seen that the session is done. -/
  stopped : Bool := false

/-- A look is at one copy of the record; the follower shows it before it asks whether the session is done. -/
def Watch.next (w : Watch) : Moment → Watch
  | .call e => { w with record := w.record.hear e }
  | .look =>
    if w.stopped then w
    else { w with follower := w.follower.look w.record, shots := w.shots ++ [w.record], stopped := w.record.done }

/-- A session that is followed, after these moments. -/
def watch (moments : List Moment) : Watch := moments.foldl Watch.next {}

theorem Watch.next_look_of_stopped {w : Watch} (hstopped : w.stopped = true) : w.next .look = w := by
  rw [next, if_pos hstopped]

theorem Watch.next_look {w : Watch} (hgoing : w.stopped = false) : w.next .look =
    { w with follower := w.follower.look w.record, shots := w.shots ++ [w.record], stopped := w.record.done } := by
  simp [next, hgoing]

theorem watch_concat (ms : List Moment) (m : Moment) : watch (ms ++ [m]) = (watch ms).next m := by
  simp [watch]

namespace Follower

variable {f : Follower} {r : Record}

/-- A follower who has shown the first lines of a log shows the whole log. -/
theorem lines_look (hseen : f.seen = f.lines.length) (hlines : f.lines <+: r.log) : (f.look r).lines = r.log := by
  obtain ⟨rest, hrest⟩ := hlines
  rw [look, hseen, ← hrest, List.drop_left]

/-- As long as nothing is done, a follower looks at one record after another. -/
theorem follow_eq_foldl {rs : List Record} (hrs : ∀ r ∈ rs, r.done = false) (f : Follower) :
    f.follow rs = rs.foldl look f := by
  have happend := follow_append hrs f []
  rwa [List.append_nil, follow] at happend

theorem follow_concat {rs : List Record} (hrs : ∀ r ∈ rs, r.done = false) (f : Follower) (r : Record) :
    f.follow (rs ++ [r]) = (f.follow rs).look r := by
  rw [follow_append hrs, follow_eq_foldl hrs, follow]
  split <;> rfl

end Follower

/-- What has been shown of a session that made the calls `h` is true of it. -/
structure Watch.Faithful (h : History) (w : Watch) : Prop where
  record : w.record = Record.initial.after h
  shots : ∀ r ∈ w.shots, ∃ before, before <+: h ∧ r = Record.initial.after before
  grows : w.shots.Pairwise Record.Grows
  follower : w.follower = Follower.follow {} w.shots
  seen : w.follower.seen = w.follower.lines.length
  lines : w.follower.lines <+: w.record.log
  going : w.stopped = false → ∀ r ∈ w.shots, r.done = false
  stopped : w.stopped = true → ∃ before, before <+: h ∧ (Record.initial.after before).done = true ∧
    w.follower.lines = (Record.initial.after before).log

section Faithful

variable {h : History} {w : Watch}

theorem faithful_initial : Watch.Faithful [] {} where
  record := rfl
  shots := by simp
  grows := .nil
  follower := rfl
  seen := rfl
  lines := List.nil_prefix
  going := by simp
  stopped := by simp

/-- The record moves on, and the follower has not seen that yet. -/
theorem Watch.Faithful.call (hw : w.Faithful h) (e : Event (cameras.sum host)) :
    (w.next (.call e)).Faithful (h ++ [e]) where
  record := by rw [Watch.next, hw.record, Record.after_append, Record.after_cons, Record.after_nil]
  shots := fun r hr => by
    obtain ⟨before, hbefore, heq⟩ := hw.shots r hr
    exact ⟨before, hbefore.trans (List.prefix_append h [e]), heq⟩
  grows := hw.grows
  follower := hw.follower
  seen := hw.seen
  lines := hw.lines.trans (Record.grows_after w.record [e]).log
  going := hw.going
  stopped := fun hstopped => by
    obtain ⟨before, hbefore, hdone⟩ := hw.stopped hstopped
    exact ⟨before, hbefore.trans (List.prefix_append h [e]), hdone⟩

/-- The follower takes up what the log has gained. -/
theorem Watch.Faithful.look (hw : w.Faithful h) : (w.next .look).Faithful h := by
  by_cases hstopped : w.stopped = true
  · rwa [Watch.next_look_of_stopped hstopped]
  have hgoing : ∀ r ∈ w.shots, r.done = false := hw.going (by simpa using hstopped)
  have hshows : (w.follower.look w.record).lines = w.record.log := Follower.lines_look hw.seen hw.lines
  rw [Watch.next_look (by simpa using hstopped)]
  exact {
    record := hw.record
    shots := fun r hr => by
      rcases List.mem_append.mp hr with hr | hr
      · exact hw.shots r hr
      · obtain rfl := List.mem_singleton.mp hr
        exact ⟨h, List.prefix_refl h, hw.record⟩
    -- The record that is seen now comes after those that were seen before.
    grows := by
      refine List.pairwise_append.mpr ⟨hw.grows, List.pairwise_singleton _ _, fun r hr r' hr' => ?_⟩
      obtain ⟨before, hbefore, rfl⟩ := hw.shots r hr
      obtain rfl := List.mem_singleton.mp hr'
      rw [hw.record]
      exact Record.grows_of_prefix hbefore
    follower := by rw [Follower.follow_concat hgoing, ← hw.follower]
    seen := congrArg List.length hshows.symm
    lines := hshows ▸ List.prefix_refl _
    going := fun hdone r hr => by
      rcases List.mem_append.mp hr with hr | hr
      · exact hgoing r hr
      · rwa [List.mem_singleton.mp hr]
    stopped := fun hdone => ⟨h, List.prefix_refl h, hw.record ▸ hdone, hshows.trans (hw.record ▸ rfl)⟩ }

/-- Whatever the order of calls and looks. -/
theorem faithful_watch (moments : List Moment) : (watch moments).Faithful (callsAt moments) := by
  induction moments using List.reverseRecOn with
  | nil => exact faithful_initial
  | append_singleton ms m ih =>
    rw [watch_concat, callsAt_append]
    cases m with
    | call e => exact ih.call e
    | look => exact (List.append_nil _).symm ▸ ih.look

/-- What a follower skips lies in the log. -/
theorem Watch.Faithful.seen_le (hw : w.Faithful h) : w.follower.seen ≤ w.record.log.length := by
  rw [hw.seen]
  exact hw.lines.length_le

end Faithful

/-! ## The command -/

/-- A line above the progress bar. -/
def aboveBar (line : String) : Event (cameras.sum host) := .told (.aboveBar line) (some ())

theorem finishes_showLines {lines : List String} {h : History} {u : Unit}
    (hf : (Command.follow.showLines lines).Finishes h u) : h = lines.map aboveBar := by
  induction lines generalizing h with
  | nil => exact (finishes_done.mp hf).1
  | cons line lines ih =>
    simp only [Command.follow.showLines, bind_eq, finishes_bind, finishes_tell] at hf
    obtain ⟨_, _, h₂, rfl, rfl, hf⟩ := hf
    rw [ih hf]
    rfl

/-- A command that follows a session takes the bar away once it has shown the log of the session, and
fails as the session does. -/
theorem finishes_follow {session : Action Unit} {h : History} {answer : Except CommandError Unit}
    (hf : (Command.follow session).Finishes h answer) : ∃ h₁ rest, session.Finishes h₁ () ∧
      h = .told (.bar true) (some ()) :: (h₁ ++ (Record.initial.after h₁).log.map aboveBar ++ rest) ∧
      (∀ e ∈ rest, ∀ line, e.call ≠ .inr (.aboveBar line)) ∧
      (answer = .ok () ↔ outcome (.finished ()) (Record.initial.after h₁) = .done) := by
  unfold Command.follow at hf
  rw [Attempt.Finishes, Attempt.run_lift_bind, finishes_bind] at hf
  obtain ⟨_, h₀, _, rfl, hbar, hf⟩ := hf
  obtain rfl := finishes_tell.mp hbar
  rw [Attempt.run_lift_bind, finishes_bind] at hf
  obtain ⟨⟨u, record⟩, h₁, _, rfl, hrecorded, hf⟩ := hf
  obtain ⟨hsession, rfl⟩ := finishes_recorded.mp hrecorded
  rw [Attempt.run_lift_bind, finishes_bind] at hf
  obtain ⟨_, h₂, _, rfl, hshown, hf⟩ := hf
  obtain rfl := finishes_showLines hshown
  rw [Attempt.run_lift_bind, finishes_bind] at hf
  obtain ⟨_, h₃, h₄, rfl, hbar, hf⟩ := hf
  obtain rfl := finishes_tell.mp hbar
  refine ⟨h₁, .told (.bar false) (some ()) :: h₄, hsession, by simp [Follower.look], ?_⟩
  cases ho : outcome (.finished ()) (Record.initial.after h₁) with
  | done =>
    rw [ho] at hf
    cases answer with
    | ok u =>
      obtain rfl := finishes_tell.mp (Attempt.finishes_lift_ok.mp hf)
      exact ⟨by simp, by simp⟩
    | error e => exact absurd hf Attempt.not_finishes_lift_error
  | failed reason =>
    rw [ho] at hf
    obtain ⟨rfl, rfl⟩ := Attempt.finishes_throw.mp hf
    exact ⟨by simp, by simp⟩

/-! ## The guarantee -/

variable {config : UpdateConfig} {image : FirmwareImage} {camera : Camera}

/-- After some of its calls a session is under way, unless these are all its calls and it has finished. -/
theorem underway_or_ended {σ : Type} {env : Environment (cameras.sum host) σ} {s : σ} {before : History}
    (hbefore : before <+: (run config image camera).history env s) : (Record.initial.after before).Underway ∨
      before = (run config image camera).history env s ∧ ((run config image camera).run env s).1 = .finished () ∧
        ∃ o, (Record.initial.after before).Ended o := by
  obtain ⟨after, heq⟩ := hbefore
  by_cases hafter : after = []
  · subst hafter
    rw [List.append_nil] at heq
    subst heq
    by_cases hfin : ((run config image camera).run env s).1 = .finished ()
    · obtain ⟨_, _, _, r, -, -, -, hended⟩ := ended_of_finished hfin
      exact .inr ⟨rfl, hfin, outcomeOf r, hended⟩
    · exact .inl (underway_of_not_finished hfin)
  · exact .inl (underway_of_begins (heq ▸ begins_history env _ s) hafter)

theorem coherent_of_prefix {σ : Type} {env : Environment (cameras.sum host) σ} {s : σ} {before : History}
    (hbefore : before <+: (run config image camera).history env s) : (Record.initial.after before).Coherent := by
  rcases underway_or_ended hbefore with hr | ⟨-, -, o, hr⟩
  · exact hr.coherent
  · exact hr.coherent

/-- Only the last record of a session is done, and only if the session finished. -/
theorem finished_of_done {σ : Type} {env : Environment (cameras.sum host) σ} {s : σ} {before : History}
    (hbefore : before <+: (run config image camera).history env s)
    (hdone : (Record.initial.after before).done = true) :
    before = (run config image camera).history env s ∧ ((run config image camera).run env s).1 = .finished () := by
  rcases underway_or_ended hbefore with hr | ⟨heq, hfin, -⟩
  · rw [hr.done] at hdone
    cases hdone
  · exact ⟨heq, hfin⟩

/-- Whatever the order in which a session and its follower go on, what the follower sees is one session: each
record that it sees is coherent and grows into the next, and the lines that it skips are there.  It has shown
the log as far as it is written when it looked last.  It stops only when the session has finished, and then it
has shown the final log, each line once; and it stops at its first look after the session has finished.  The
command that follows a session shows the final log above its progress bar, and it succeeds exactly if those who
wait for the session are told that it is done. -/
theorem observers_see_one_session {σ : Type} (env : Environment (cameras.sum host) σ) (s : σ)
    {session : Action Unit} (hstart : start config camera image = .ok session) (moments : List Moment)
    (hmoments : callsAt moments <+: session.history env s) :
    let final := Record.initial.after (session.history env s)
    let w := watch moments
    (∀ r ∈ w.shots, r.Coherent) ∧ w.shots.Pairwise Record.Grows ∧
    (∀ before, before ++ [.look] <+: moments → (watch before).follower.seen ≤ (watch before).record.log.length) ∧
    w.follower = Follower.follow {} w.shots ∧ w.follower.lines <+: final.log ∧
    (w.stopped = true → (session.run env s).1 = .finished () ∧ callsAt moments = session.history env s ∧
      w.follower.lines = final.log) ∧
    ((session.run env s).1 = .finished () → callsAt moments = session.history env s →
      (watch (moments ++ [.look])).stopped = true) ∧
    ∀ s₀ answer, env (.inr (.bar true)) s₀ = (some (), s) →
      ((Command.follow session).run.run env s₀).1 = .finished answer →
      (session.run env s).1 = .finished () ∧
      (∃ rest, (Command.follow session).run.history env s₀ =
          .told (.bar true) (some ()) :: (session.history env s ++ final.log.map aboveBar ++ rest) ∧
        ∀ e ∈ rest, ∀ line, e.call ≠ .inr (.aboveBar line)) ∧
      (answer = .ok () ↔ result env s session = .done) := by
  intro final w
  obtain ⟨-, -, rfl⟩ := start_eq_ok.mp hstart
  have hw : w.Faithful (callsAt moments) := faithful_watch moments
  refine ⟨fun r hr => ?_, hw.grows, fun before _ => (faithful_watch before).seen_le, hw.follower, ?_,
    fun hstopped => ?_, fun hfin hall => ?_, fun s₀ answer hbar hcommand => ?_⟩
  · obtain ⟨before, hbefore, rfl⟩ := hw.shots r hr
    exact coherent_of_prefix (hbefore.trans hmoments)
  · exact hw.lines.trans (hw.record ▸ (Record.grows_of_prefix hmoments).log)
  · obtain ⟨before, hbefore, hdone, hlines⟩ := hw.stopped hstopped
    obtain ⟨rfl, hfin⟩ := finished_of_done (hbefore.trans hmoments) hdone
    exact ⟨hfin, hmoments.eq_of_length_le hbefore.length_le, hlines⟩
  · rw [watch_concat]
    by_cases hstopped : w.stopped = true
    · rwa [Watch.next_look_of_stopped hstopped]
    rw [Watch.next_look (by simpa using hstopped)]
    obtain ⟨_, _, _, _, -, -, -, hended⟩ := ended_of_finished hfin
    show w.record.done = true
    rw [hw.record, hall]
    exact hended.done
  · obtain ⟨h₁, rest, hsession, heq, hrest, hanswer⟩ := finishes_follow (finishes_history hcommand)
    have hgives := env.gives_history (Command.follow (run config image camera)).run s₀
    rw [heq] at hgives
    obtain ⟨-, hgives⟩ := hgives
    rw [hbar, List.append_assoc, env.gives_append] at hgives
    obtain rfl := (hsession.history_eq hgives.1).symm
    have hfin := run_of_finishes hsession
    refine ⟨hfin, ⟨rest, heq, hrest⟩, ?_⟩
    rw [hanswer, result, hfin]

/-- A follower that looks before each call of a session and once after its end, in a world in which
everything goes well. -/
theorem observers_see_one_session_obliging :
    let o : Obliging := { camera := Obliging.unit }
    let session := run Obliging.config Obliging.image Obliging.unit
    let h := session.history Obliging.world o
    let w := watch ((h.flatMap fun e => [.look, .call e]) ++ [.look])
    let command := (Command.follow session).run
    (∀ r ∈ w.shots, r.Coherent) ∧ w.stopped = true ∧ w.follower.lines = (Record.initial.after h).log ∧
      ∃ rest, command.history Obliging.world o =
        .told (.bar true) (some ()) :: (h ++ (Record.initial.after h).log.map aboveBar ++ rest) := by
  intro o session h w command
  have hfin : (session.run Obliging.world o).1 = .finished () := by decide +kernel
  have hanswer : (command.run Obliging.world o).1 = .finished (.ok ()) := by decide +kernel
  have hh : session.history Obliging.world o = h := rfl
  clear_value h
  have hcalls : callsAt (h.flatMap fun e => [.look, .call e]) = session.history Obliging.world o := by
    rw [callsAt_looking, hh]
  obtain ⟨-, -, -, -, -, -, hends, hcommand⟩ := observers_see_one_session Obliging.world o start_obliging
    (h.flatMap fun e => [.look, .call e]) ⟨[], by rw [List.append_nil, hcalls]⟩
  obtain ⟨-, ⟨rest, hrest, -⟩, -⟩ := hcommand o (.ok ()) rfl hanswer
  obtain ⟨hshots, -, -, -, -, hwhole, -⟩ := observers_see_one_session Obliging.world o start_obliging
    ((h.flatMap fun e => [.look, .call e]) ++ [.look])
    ⟨[], by rw [List.append_nil, callsAt_append, hcalls, callsAt_look, List.append_nil]⟩
  have hstopped : w.stopped = true := hends hfin hcalls
  obtain ⟨-, -, hlines⟩ := hwhole hstopped
  rw [hh] at hrest hlines
  exact ⟨hshots, hstopped, hlines, rest, hrest⟩

end Session

end Reflash
