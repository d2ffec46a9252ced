import Reflash.Proofs.BoundedSearch
import Reflash.Proofs.Commands

/-!
# Reflash.Proofs.Lookup — the lookup of a command and the scan of a search choose alike

A command looks for the camera with the serial number that it was given (`Command.findCamera`), a session for
the one it lost (`Search.run`).  The two read a listing by the same rules and word their notes differently:
without what they write to the log they are the same program (`unlogged_choose`).  Where the cameras do not
see the log (`Shown`), programs that are the same without it end alike, and make the same calls on the
cameras with the same answers.
-/

namespace Reflash

open Program

/-! ## Programs without their notes -/

/-- The program without what it writes to the log. -/
def Program.unlogged {α : Type} : Action α → Action α
  | .done a => .done a
  | .stalled => .stalled
  | .call (.inr (.log _)) next => (next ()).unlogged
  | .call c next => .call c fun answer => (next answer).unlogged

section Unlogged

variable {α β : Type}

@[simp] theorem unlogged_done (a : α) : (done a : Action α).unlogged = done a := rfl

@[simp] theorem unlogged_bind (p : Action α) (f : α → Action β) :
    (p.bind f).unlogged = p.unlogged.bind fun a => (f a).unlogged := by
  induction p with
  | done a => rfl
  | stalled => rfl
  | call c next ih =>
    rcases c with c | c
    · exact congrArg (call _) (funext fun answer => ih answer)
    cases c with
    | log r => exact ih ()
    | _ => exact congrArg (call _) (funext fun answer => ih answer)

@[simp] theorem unlogged_ask (c : CameraCall) : @Program.unlogged (no_index c.Answer) (ask c) = ask c :=
  rfl

@[simp] theorem unlogged_report (level : LogLevel) (text : String) : (report level text).unlogged = done () := rfl

end Unlogged

/-! ## One listing -/

/-- The mode of the cameras that a search accepts. -/
def Wanted.mode : Wanted → Mode
  | .recovery => .recovery
  | .normal => .normal

theorem Wanted.accepts_iff (w : Wanted) (c : DeviceClass) : w.accepts c = true ↔ c.mode = w.mode := by
  rcases c with ⟨line, mode⟩
  cases w <;> cases mode <;> simp [accepts, DeviceClass.isRecovery, Wanted.mode]

/-- How both read a listing: the first camera in the mode that gives the identity.  A camera that gives another
one, none, or a failure is passed over. -/
def firstOf (w : Wanted) (identity : String) : List Camera → Action (Option Camera)
  | [] => return none
  | c :: rest =>
    if w.accepts c.kind then
      (identityOf c).unlogged.bind fun reply =>
        if reply = .ok (some identity) then return some c else firstOf w identity rest
    else firstOf w identity rest

theorem Search.unlogged_pick (s : Search) (listing : List Camera) :
    (s.pick listing).unlogged = firstOf s.wanted s.identity listing := by
  induction listing with
  | nil => rfl
  | cons c rest ih =>
    rw [firstOf, pick]
    cases s.wanted.accepts c.kind with
    | false => exact ih
    | true =>
      rw [if_pos rfl]
      refine (unlogged_bind _ _).trans (congrArg (identityOf c).unlogged.bind (funext fun reply => ?_))
      rcases reply with e | _ | identity
      · exact ih
      · exact ih
      · by_cases hid : identity = s.identity
        · simp [hid]
        · simpa [hid] using ih

theorem Command.unlogged_choose (w : Wanted) (serial : String) (listing : List Camera) :
    (choose (some serial) w.mode listing).unlogged = firstOf w serial listing := by
  induction listing with
  | nil => rfl
  | cons c rest ih =>
    rw [firstOf, choose]
    by_cases hmode : w.accepts c.kind = true
    · rw [if_pos hmode, if_neg (not_not.mpr ((w.accepts_iff _).mp hmode))]
      refine (unlogged_bind _ _).trans (congrArg (identityOf c).unlogged.bind (funext fun reply => ?_))
      rcases reply with e | _ | identity
      · exact ih
      · exact ih
      · by_cases hid : identity = serial
        · simp [hid]
        · simpa [hid] using ih
    · rw [if_neg hmode, if_pos (mt (w.accepts_iff _).mpr hmode)]
      exact ih

/-! ## One look at the cameras -/

/-- The program that only tells whether the attempt succeeded, and with what. -/
def Attempt.result? {ε α : Type} (x : Attempt ε α) : Action (Option α) := x.run.bind fun r => .done r.toOption

namespace Attempt

variable {δ ε α β : Type}

theorem run_result? {σ : Type} {env : Environment (cameras.sum host) σ} {x : Attempt ε α} {s : σ} {a : α}
    (hx : (Program.run env x.run s).1 = .finished (.ok a)) : (x.result?.run env s).1 = .finished (some a) := by
  rw [result?, run_bind_of_finished (Prod.ext (y := (_, (Program.run env x.run s).2)) hx rfl)]
  rfl

theorem history_result? {σ : Type} (env : Environment (cameras.sum host) σ) (x : Attempt ε α) (s : σ) :
    x.result?.history env s = Program.history env x.run s := by
  rw [result?, history_bind]
  rcases Program.run env x.run s with ⟨r | _ | _, s'⟩ <;> exact List.append_nil _

theorem result?_bind (x : Attempt ε α) (f : α → Attempt ε β) :
    (x >>= f).result? = x.result?.bind fun a? => match a? with
      | some a => (f a).result?
      | none => .done none := by
  rw [result?, run_bind, result?, Program.bind_assoc, Program.bind_assoc]
  congr
  funext r
  cases r <;> rfl

theorem result?_lift (p : Action α) : (liftM p : Attempt ε α).result? = p.bind fun a => .done (some a) := by
  rw [result?, run_lift, Program.bind_assoc]
  rfl

theorem result?_of (f : δ → ε) (x : Action (Except δ α)) :
    (Attempt.of f x).result? = x.bind fun r => .done r.toOption := by
  rw [result?, run_of, Program.bind_assoc]
  congr
  funext r
  cases r <;> rfl

end Attempt

theorem Command.result?_findCamera (serial? : Option String) (mode : Mode) :
    (findCamera serial? mode).result? = (ask .list).bind fun reply => match reply with
      | .ok found => choose serial? mode found
      | .error _ => .done none := by
  rw [findCamera, Attempt.result?_bind, enumerate, Attempt.result?_of, Program.bind_assoc]
  congr
  funext reply
  rcases reply with e | found
  · rfl
  show Attempt.result? (liftM (choose serial? mode found) >>= _) = choose serial? mode found
  rw [Attempt.result?_bind, Attempt.result?_lift, Program.bind_assoc]
  conv_rhs => rw [← bind_done (choose serial? mode found)]
  congr
  funext camera?
  cases camera? <;> rfl

/-- A lookup and a scan differ in their notes, and in how they report that they found nothing. -/
theorem unlogged_findCamera (s : Search) :
    (Command.findCamera (some s.identity) s.wanted.mode).result?.unlogged = s.scan.unlogged := by
  rw [Command.result?_findCamera, Search.scan, bind_eq, unlogged_bind, unlogged_bind]
  congr
  funext reply
  rcases reply with e | found
  · rfl
  · exact (Command.unlogged_choose _ _ found).trans (s.unlogged_pick found).symm

/-! ## Cameras that do not see the log -/

/-- Whether a call is a note, a look at the clock or a look at the request to stop. -/
def HostCall.isAside : HostCall → Bool
  | .now | .stopRequested | .log _ => true
  | _ => false

/-- What the cameras answer depends on `view` alone.  Notes and looks at the clock and at the request to stop
are answered, and leave it as it is. -/
structure Environment.Shows {σ ν : Type} (env : Environment (cameras.sum host) σ) (view : σ → ν) : Prop where
  answer_eq : ∀ (c : CameraCall) (x y : σ), view x = view y → (env (.inl c) x).1 = (env (.inl c) y).1
  view_eq : ∀ (c : CameraCall) (x y : σ), view x = view y → view (env (.inl c) x).2 = view (env (.inl c) y).2
  aside_answer : ∀ (c : HostCall) (x : σ), c.isAside = true → (env (.inr c) x).1 ≠ none
  aside_view : ∀ (c : HostCall) (x : σ), c.isAside = true → view (env (.inr c) x).2 = view x

/-- The calls on cameras. -/
def onCameras (h : History) : History := h.filter fun e => e.call.isLeft

section OnCameras

variable {h h₁ h₂ : History}

@[simp] theorem onCameras_nil : onCameras [] = [] := rfl

@[simp] theorem onCameras_append : onCameras (h₁ ++ h₂) = onCameras h₁ ++ onCameras h₂ := List.filter_append ..

@[simp] theorem onCameras_asked (c : CameraCall) (a? : Option c.Answer) :
    onCameras (.asked c a? :: h) = .asked c a? :: onCameras h := rfl

@[simp] theorem onCameras_told (c : HostCall) (a? : Option c.Answer) :
    onCameras (.told c a? :: h) = onCameras h := rfl

end OnCameras

/-- Two runs that the cameras cannot tell apart: they end alike, make the same calls on cameras with the same
answers, and leave the same view. -/
structure Alike {σ ν α : Type} (env : Environment (cameras.sum host) σ) (view : σ → ν) (p : Action α)
    (x : σ) (q : Action α) (y : σ) : Prop where
  ending : (p.run env x).1 = (q.run env y).1
  calls : onCameras (p.history env x) = onCameras (q.history env y)
  view : view (p.run env x).2 = view (q.run env y).2

namespace Alike

variable {σ ν α : Type} {env : Environment (cameras.sum host) σ} {view : σ → ν} {p q r : Action α} {x y z : σ}

theorem symm (h : Alike env view p x q y) : Alike env view q y p x := ⟨h.ending.symm, h.calls.symm, h.view.symm⟩

theorem trans (h₁ : Alike env view p x q y) (h₂ : Alike env view q y r z) : Alike env view p x r z :=
  ⟨h₁.ending.trans h₂.ending, h₁.calls.trans h₂.calls, h₁.view.trans h₂.view⟩

/-- The same call with the same answer, and then alike. -/
theorem ask {c : CameraCall} {next next' : c.Answer → Action α} (hanswer : (env (.inl c) x).1 = (env (.inl c) y).1)
    (hview : view (env (.inl c) x).2 = view (env (.inl c) y).2)
    (hnext : ∀ a, Alike env view (next a) (env (.inl c) x).2 (next' a) (env (.inl c) y).2) :
    Alike env view (call (.inl c) next) x (call (.inl c) next') y := by
  rcases hx : env (.inl c) x with ⟨a?, x'⟩
  rcases hy : env (.inl c) y with ⟨b?, y'⟩
  rw [hx, hy] at hanswer hview hnext
  obtain rfl : a? = b? := hanswer
  cases a? with
  | none =>
    exact ⟨by rw [run, run, hx, hy], by rw [history, history, hx, hy], by rw [run, run, hx, hy]; exact hview⟩
  | some a =>
    refine ⟨?_, ?_, ?_⟩
    · rw [run, run, hx, hy]
      exact (hnext a).ending
    · rw [history, history, hx, hy]
      exact congrArg (.asked c (some a) :: ·) (hnext a).calls
    · rw [run, run, hx, hy]
      exact (hnext a).view

/-- A call on the host does not count. -/
theorem tell {c : HostCall} {a : c.Answer} (hanswer : (env (.inr c) x).1 = some a) (f : c.Answer → Action α) :
    Alike env view ((tell c).bind f) x (f a) (env (.inr c) x).2 := by
  have hrun := run_tell_bind hanswer f
  exact ⟨by rw [hrun], by rw [history_tell_bind hanswer f, onCameras_told], by rw [hrun]⟩

end Alike

/-- The calls of a look at the cameras. -/
def asksOrNotes : (cameras.sum host).Call → Prop
  | .inl _ | .inr (.log _) => True
  | .inr _ => False

namespace Environment.Shows

variable {σ ν α : Type} {env : Environment (cameras.sum host) σ} {view : σ → ν}
  (hview : env.Shows view) {p q : Action α} {x y : σ}
include hview

theorem note (r : LogRecord) (x : σ) : (env (.inr (.log r)) x).1 = some () :=
  Option.eq_some_iff_get_eq.mpr ⟨Option.isSome_iff_ne_none.mpr (hview.aside_answer (.log r) x rfl), rfl⟩

theorem now (x : σ) : ∃ t, (env (.inr .now) x).1 = some t :=
  Option.ne_none_iff_exists'.mp (hview.aside_answer .now x rfl)

/-- A look at the request to stop, where there is none. -/
theorem look {heedsStop : Bool} (hcalm : heedsStop = true → env.NoStop) (f : Bool → Action α) (x : σ) :
    ∃ z, view z = view x ∧ Alike env view ((shouldStop heedsStop).bind f) x (f false) z := by
  cases heedsStop with
  | false => exact ⟨x, rfl, rfl, rfl, rfl⟩
  | true =>
    obtain ⟨stop, hstop⟩ := Option.ne_none_iff_exists'.mp (hview.aside_answer .stopRequested x rfl)
    cases stop with
    | true => exact absurd hstop (hcalm rfl x)
    | false => exact ⟨_, hview.aside_view .stopRequested x rfl, .tell hstop f⟩

/-- The notes of a program make no difference to the cameras. -/
theorem alike_unlogged (hp : p.Only asksOrNotes) (hxy : view x = view y) : Alike env view p x p.unlogged y := by
  induction p generalizing x y with
  | done a => exact ⟨rfl, rfl, hxy⟩
  | stalled => exact ⟨rfl, rfl, hxy⟩
  | call c next ih =>
    rcases c with c | c
    · have hanswer := hview.answer_eq c x y hxy
      have hnext := hview.view_eq c x y hxy
      exact .ask hanswer hnext fun a => ih a (hp.2 a) hnext
    cases c with
    | log r =>
      have hnext := ih () (hp.2 ()) ((hview.aside_view (.log r) x rfl).trans hxy)
      exact (Alike.tell (hview.note r x) next).trans hnext
    | _ => exact hp.1.elim

/-- Programs that are the same without their notes are the same to the cameras. -/
theorem alike (hp : p.Only asksOrNotes) (hq : q.Only asksOrNotes) (hpq : p.unlogged = q.unlogged)
    (hxy : view x = view y) :
    Alike env view p x q y :=
  (hview.alike_unlogged hp rfl).trans (hpq ▸ (hview.alike_unlogged hq hxy.symm).symm)

end Environment.Shows

/-! ## The lookup and the search -/

/-- The calls of a look at the cameras are reads of the listing and of identities, and notes. -/
theorem asksOrNotes_of_kinds {c : (cameras.sum host).Call} (hc : ofKinds [.log, .list, .identity] c) :
    asksOrNotes c := by
  rcases c with c | c
  · trivial
  · cases c with
    | log r => trivial
    | write w => cases hw : w.isVerdict <;> simp [hw] at hc
    | _ => simp at hc

namespace Search

variable {σ ν : Type} {env : Environment (cameras.sum host) σ} {view : σ → ν} (s : Search) {x y : σ}

theorem only_result?_findCamera : (Command.findCamera (some s.identity) s.wanted.mode).result?.Only asksOrNotes :=
  only_bind (Command.only_findCamera.mono fun c hc => asksOrNotes_of_kinds (ofKinds.mono (by simp) c hc))
    fun _ => trivial

/-- A lookup and a scan do the same to the cameras. -/
theorem alike_findCamera (hview : env.Shows view) (hxy : view x = view y) :
    Alike env view (Command.findCamera (some s.identity) s.wanted.mode).result? x s.scan y :=
  hview.alike s.only_result?_findCamera (only_scan.mono fun _ => asksOrNotes_of_kinds) (unlogged_findCamera s) hxy

/-- The first round of a search that nobody stops: a look at the cameras, and the end of the search
if that found the unit. -/
theorem alike_run (hview : env.Shows view) (hcalm : s.heedsStop = true → env.NoStop) (y : σ) :
    ∃ (z : σ) (goOn : Option Camera → Action (Except SearchError Camera)), view z = view y ∧
      Alike env view s.run y (s.scan.bind goOn) z ∧
      ∀ c w, ∃ w', Alike env view (goOn (some c)) w (.done (.ok c)) w' := by
  obtain ⟨start, hstart⟩ := hview.now y
  obtain ⟨rounds, hrounds⟩ := Nat.exists_eq_succ_of_ne_zero (Nat.ne_of_gt (roundsWithin_pos s.timeout s.interval))
  have hbegun : Alike env view s.run y (s.loop start (rounds + 1)) (s.begun env y) := by
    rw [run_eq_runFor, hrounds]
    exact (Alike.tell hstart _).trans (.tell (hview.note _ _) _)
  have hsame : view (s.begun env y) = view y :=
    (hview.aside_view (.log s.opening) _ rfl).trans (hview.aside_view .now y rfl)
  obtain ⟨z, hz, hlook⟩ : ∃ z, view z = view (s.begun env y) ∧
    Alike env view (s.loop start (rounds + 1)) (s.begun env y) _ z := hview.look hcalm _ _
  refine ⟨z, _, hz.trans hsame, hbegun.trans hlook, fun c w => ?_⟩
  obtain ⟨now, hnow⟩ := hview.now w
  exact ⟨_, (Alike.tell hnow _).trans (.tell (hview.note _ _) _)⟩

/-- A search that nobody stops ends with its first scan if that finds the unit. -/
theorem run_of_scan (hview : env.Shows view) (hcalm : s.heedsStop = true → env.NoStop) {c : Camera}
    (hscan : ∀ z, view z = view y → (s.scan.run env z).1 = .finished (some c)) :
    ∃ z, view z = view y ∧ (s.run.run env y).1 = .finished (.ok c) ∧
      onCameras (s.run.history env y) = onCameras (s.scan.history env z) := by
  obtain ⟨z, goOn, hz, hrun, hfound⟩ := s.alike_run hview hcalm y
  have hfinished : s.scan.run env z = (.finished (some c), (s.scan.run env z).2) := Prod.ext (hscan z hz) rfl
  obtain ⟨w, hw⟩ := hfound c (s.scan.run env z).2
  refine ⟨z, hz, ?_, ?_⟩
  · rw [hrun.ending, run_bind_of_finished hfinished, hw.ending]
    rfl
  · rw [hrun.calls, history_bind_of_finished hfinished, onCameras_append, hw.calls]
    exact List.append_nil _

/-- The lookup of a command and the scan of a search read every listing alike: they choose the same camera or
none, and make the same calls on the same cameras in the same order.  So the camera that a command finds is the
one with which a search for the same serial number and mode would have ended, then and there. -/
theorem lookup_agrees (hview : env.Shows view) (hxy : view x = view y) :
    (∀ listing, Alike env view (Command.choose (some s.identity) s.wanted.mode listing) x (s.pick listing) y) ∧
    Alike env view (Command.findCamera (some s.identity) s.wanted.mode).result? x s.scan y ∧
    ∀ c, ((Command.findCamera (some s.identity) s.wanted.mode).run.run env x).1 = .finished (.ok c) →
      (s.heedsStop = true → env.NoStop) →
        (s.run.run env y).1 = .finished (.ok c) ∧
        onCameras (s.run.history env y) =
          onCameras ((Command.findCamera (some s.identity) s.wanted.mode).run.history env x) := by
  refine ⟨fun listing => ?_, s.alike_findCamera hview hxy, fun c hfound hcalm => ?_⟩
  · have hchoose : (Command.choose (some s.identity) s.wanted.mode listing).Only asksOrNotes :=
      (Command.only_choose (by simp) (by simp) listing).mono fun _ => asksOrNotes_of_kinds
    have hpick : (s.pick listing).Only asksOrNotes :=
      (only_pick listing).mono fun c hc => asksOrNotes_of_kinds (ofKinds.mono (by simp) c hc)
    exact hview.alike hchoose hpick ((Command.unlogged_choose _ _ listing).trans (s.unlogged_pick listing).symm)
      hxy
  · have hscan : ∀ z, view z = view y → (s.scan.run env z).1 = .finished (some c) := fun z hz =>
      (s.alike_findCamera hview (hxy.trans hz.symm)).ending.symm.trans (Attempt.run_result? hfound)
    obtain ⟨z, hz, hend, hcalls⟩ := s.run_of_scan hview hcalm hscan
    refine ⟨hend, hcalls.trans ?_⟩
    rw [← (s.alike_findCamera hview (hxy.trans hz.symm)).calls, Attempt.history_result?]

/-! A listing with a camera in recovery mode, a busy one, and two units with one serial number. -/

namespace Crowd

def loader : Camera := ⟨0, ⟨.d400, .recovery⟩, "loader"⟩

def busy : Camera := ⟨1, ⟨.d400, .normal⟩, "busy"⟩

def first : Camera := ⟨2, ⟨.d400, .normal⟩, "first"⟩

def second : Camera := ⟨3, ⟨.d400, .normal⟩, "second"⟩

def world : Environment (cameras.sum host) Unit
  | .inl .list, u => (some (.ok [loader, busy, first, second]), u)
  | .inl (.serial c), u => (some (if c = busy then .error .busy else .ok (some "unit")), u)
  | c, u => ((Obliging.world c { camera := first }).1, u)

theorem shows_id : world.Shows id where
  answer_eq _ _ _ _ := rfl
  view_eq _ _ _ _ := rfl
  aside_answer c _ hc := by
    cases c with
    | now | stopRequested | log r => exact nofun
    | _ => cases hc
  aside_view _ _ _ := rfl

def search : Search := { identity := "unit", wanted := .normal, timeout := 0, heedsStop := true }

end Crowd

/-- The camera in recovery mode and the busy one are passed over, and of the two units the first one is taken. -/
theorem lookup_agrees_in_crowd : Crowd.world.Shows id ∧
    ((Command.findCamera (some "unit") .normal).run.run Crowd.world ()).1 = .finished (.ok Crowd.first) ∧
    (Crowd.search.run.run Crowd.world ()).1 = .finished (.ok Crowd.first) := by
  have hfound : ((Command.findCamera (some "unit") .normal).run.run Crowd.world ()).1 =
      .finished (.ok Crowd.first) := by
    decide
  have hcalm : Crowd.world.NoStop := fun _ => nofun
  exact ⟨Crowd.shows_id, hfound,
    ((Crowd.search.lookup_agrees Crowd.shows_id rfl).2.2 Crowd.first hfound fun _ => hcalm).1⟩

end Search

end Reflash
