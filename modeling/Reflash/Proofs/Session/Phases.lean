import Reflash.Proofs.Rules
import Reflash.Proofs.Session.DeadTask
import Reflash.Proofs.Session.Records

/-!
# Reflash.Proofs.Session.Phases — the way of a session through its phases

A session goes through its phases on one of four ways, and a failure cuts the way off (`Follows`); a call
on the cameras, the clock or the files is made in the phase that it belongs to (`Phase.calls`).  Both are
one rule, `itinerary`, and every step of a session obeys it: where the session is on its way (`OnWay`),
the calls of a phase keep it there (`keeps_stays`), and it leaves a phase only for the next one of its
way (`obeys_enterPhase`).
-/

namespace Reflash

open Program

namespace Session

/-! ## Ways -/

/-- The kinds of calls that belong to a phase. -/
def Phase.calls : Phase → List CallKind
  | .idle => [.identity, .openMonitor]
  | .backingUp => [.exchange, .files]
  | .enteringRecovery => [.restart]
  | .waitingForRecovery => [.list, .identity, .clock]
  | .transferring => [.openControl, .transfer, .clock]
  | .waitingForReconnect => [.list, .identity, .firmware, .clock]
  | .done | .failed _ => []

/-- The ways of a session that begins with a camera in a mode. -/
def routes : Mode → List (List Phase)
  | .normal =>
    [[.idle, .enteringRecovery, .waitingForRecovery, .transferring, .waitingForReconnect, .done],
      [.idle, .backingUp, .enteringRecovery, .waitingForRecovery, .transferring, .waitingForReconnect, .done]]
  | .recovery => [[.idle, .transferring, .done], [.idle, .transferring, .waitingForReconnect, .done]]

/-- The beginning of a way, or a beginning of it before its end that was cut off by a failure. -/
def Follows (mode : Mode) (ps : List Phase) : Prop :=
  ∃ route ∈ routes mode, ps ≠ [] ∧ (ps <+: route ∨ ∃ l reason, ps = l ++ [.failed reason] ∧ l ≠ [] ∧
    l <+: route.dropLast)

def offers : Event (cameras.sum host) → Bool
  | ⟨.inl (.openMonitor _), some offered⟩ => offered
  | _ => false

/-- A backup was wanted, and the camera offered its hardware monitor. -/
def backedUp (config : UpdateConfig) (h : History) : Bool := config.backup.isSome && h.any offers

theorem offers_of_kind {e : Event (cameras.sum host)} (he : kindOf e.call ≠ .openMonitor) : offers e = false := by
  obtain ⟨c | c, a?⟩ := e
  · cases c <;> first | rfl | exact absurd rfl he
  · rfl

theorem not_isEvent_write (w : Write) : isEvent (.inr (.write w)) ≠ true := by
  cases hw : w.isVerdict <;> simp [isEvent, hw, CallKind.isEvent]

theorem backedUp_concat {config : UpdateConfig} {h : History} {e : Event (cameras.sum host)}
    (he : offers e = false) :
    backedUp config (h ++ [e]) = backedUp config h := by
  simp [backedUp, he]

/-- The phases after the first one and a backup, but for the last one. -/
def onward : Mode → List Phase
  | .normal => [.enteringRecovery, .waitingForRecovery, .transferring, .waitingForReconnect]
  | .recovery => [.transferring, .waitingForReconnect]

/-- The phases up to some of the onward ones. -/
def way (saved : Bool) (rest : List Phase) : List Phase := .idle :: ((if saved then [.backingUp] else []) ++ rest)

/-- A session on its way: whether it has saved the flash, the phases after that, and the one in which it is. -/
structure OnWay (config : UpdateConfig) (mode : Mode) (saved : Bool) (rest : List Phase)
    (phase : Phase) (h : History) : Prop where
  phases_eq : phases h = way saved rest
  phase_eq : (Record.initial.after h).phase = phase
  backedUp_eq : backedUp config h = saved
  onRoute : rest <+: onward mode
  normal : mode = .recovery → saved = false

section Ways

variable {mode : Mode} {saved : Bool} {rest : List Phase}

theorem way_ne_nil : way saved rest ≠ [] := nofun

theorem way_append (l : List Phase) : way saved (rest ++ l) = way saved rest ++ l := by simp [way]

/-- The complete way, as far as it is the same for all sessions that begin so. -/
theorem exists_route (hrest : rest <+: onward mode) (hnormal : mode = .recovery → saved = false) :
    ∃ route ∈ routes mode, way saved rest <+: route.dropLast := by
  refine ⟨way saved (onward mode) ++ [.done], ?_, ?_⟩
  · cases mode with
    | normal => cases saved <;> simp [way, onward, routes]
    | recovery => simp [way, onward, routes, hnormal rfl]
  · obtain ⟨tail, htail⟩ := hrest
    rw [List.dropLast_concat, ← htail, way_append]
    exact List.prefix_append _ _

theorem follows_way (hrest : rest <+: onward mode) (hnormal : mode = .recovery → saved = false) :
    Follows mode (way saved rest) := by
  obtain ⟨route, hroute, hway⟩ := exists_route hrest hnormal
  exact ⟨route, hroute, way_ne_nil, .inl (hway.trans (List.dropLast_prefix route))⟩

theorem follows_failed (hrest : rest <+: onward mode) (hnormal : mode = .recovery → saved = false)
    (reason : String) :
    Follows mode (way saved rest ++ [.failed reason]) := by
  obtain ⟨route, hroute, hway⟩ := exists_route hrest hnormal
  exact ⟨route, hroute, by simp, .inr ⟨_, reason, rfl, way_ne_nil, hway⟩⟩

/-- Where a session may be done. -/
def Complete (mode : Mode) (rest : List Phase) : Prop :=
  rest = onward mode ∨ mode = .recovery ∧ rest = [.transferring]

theorem follows_done (hrest : Complete mode rest) (hnormal : mode = .recovery → saved = false) :
    Follows mode (way saved rest ++ [.done]) := by
  refine ⟨way saved rest ++ [.done], ?_, by simp, .inl (List.prefix_refl _)⟩
  rcases hrest with rfl | ⟨rfl, rfl⟩
  · cases mode with
    | normal => cases saved <;> simp [way, onward, routes]
    | recovery => simp [way, onward, routes, hnormal rfl]
  · simp [way, routes, hnormal rfl]

theorem mem_way_iff (hrest : rest <+: onward mode) : .backingUp ∈ way saved rest ↔ saved = true := by
  have hnot : Phase.backingUp ∉ rest := fun hmem => by
    have := hrest.subset hmem
    cases mode <;> simp [onward] at this
  cases saved <;> simp [way, hnot]

end Ways

/-! ## The rule -/

/-- Calls on cameras, clock and files are made in the phase that they belong to, a backup is a phase of the
session as soon as it can be, and whatever is written keeps the session on its way. -/
def itinerary (config : UpdateConfig) (mode : Mode) : Rule (cameras.sum host) History := .ofPast fun h c =>
  (isEvent c = true → kindOf c ∈ (Record.initial.after h).phase.calls ∧
    (.backingUp ∈ phases h ↔ backedUp config h = true)) ∧
    ∀ w, c = .inr (.write w) → Follows mode (phases (h ++ [.told (.write w) (some ())]))

/-- The calls that a session makes in a phase without leaving it. -/
def Stays (p : Phase) (c : (cameras.sum host).Call) : Prop :=
  kindOf c ≠ .openMonitor ∧ (kindOf c ∈ p.calls ∨ kindOf c ∈ [CallKind.log, .stop] ∨
    (∃ n, c = .inr (.write (.progress n))) ∨ ∃ line, c = .inr (.write (.log line)))

section Rule

variable {config : UpdateConfig} {mode : Mode} {saved : Bool} {rest : List Phase} {p : Phase} {h : History}

theorem Phase.not_write_of_mem_calls {k : CallKind} (hk : k ∈ p.calls) : k ≠ .record ∧ k ≠ .verdict := by
  cases p <;> simp only [Phase.calls, List.mem_cons, List.not_mem_nil, or_false] at hk <;>
    rcases hk with rfl | rfl | rfl | rfl <;> exact ⟨nofun, nofun⟩

theorem phase_concat_of_none {e : Event (cameras.sum host)} (he : write? e = none) :
    (Record.initial.after (h ++ [e])).phase = (Record.initial.after h).phase := by
  rw [Record.after_append, Record.after_cons, Record.after_nil, Record.hear_eq, he, Option.elim_none]

/-- What stays in a phase does not write another one. -/
theorem Stays.phase_concat {c : (cameras.sum host).Call} (hc : Stays p c)
    (a? : Option ((cameras.sum host).Answer c)) :
    (Record.initial.after (h ++ [⟨c, a?⟩])).phase = (Record.initial.after h).phase ∧
    phases (h ++ [⟨c, a?⟩]) = phases h := by
  have hquiet : kindOf c ≠ .record → kindOf c ≠ .verdict → write? ⟨c, a?⟩ = none := fun hrecord hverdict =>
    write?_of_kind hrecord hverdict
  obtain ⟨-, hc | hc | ⟨n, rfl⟩ | ⟨line, rfl⟩⟩ := hc
  · have hnone := hquiet (Phase.not_write_of_mem_calls hc).1 (Phase.not_write_of_mem_calls hc).2
    exact ⟨phase_concat_of_none hnone, phases_concat_of_none hnone⟩
  · have hnone := hquiet (ne_of_mem_of_not_mem hc (by decide)) (ne_of_mem_of_not_mem hc (by decide))
    exact ⟨phase_concat_of_none hnone, phases_concat_of_none hnone⟩
  all_goals
    cases a? with
    | none => exact ⟨phase_concat_of_none rfl, phases_concat_of_none rfl⟩
    | some u => exact ⟨by simp [Record.apply], (phases_concat_write h _).trans (if_pos rfl)⟩

theorem OnWay.mem_backingUp (hw : OnWay config mode saved rest p h) :
    .backingUp ∈ phases h ↔ backedUp config h = true := by
  rw [hw.phases_eq, hw.backedUp_eq, mem_way_iff hw.onRoute]

theorem OnWay.follows (hw : OnWay config mode saved rest p h) : Follows mode (phases h) := by
  rw [hw.phases_eq]
  exact follows_way hw.onRoute hw.normal

/-- The calls of a phase keep the session in it. -/
theorem keeps_stays {c : (cameras.sum host).Call} (hc : Stays p c) :
    (itinerary config mode).Keeps (OnWay config mode saved rest p) c := by
  intro h hw
  have hsame := hc.phase_concat (h := h)
  refine ⟨⟨fun hevent => ⟨?_, hw.mem_backingUp⟩, fun w hwrite => ?_⟩, fun answer => ?_⟩
  · rw [hw.phase_eq]
    obtain ⟨-, hc | hc | ⟨n, rfl⟩ | ⟨line, rfl⟩⟩ := hc
    · exact hc
    · have hquiet : ∀ k ∈ [CallKind.log, .stop], k.isEvent = false := by decide
      rw [isEvent, hquiet _ hc] at hevent
      cases hevent
    · exact absurd hevent (not_isEvent_write _)
    · exact absurd hevent (not_isEvent_write _)
  · subst hwrite
    rw [(hsame (some ())).2]
    exact hw.follows
  · obtain ⟨hphase, hphases⟩ := hsame (some answer)
    exact ⟨hphases.trans hw.phases_eq, hphase.trans hw.phase_eq,
      (backedUp_concat (offers_of_kind hc.1)).trans hw.backedUp_eq, hw.onRoute, hw.normal⟩

/-- A session that has left its phase for another one. -/
theorem onWay_concat {q : Phase} (hphases : phases h = way saved rest)
    (hphase : (Record.initial.after h).phase = p) (hsaved : backedUp config h = saved) (hpq : p ≠ q)
    {rest' : List Phase} (hway : way saved rest ++ [q] = way saved rest') (hrest : rest' <+: onward mode)
    (hnormal : mode = .recovery → saved = false) :
    OnWay config mode saved rest' q (h ++ [.told (.write (.phase q)) (some ())]) := by
  have hne : (Record.initial.after h).phase ≠ ((Record.initial.after h).apply (.phase q)).phase := by
    rw [hphase]
    exact hpq
  refine ⟨?_, by simp [Record.apply], (backedUp_concat rfl).trans hsaved, hrest, hnormal⟩
  rw [phases_concat_write, if_neg hne, hphases]
  exact hway

end Rule

/-! ## Steps -/

section Steps

variable {config : UpdateConfig} {mode : Mode} {saved : Bool} {rest : List Phase} {p q : Phase} {h : History}
  {image : FirmwareImage} {camera : Camera} {identity : String} {ε α : Type}

/-- Where a session may fail. -/
def Cut (config : UpdateConfig) (mode : Mode) (h : History) : Prop :=
  ∃ saved rest p, OnWay config mode saved rest p h

theorem stays_of_kind {c : (cameras.sum host).Call} (hmonitor : kindOf c ≠ .openMonitor)
    (hk : kindOf c ∈ CallKind.log :: .stop :: p.calls) : Stays p c := by
  refine ⟨hmonitor, ?_⟩
  rcases List.mem_cons.mp hk with hk | hk
  · exact .inr (.inl (List.mem_cons.mpr (.inl hk)))
  · rcases List.mem_cons.mp hk with hk | hk
    · exact .inr (.inl (List.mem_cons_of_mem _ (List.mem_singleton.mpr hk)))
    · exact .inl hk

theorem stays_of_ofKinds {kinds : List CallKind}
    (hkinds : ∀ k ∈ kinds, k ≠ .openMonitor ∧ k ∈ CallKind.log :: .stop :: p.calls) (c : (cameras.sum host).Call)
    (hc : ofKinds kinds c) : Stays p c :=
  stays_of_kind (hkinds _ hc).1 (hkinds _ hc).2

theorem stays_of_notes {kinds : List CallKind}
    (hkinds : ∀ k ∈ kinds, k ≠ .openMonitor ∧ k ∈ CallKind.log :: .stop :: p.calls) (c : (cameras.sum host).Call)
    (hc : Notes kinds c) : Stays p c := by
  rcases hc with hc | ⟨line, rfl⟩
  · exact stays_of_ofKinds (List.forall_mem_cons.mpr ⟨by simp, hkinds⟩) c hc
  · exact ⟨by simp [Write.isVerdict], .inr (.inr (.inr ⟨line, rfl⟩))⟩

theorem stays_log (line : LogRecord) : Stays p (.inr (.log line)) := stays_of_kind (by simp) (by simp)

theorem stays_note (line : String) : (note line).Only (Stays p) :=
  (notes_note line).mono (stays_of_notes (List.forall_mem_nil _))

theorem stays_setProgress (n : Nat) : (setProgress n).Only (Stays p) :=
  only_tell.mpr ⟨by simp [Write.isVerdict], .inr (.inr (.inl ⟨n, rfl⟩))⟩

theorem stays_ensureLive : ensureLive.Only (Stays p) :=
  Program.Only.mono (only_ensureLive (List.mem_singleton_self CallKind.stop)) (stays_of_ofKinds (by simp))

/-- A step that stays in its phase. -/
theorem obeys_staying {x : Attempt ε α} (hx : x.Only (Stays p)) (hw : OnWay config mode saved rest p h) :
    x.Obeys (itinerary config mode) (Cut config mode) (fun _ => OnWay config mode saved rest p) h :=
  Attempt.obeys_of_only (Program.Only.mono hx fun _ hc => keeps_stays hc) (fun _ hg => ⟨saved, rest, p, hg⟩) hw

theorem obeys_enterPhase (hq : rest ++ [q] <+: onward mode) (hpq : p ≠ q) (hw : OnWay config mode saved rest p h) :
    (enterPhase q).Obeys (itinerary config mode) (fun _ => OnWay config mode saved (rest ++ [q]) q) h := by
  have hlog : (tell (.log { level := .info, text := "phase: " ++ q.text, echo := true })).Only
      ((itinerary config mode).Keeps (OnWay config mode saved rest p)) := only_tell.mpr (keeps_stays (stays_log _))
  refine obeys_bind (obeys_of_only hlog hw) fun _ h' hw' => ?_
  have hnext : OnWay config mode saved (rest ++ [q]) q (h' ++ [.told (.write (.phase q)) (some ())]) :=
    onWay_concat hw'.phases_eq hw'.phase_eq hw'.backedUp_eq hpq (way_append [q]).symm hq hw'.normal
  refine obeys_tell.mpr ⟨⟨fun hevent => absurd hevent (not_isEvent_write _), fun w hwrite => ?_⟩, fun _ => hnext⟩
  obtain rfl : .phase q = w := by simpa using hwrite
  exact hnext.follows

/-- A step that looks for a stop and enters a phase. -/
theorem obeys_entering {x : Attempt UpdateError α} {post : α → History → Prop}
    (hq : rest ++ [q] <+: onward mode) (hpq : p ≠ q)
    (hx : ∀ h, OnWay config mode saved (rest ++ [q]) q h →
      x.Obeys (itinerary config mode) (Cut config mode) post h)
    (hw : OnWay config mode saved rest p h) :
    (do ensureLive; enterPhase q; x : Attempt UpdateError α).Obeys (itinerary config mode)
      (Cut config mode) post h :=
  Attempt.obeys_bind (obeys_staying stays_ensureLive hw) fun _ _ hw =>
    Attempt.obeys_bind (Attempt.obeys_lift (obeys_enterPhase hq hpq hw)) fun _ _ hw => hx _ hw

theorem stays_identify : (identify camera).Only (Stays .idle) :=
  Program.Only.mono notes_identify (stays_of_notes (by simp [Phase.calls]))

theorem stays_recognise : (recognise camera).Only (Stays .idle) := by
  have hidentity : (recoveryIdentity camera).Only (Stays .idle) :=
    notes_recoveryIdentity.mono (stays_of_notes (by simp [Phase.calls]))
  exact only_bind (stays_note _) fun _ => only_bind hidentity fun _ =>
    only_bind (stays_setProgress _) fun _ => trivial

/-- The camera has just offered its hardware monitor. -/
structure Offered (config : UpdateConfig) (h : History) : Prop where
  phases_eq : phases h = [.idle]
  phase_eq : (Record.initial.after h).phase = .idle
  backedUp_eq : backedUp config h = true

theorem obeys_enterBackup (ho : Offered config h) : (enterPhase .backingUp).Obeys (itinerary config .normal)
    (fun _ => OnWay config .normal true [] .backingUp) h := by
  have hlog : ∀ line, (tell (.log line)).Only ((itinerary config .normal).Keeps (Offered config)) := by
    refine fun line => only_tell.mpr fun g hg => ⟨⟨nofun, nofun⟩, fun _ => ?_⟩
    exact ⟨(phases_concat_of_none rfl).trans hg.phases_eq, (phase_concat_of_none rfl).trans hg.phase_eq,
      (backedUp_concat rfl).trans hg.backedUp_eq⟩
  refine obeys_bind (obeys_of_only (hlog _) ho) fun _ h' ho' => ?_
  have hnext : OnWay config .normal true [] .backingUp (h' ++ [.told (.write (.phase .backingUp)) (some ())]) := by
    refine ⟨?_, by simp [Record.apply], (backedUp_concat rfl).trans ho'.backedUp_eq, List.nil_prefix, by simp⟩
    rw [phases_concat_write, if_neg (by simp [Record.apply, ho'.phase_eq]), ho'.phases_eq]
    rfl
  refine obeys_tell.mpr ⟨⟨fun hevent => absurd hevent (not_isEvent_write _), fun w hwrite => ?_⟩, fun _ => hnext⟩
  obtain rfl : .phase .backingUp = w := by simpa using hwrite
  exact hnext.follows

theorem obeys_backUp {backup : BackupConfig} (ho : Offered config h) : (backUp camera backup identity).Obeys
    (itinerary config .normal) (Cut config .normal) (fun _ => OnWay config .normal true [] .backingUp) h := by
  have hread : (Flash.read camera backup (fun x => setProgress (backup.scaleProgress x)) true).Only
      (Stays .backingUp) :=
    Flash.only_read_of (fun _ _ => stays_of_kind (by simp) (by simp [Phase.calls]))
      (stays_of_kind (by simp) (by simp)) stays_log (fun _ => stays_setProgress _) true
  have hpersist : ∀ flash, (Flash.persist backup.dir identity flash).Only (Stays .backingUp) := fun flash =>
    Program.Only.mono Flash.only_persist (stays_of_ofKinds (by simp [Phase.calls]))
  refine Attempt.obeys_bind (Attempt.obeys_lift (obeys_enterBackup ho)) fun _ h' hw => obeys_staying ?_ hw
  refine Attempt.only_bind (Attempt.only_lift (stays_setProgress _)) fun _ => ?_
  refine Attempt.only_bind (Attempt.only_lift (stays_note _)) fun _ => ?_
  refine Attempt.only_bind (Attempt.only_of hread) fun flash =>
    Attempt.only_bind (Attempt.only_of (hpersist _)) fun path => ?_
  exact Attempt.only_bind (Attempt.only_lift (stays_note _)) fun _ => Attempt.only_lift (stays_setProgress _)

/-- After the step in which a camera may be backed up. -/
def Secured (config : UpdateConfig) (h : History) : Prop :=
  ∃ saved p, p ≠ .enteringRecovery ∧ OnWay config .normal saved [] p h

theorem obeys_secure (hw : OnWay config .normal false [] .idle h) : (secure config camera identity).Obeys
    (itinerary config .normal) (Cut config .normal) (fun _ => Secured config) h := by
  unfold secure
  split
  · exact Attempt.obeys_pure ⟨false, .idle, by decide, hw⟩
  rename_i backup hbackup
  have hask : (ask (.openMonitor camera)).Obeys (itinerary config .normal) (fun offered g =>
      offered = true ∧ Offered config g ∨ offered = false ∧ OnWay config .normal false [] .idle g) h := by
    refine obeys_ask.mpr ⟨⟨fun _ => ⟨?_, hw.mem_backingUp⟩, nofun⟩, fun offered => ?_⟩
    · rw [hw.phase_eq]
      simp [Phase.calls]
    have hphases : phases (h ++ [.asked (.openMonitor camera) (some offered)]) = [.idle] :=
      (phases_concat_of_none rfl).trans hw.phases_eq
    have hphase : (Record.initial.after (h ++ [.asked (.openMonitor camera) (some offered)])).phase = .idle :=
      (phase_concat_of_none rfl).trans hw.phase_eq
    cases offered with
    | true => exact .inl ⟨rfl, hphases, hphase, by simp [backedUp, hbackup, itinerary, offers]⟩
    | false => exact .inr ⟨rfl, hphases, hphase, (backedUp_concat rfl).trans hw.backedUp_eq, hw.onRoute, by simp⟩
  refine Attempt.obeys_bind (Attempt.obeys_lift hask) fun offered h' hh' => ?_
  rcases hh' with ⟨rfl, ho⟩ | ⟨rfl, hw'⟩
  · exact Attempt.Obeys.mono (obeys_backUp ho) fun _ _ hr => ⟨true, .backingUp, by decide, hr⟩
  · exact Attempt.Obeys.mono (obeys_staying (Attempt.only_lift (stays_note _)) hw') fun _ _ hr =>
      ⟨false, .idle, by decide, hr⟩

theorem obeys_switchMode (hs : Secured config h) :
    (switchMode camera).Obeys (itinerary config .normal) (Cut config .normal)
    (fun _ g => ∃ saved, OnWay config .normal saved [.enteringRecovery] .enteringRecovery g) h := by
  obtain ⟨saved, p, hp, hw⟩ := hs
  have hrestart : Stays .enteringRecovery (.inl (.enterRecovery camera)) :=
    stays_of_kind (by simp) (by simp [Phase.calls])
  refine obeys_entering (by simp [onward]) hp (fun g hg => ?_) hw
  refine Attempt.Obeys.mono (obeys_staying ?_ hg) fun _ _ hr => ⟨saved, hr⟩
  exact Attempt.only_bind (Attempt.only_of (only_ask.mpr hrestart)) fun _ => Attempt.only_lift (stays_note _)

theorem stays_search {s : Search} (hp : p = .waitingForRecovery ∨ p = .waitingForReconnect) :
    s.run.Only (Stays p) :=
  Search.only_run.mono (stays_of_ofKinds (by rcases hp with rfl | rfl <;> simp [Phase.calls]))

theorem obeys_findRecovery (hw : OnWay config .normal saved [.enteringRecovery] .enteringRecovery h) :
    (findRecovery config identity).Obeys (itinerary config .normal) (Cut config .normal)
      (fun _ => OnWay config .normal saved [.enteringRecovery, .waitingForRecovery] .waitingForRecovery) h := by
  refine obeys_entering (by simp [onward]) (by decide) (fun g hg => obeys_staying ?_ hg) hw
  refine Attempt.only_bind (Attempt.only_of (stays_search (.inl rfl))) fun recovery => ?_
  refine Attempt.only_bind (Attempt.only_lift (stays_note _)) fun _ => ?_
  exact Attempt.only_bind (Attempt.only_lift (stays_setProgress _)) fun _ => Attempt.only_pure _

theorem stays_transfer (c : (cameras.sum host).Call) (hc : ofKinds [.transfer, .clock, .log, .stop] c) :
    Stays .transferring c :=
  stays_of_ofKinds (by simp [Phase.calls]) c hc

theorem stays_traffic {channel : ControlChannel} (c : (cameras.sum host).Call) (hc : Dfu.Traffic channel c) :
    Stays .transferring c := by
  refine stays_transfer c ?_
  rcases hc with ⟨packet, timeout, rfl⟩ | hc
  · simp
  · exact ofKinds.mono (by simp) c hc

theorem stays_flashing {channel : ControlChannel} : (do
      discard <| Attempt.of UpdateError.transfer (Dfu.prepare channel config.transfer).run
      Attempt.of .transfer (Dfu.transfer channel config.transfer true image.data heedTransfer).run
      note "firmware download completed successfully"
      setProgress progressTransferred : Attempt UpdateError Unit).Only (Stays .transferring) := by
  have hquiet : ∀ c, ofKinds [.clock, .log] c → Stays .transferring c := fun c hc =>
    stays_transfer c (ofKinds.mono (by simp) c hc)
  have hpacket : ∀ packet timeout, Stays .transferring (.inl (.transfer channel packet timeout)) :=
    fun packet timeout =>
    stays_transfer _ (by simp)
  have hheed : ∀ x, (heedTransfer x).Only (Stays .transferring) := fun x => stays_setProgress _
  have hprepare : Attempt.Only (Stays .transferring) (Dfu.prepare channel config.transfer) :=
    Dfu.only_prepare_of (hpacket _ _) hquiet (hpacket _ _)
  have hmanifest : Attempt.Only (Stays .transferring) (Dfu.manifest channel config.transfer) :=
    Dfu.only_manifest_of (hpacket _ _) hquiet
  have htransfer : Attempt.Only (Stays .transferring)
      (Dfu.transfer channel config.transfer true image.data heedTransfer) := by
    refine Attempt.only_bind (Dfu.only_download_of stays_traffic hheed _ _) fun transaction => ?_
    refine Attempt.only_bind (Dfu.only_finish_of hquiet (hpacket _ _) hheed) fun _ => ?_
    exact Attempt.only_discard hmanifest
  refine Attempt.only_bind (Attempt.only_discard (Attempt.only_of hprepare)) fun _ => ?_
  refine Attempt.only_bind (Attempt.only_of htransfer) fun _ => ?_
  exact Attempt.only_bind (Attempt.only_lift (stays_note _)) fun _ => Attempt.only_lift (stays_setProgress _)

theorem obeys_flash (hrest : rest ++ [.transferring] <+: onward mode) (hp : p ≠ .transferring)
    (hw : OnWay config mode saved rest p h) :
    (flash config image camera).Obeys (itinerary config mode) (Cut config mode)
    (fun _ => OnWay config mode saved (rest ++ [.transferring]) .transferring) h := by
  have hopen : Stays .transferring (.inl (.openControl camera)) :=
    stays_of_kind (by simp) (by simp [Phase.calls])
  have hchannel : (openChannel camera).Obeys (itinerary config mode) (Cut config mode)
      (fun _ => OnWay config mode saved (rest ++ [.transferring]) .transferring) h :=
    obeys_entering hrest hp (fun g hg => obeys_staying
      (Attempt.only_bind (Attempt.only_lift (stays_note _)) fun _ =>
      Attempt.only_of (only_ask.mpr hopen)) hg) hw
  exact Attempt.obeys_bind hchannel fun channel g hg => obeys_staying stays_flashing hg

theorem obeys_awaitReconnect (hrest : rest ++ [.waitingForReconnect] <+: onward mode)
    (hp : p ≠ .waitingForReconnect) (hw : OnWay config mode saved rest p h) :
    (awaitReconnect config identity).Obeys (itinerary config mode) (Cut config mode)
    (fun _ => OnWay config mode saved (rest ++ [.waitingForReconnect]) .waitingForReconnect) h := by
  refine obeys_entering hrest hp (fun g hg => obeys_staying ?_ hg) hw
  refine Attempt.only_bind (Attempt.only_lift (stays_note _)) fun _ => ?_
  refine Attempt.only_bind (Attempt.only_of (stays_search (.inr rfl))) fun found => ?_
  refine Attempt.only_bind (Attempt.only_lift (only_ask.mpr ?_)) fun version => ?_
  · exact stays_of_kind (by simp) (by simp [Phase.calls])
  · split
    · exact Attempt.only_bind (Attempt.only_lift (stays_note _)) fun _ => Attempt.only_lift (stays_setProgress _)
    · exact Attempt.only_bind (Attempt.only_lift (stays_note _)) fun _ => Attempt.only_lift (stays_setProgress _)

/-- After the whole update. -/
def Arrived (config : UpdateConfig) (mode : Mode) (h : History) : Prop :=
  ∃ saved rest p, Complete mode rest ∧ OnWay config mode saved rest p h

theorem obeys_runFull (hw : OnWay config .normal false [] .idle h) : (runFull config image camera).Obeys
    (itinerary config .normal) (Cut config .normal) (fun _ => Arrived config .normal) h := by
  refine Attempt.obeys_bind (obeys_staying stays_identify hw) fun identity h₁ hw₁ => ?_
  refine Attempt.obeys_bind (obeys_secure hw₁) fun _ h₂ hs => ?_
  refine Attempt.obeys_bind (obeys_switchMode hs) fun _ h₃ ⟨saved, hw₃⟩ => ?_
  refine Attempt.obeys_bind (obeys_findRecovery hw₃) fun recovery h₄ hw₄ => ?_
  refine Attempt.obeys_bind (obeys_flash (by simp [onward]) (by decide) hw₄) fun _ h₅ hw₅ => ?_
  exact Attempt.Obeys.mono (obeys_awaitReconnect (by simp [onward]) (by decide) hw₅) fun _ _ hr =>
    ⟨saved, _, _, .inl rfl, hr⟩

theorem obeys_runFromRecovery (hw : OnWay config .recovery false [] .idle h) :
    (runFromRecovery config image camera).Obeys
    (itinerary config .recovery) (Cut config .recovery) (fun _ => Arrived config .recovery) h := by
  refine Attempt.obeys_bind (obeys_staying (Attempt.only_lift stays_recognise) hw) fun identity? h₁ hw₁ => ?_
  refine Attempt.obeys_bind (obeys_flash (by simp [onward]) (by decide) hw₁) fun _ h₂ hw₂ => ?_
  cases identity? with
  | none =>
    exact Attempt.Obeys.mono (obeys_staying (Attempt.only_lift (stays_note _)) hw₂) fun _ _ hr =>
      ⟨false, _, _, .inr ⟨rfl, rfl⟩, hr⟩
  | some identity =>
    exact Attempt.Obeys.mono (obeys_awaitReconnect (by simp [onward]) (by decide) hw₂) fun _ _ hr =>
      ⟨false, _, _, .inl rfl, hr⟩

/-- After a session. -/
def Over (config : UpdateConfig) (mode : Mode) (h : History) : Prop :=
  Follows mode (phases h) ∧ (.backingUp ∈ phases h ↔ backedUp config h = true)

/-- The write that ends a session. -/
theorem obeys_verdict {result : Except UpdateError Unit} {q : Phase}
    (hq : ∀ r : Record, (r.apply (verdict result)).phase = q) (hw : OnWay config mode saved rest p h)
    (hpq : p ≠ q) (hterminal : q ≠ .backingUp) (hfollows : Follows mode (way saved rest ++ [q])) :
    (tell (.write (verdict result))).Obeys (itinerary config mode) (fun _ => Over config mode) h := by
  have hphases : phases (h ++ [.told (.write (verdict result)) (some ())]) = way saved rest ++ [q] := by
    rw [phases_concat_write, hq, hw.phase_eq, if_neg hpq, hw.phases_eq]
  refine obeys_tell.mpr ⟨⟨fun hevent => absurd hevent (not_isEvent_write _), fun w hwrite => ?_⟩, fun _ => ?_⟩
  · obtain rfl : verdict result = w := by simpa using hwrite
    rwa [hphases]
  · show Over config mode (h ++ [.told (.write (verdict result)) (some ())])
    refine ⟨?_, ?_⟩
    · rwa [hphases]
    · rw [hphases, backedUp_concat rfl, hw.backedUp_eq, List.mem_append, mem_way_iff hw.onRoute,
        List.mem_singleton]
      simp [Ne.symm hterminal]

theorem OnWay.phase_ne (hw : OnWay config mode saved rest p h) (hq : q ∉ way saved (onward mode)) : p ≠ q := by
  rintro rfl
  obtain ⟨ps, hps⟩ := Session.phases_eq h
  obtain ⟨tail, htail⟩ := hw.onRoute
  refine hq ?_
  rw [← htail, way_append, ← hw.phases_eq, hps, hw.phase_eq]
  simp

theorem stays_noteEnd (result : Except UpdateError Unit) : (noteEnd result).Only (Stays p) :=
  (notes_noteEnd result).mono (stays_of_notes (List.forall_mem_nil _))

theorem obeys_conclude {result : Except UpdateError Unit}
    (hr : Attempt.Settled (Cut config mode) (fun _ => Arrived config mode) result h) :
    (conclude result).Obeys (itinerary config mode) (fun _ => Over config mode) h := by
  have hnot : ∀ q : Phase, q.isTerminal = true → ∀ saved, q ∉ way saved (onward mode) := by
    rintro q hq saved hmem
    cases mode <;> cases saved <;> simp [way, onward] at hmem <;>
      rcases hmem with rfl | rfl | rfl | rfl | rfl | rfl <;> cases hq
  rw [conclude_eq]
  cases result with
  | ok u =>
    obtain ⟨saved, rest, p, hrest, hw⟩ := hr
    refine obeys_bind (obeys_of_only ((stays_noteEnd _).mono fun _ hc => keeps_stays hc) hw) fun _ h' hw' => ?_
    exact obeys_verdict (q := .done) (fun _ => rfl) hw' (hw'.phase_ne (hnot _ rfl saved))
      nofun (follows_done hrest hw'.normal)
  | error e =>
    obtain ⟨saved, rest, p, hw⟩ := hr
    refine obeys_bind (obeys_of_only ((stays_noteEnd _).mono fun _ hc => keeps_stays hc) hw) fun _ h' hw' => ?_
    exact obeys_verdict (q := .failed e.reason) (fun _ => rfl) hw' (hw'.phase_ne (hnot _ rfl saved)) nofun
      (follows_failed hw'.onRoute hw'.normal _)

theorem stays_noteImage : (noteImage image).Only (Stays .idle) :=
  notes_noteImage.mono (stays_of_notes (List.forall_mem_nil _))

theorem onWay_nil : OnWay config mode false [] .idle [] :=
  ⟨rfl, rfl, by simp [backedUp], List.nil_prefix, fun _ => rfl⟩

/-- A session obeys the rule, and keeps to it to its end. -/
theorem obeys_run : (run config image camera).Obeys (itinerary config camera.kind.mode)
    (fun _ => Over config camera.kind.mode) [] := by
  have hattempt : ∀ h, OnWay config camera.kind.mode false [] .idle h → (attempt config image camera).Obeys
      (itinerary config camera.kind.mode) (Cut config camera.kind.mode)
      (fun _ => Arrived config camera.kind.mode) h := by
    intro h hw
    unfold attempt
    split
    · rename_i hmode
      have hrecovery : camera.kind.mode = .recovery := by simpa [DeviceClass.isRecovery] using hmode
      rw [hrecovery] at hw ⊢
      exact obeys_runFromRecovery hw
    · rename_i hmode
      have hnormal : camera.kind.mode = .normal := by
        cases hm : camera.kind.mode with
        | normal => rfl
        | recovery => simp [DeviceClass.isRecovery, hm] at hmode
      rw [hnormal] at hw ⊢
      exact obeys_runFull hw
  rw [run_eq]
  refine obeys_bind (obeys_of_only (stays_noteImage.mono fun _ hc => keeps_stays hc) onWay_nil) fun _ h hw => ?_
  exact obeys_bind (hattempt h hw) fun result h' hr => obeys_conclude hr

end Steps

/-! ## The guarantee -/

section Guarantee

variable {config : UpdateConfig} {mode : Mode} {image : FirmwareImage} {camera : Camera} {h : History}

theorem backedUp_iff : backedUp config h = true ↔
    config.backup.isSome = true ∧ ∃ c, .asked (.openMonitor c) (some true) ∈ h := by
  rw [backedUp, Bool.and_eq_true, List.any_eq_true]
  refine and_congr_right fun _ => ⟨?_, fun ⟨c, hmem⟩ => ⟨_, hmem, rfl⟩⟩
  rintro ⟨e, hmem, he⟩
  unfold offers at he
  split at he
  · subst he
    exact ⟨_, hmem⟩
  · cases he

/-- Whatever a program that obeys the rule has done, it is on its way. -/
theorem follows_of_begins {p : Action Unit} {post : Unit → History → Prop}
    (hp : p.Obeys (itinerary config mode) post []) (hb : p.Begins h) : Follows mode (phases h) := by
  induction h using List.reverseRecOn with
  | nil =>
    have hfirst : OnWay config mode false [] .idle [] := onWay_nil
    exact hfirst.follows
  | append_singleton h e ih =>
    cases hw : write? e with
    | none =>
      rw [phases_concat_of_none hw]
      exact ih hb.of_append
    | some w =>
      obtain rfl := write?_eq_some.mp hw
      have hallowed : (itinerary config mode).allows ((itinerary config mode).after [] h) _ := Obeys.allows hp hb
      rw [itinerary, Rule.after_ofPast, List.nil_append] at hallowed
      exact hallowed.2 w rfl

/-- A way that has not come to an end may be cut off. -/
theorem Follows.cut {ps : List Phase} (hf : Follows mode ps) (hopen : ∀ q ∈ ps, q.isTerminal = false)
    (reason : String) :
    Follows mode (ps ++ [.failed reason]) := by
  obtain ⟨route, hroute, hne, hps | ⟨l, reason', rfl, -, -⟩⟩ := hf
  · refine ⟨route, hroute, by simp, .inr ⟨ps, reason, rfl, hne, ?_⟩⟩
    have hdone : ∃ l, route = l ++ [.done] := by
      refine List.getLast?_eq_some_iff.mp ?_
      cases mode <;> simp only [routes, List.mem_cons, List.not_mem_nil, or_false] at hroute <;>
        rcases hroute with rfl | rfl <;> rfl
    obtain ⟨l, rfl⟩ := hdone
    rcases List.prefix_concat_iff.mp hps with rfl | hps
    · exact absurd (hopen .done (by simp)) nofun
    · rwa [List.dropLast_concat]
  · exact absurd (hopen (.failed reason') (by simp)) nofun

theorem exists_of_mem_phases {q : Phase} (hq : q ∈ phases h) :
    ∃ before, before <+: h ∧ (Record.initial.after before).phase = q := by
  obtain ⟨r, hr, rfl⟩ := List.mem_map.mp ((List.destutter_sublist _ _).subset hq)
  obtain ⟨before, hbefore, rfl⟩ := mem_records.mp hr
  exact ⟨before, hbefore, rfl⟩

theorem entered_of_awaitReconnect {identity : String} (hf : (awaitReconnect config identity).Finishes h (.ok ())) :
    .told (.write (.phase .waitingForReconnect)) (some ()) ∈ h := by
  rw [awaitReconnect, Attempt.finishes_bind_ok] at hf
  obtain ⟨u, h₁, h₂, rfl, -, hf⟩ := hf
  obtain ⟨u', h₃, h₄, rfl, henter, -⟩ := Attempt.finishes_bind_ok.mp hf
  rw [Attempt.finishes_lift_ok, enterPhase, bind_eq, finishes_bind] at henter
  obtain ⟨u'', h₅, h₆, rfl, -, hwrite⟩ := henter
  obtain rfl := finishes_tell.mp hwrite
  simp

/-- A camera that was in recovery mode from the start is not waited for only if its identity could not be read. -/
theorem exists_unidentified {σ : Type} {env : Environment (cameras.sum host) σ} {s : σ}
    (hmode : camera.kind.mode = .recovery) (hdone : result env s (run config image camera) = .done)
    (hskipped : .waitingForReconnect ∉ phases ((run config image camera).history env s)) :
    ∃ before own after reply, (run config image camera).history env s = before ++ (own ++ after) ∧
      (identityOf camera).Finishes own reply ∧ reply.toOption.join = none := by
  obtain ⟨h₀, h₁, h₂, heq, -, hwalk, -⟩ := completed_of_done hdone
  obtain ⟨target, channel, identity?, status, transaction, status', w₁, w₂, w₃, w₄, w₅, w₆, notes,
      w₇, rfl, hopening, -, -, -, -, -, -, hreturn⟩ := hwalk.programmed
  have hrecovery : camera.kind.isRecovery = true := by simp [DeviceClass.isRecovery, hmode]
  rcases Stage.walk_opening hopening with ⟨-, -, hrecognise⟩ | ⟨hnot, -⟩
  · cases identity? with
    | some identity =>
      have hentered := entered_of_awaitReconnect hreturn
      refine absurd (mem_phases_of_mem ?_) hskipped
      rw [heq]
      simp [hentered]
    | none =>
      obtain ⟨pre, own, post, reply, rfl, -, hown, hnone, -⟩ := finishes_recognise hrecognise
      refine ⟨h₀ ++ pre, own, post ++ (w₂ ++ (w₃ ++ (w₄ ++ (w₅ ++ (w₆ ++ (notes ++ w₇)))))) ++ h₂, reply,
        ?_, hown, hnone.symm⟩
      rw [heq]
      simp only [List.append_assoc]
  · rw [hnot] at hrecovery
    cases hrecovery

/-- The phases of a session are those of a way for the mode of its camera, as far as the session has come, and a
failure, the death of its task too, cuts the way off.  Every call on cameras, clock and files is made in the
phase to which its kind belongs.  A session backs up exactly if a backup is wanted and the camera offered its
hardware monitor, and one that began in recovery mode skips the wait for the camera only if the identity of the
camera could not be read. -/
theorem phases_are_in_order {σ : Type} (env : Environment (cameras.sum host) σ) (s : σ) {session : Action Unit}
    (hstart : start config camera image = .ok session) :
    let h := session.history env s
    let ending := (session.run env s).1
    (∀ before, before <+: h → Follows camera.kind.mode (phases before)) ∧
    Follows camera.kind.mode (visited (records h ++ [settled ending (Record.initial.after h)])) ∧
    (∀ before e after, h = before ++ e :: after → isEvent e.call = true →
      kindOf e.call ∈ (Record.initial.after before).phase.calls ∧ (.backingUp ∈ phases before ↔
        config.backup.isSome = true ∧ ∃ c, .asked (.openMonitor c) (some true) ∈ before)) ∧
    (ending = .finished () → (.backingUp ∈ phases h ↔
      config.backup.isSome = true ∧ ∃ c, .asked (.openMonitor c) (some true) ∈ h)) ∧
    (camera.kind.mode = .recovery → result env s session = .done → .waitingForReconnect ∉ phases h →
      ∃ before own after reply, h = before ++ (own ++ after) ∧ (identityOf camera).Finishes own reply ∧
        reply.toOption.join = none) := by
  intro h ending
  obtain ⟨-, -, rfl⟩ := start_eq_ok.mp hstart
  have hb : (run config image camera).Begins h := begins_history env _ s
  have hrun : (run config image camera).Obeys (itinerary config camera.kind.mode)
      (fun _ => Over config camera.kind.mode) [] :=
    obeys_run
  have hway : ∀ before, before <+: h → Follows camera.kind.mode (phases before) := by
    rintro before ⟨rest, heq⟩
    exact follows_of_begins hrun (Begins.of_append (heq ▸ hb))
  refine ⟨hway, ?_, fun before e after heq hevent => ?_, fun hfin => ?_, exists_unidentified⟩
  · rw [visited_records_concat]
    split
    · exact hway h (List.prefix_refl h)
    rename_i hne
    -- Only the death of the task changes the phase once more.
    cases hend : ending with
    | panicked =>
      refine (hway h (List.prefix_refl h)).cut (fun q hq => ?_) _
      obtain ⟨before, ⟨rest, heq⟩, rfl⟩ := exists_of_mem_phases hq
      cases rest with
      | cons e rest => exact (underway_of_begins (heq ▸ hb) (List.cons_ne_nil e rest)).phase
      | nil =>
        rw [List.append_nil] at heq
        rw [heq]
        refine (underway_of_not_finished ?_).phase
        show ending ≠ _
        rw [hend]
        nofun
    | finished u => exact absurd (by rw [hend]; rfl) hne
    | stalled => exact absurd (by rw [hend]; rfl) hne
  · have hallowed := hrun.allows (heq ▸ hb)
    rw [itinerary, Rule.after_ofPast, List.nil_append] at hallowed
    obtain ⟨hkind, hbackup⟩ := hallowed.1 hevent
    exact ⟨hkind, hbackup.trans backedUp_iff⟩
  · have hover := hrun.of_finishes (finishes_history hfin)
    rw [itinerary, Rule.after_ofPast, List.nil_append] at hover
    exact hover.2.trans backedUp_iff

/-- The world in which no camera reports a serial number. -/
def nameless : Environment (cameras.sum host) Obliging
  | .inl (.serial _), o => (some (.ok none), o)
  | c, o => Obliging.world c o

/-- The whole way of a camera in normal mode, and the short one of a camera in recovery mode
that reports no identity. -/
theorem phases_are_in_order_obliging :
    let o : Obliging := { camera := Obliging.unit }
    let waiting : Camera := { Obliging.unit with kind.mode := .recovery }
    let full := (run Obliging.config Obliging.image Obliging.unit).history Obliging.world o
    let short := (run Obliging.config Obliging.image waiting).history nameless { camera := waiting }
    phases full = [.idle, .backingUp, .enteringRecovery, .waitingForRecovery, .transferring,
      .waitingForReconnect, .done] ∧
      Follows .normal (phases full) ∧ (∃ c, .asked (.openMonitor c) (some true) ∈ full) ∧
      phases short = [.idle, .transferring, .done] ∧
      ∃ before own after reply, short = before ++ (own ++ after) ∧ (identityOf waiting).Finishes own reply ∧
        reply.toOption.join = none := by
  intro o waiting full short
  obtain ⟨hway, -, -, hbackup, -⟩ := phases_are_in_order Obliging.world o start_obliging
  have hfull : phases full = [.idle, .backingUp, .enteringRecovery, .waitingForRecovery, .transferring,
      .waitingForReconnect, .done] := by decide +kernel
  have hshort : phases short = [.idle, .transferring, .done] := by decide +kernel
  have hstart : start Obliging.config waiting Obliging.image = .ok (run Obliging.config Obliging.image waiting) :=
    start_eq_ok.mpr ⟨by decide +kernel, .inl rfl, rfl⟩
  obtain ⟨-, -, -, -, hunnamed⟩ := phases_are_in_order nameless { camera := waiting } hstart
  have hmonitor := (hbackup (by decide +kernel)).mp (hfull ▸ by simp)
  exact ⟨hfull, hway full (List.prefix_refl _), hmonitor.2, hshort,
    hunnamed rfl (by decide +kernel) (hshort ▸ by simp)⟩

end Guarantee

end Session

end Reflash
