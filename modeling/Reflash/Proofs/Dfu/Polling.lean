import Reflash.Proofs.Clock
import Reflash.Proofs.Dfu.Wire

/-!
# Reflash.Proofs.Dfu.Polling — what a wait hears

`w.Hears channel start last h r` is the grammar of a wait that nobody stops: rounds that leave it open, each
with one look at the clock before the deadline and one pause after it, and a last one that ends it.  It speaks
of replies and of readings of the clock only, and they determine the end (`Hears.unique`).  Every wait that
comes to an end unstopped has these calls (`hears_of_finishes`).
-/

namespace Reflash

open Program

/-- The status that a reply to a query carries. -/
def statusOf (reply : Except LinkError ControlPacket) : Except LinkError DeviceStatus :=
  reply.map fun packet => DeviceStatus.decode packet.payload

/-- Two lists that are the same, each with the first element that is not of `P` marked. -/
theorem append_cons_inj {α : Type} {P : α → Prop} {a a' t t' : List α} {x x' : α} (ha : ∀ y ∈ a, P y)
    (ha' : ∀ y ∈ a', P y) (hx : ¬ P x) (hx' : ¬ P x') (heq : a ++ x :: t = a' ++ x' :: t') :
    a = a' ∧ x = x' ∧ t = t' := by
  induction a generalizing a' with
  | nil =>
    cases a' with
    | nil => exact ⟨rfl, List.cons.inj heq⟩
    | cons y a' =>
      obtain ⟨rfl, -⟩ := List.cons.inj heq
      exact absurd (ha' x List.mem_cons_self) hx
  | cons y a ih =>
    cases a' with
    | nil =>
      obtain ⟨rfl, -⟩ := List.cons.inj heq
      exact absurd (ha y List.mem_cons_self) hx'
    | cons y' a' =>
      obtain ⟨rfl, hrest⟩ := List.cons.inj heq
      obtain ⟨rfl, hx, ht⟩ := ih (fun z hz => ha z (List.mem_cons_of_mem y hz))
        (fun z hz => ha' z (List.mem_cons_of_mem y hz)) hrest
      exact ⟨rfl, hx, ht⟩

namespace Wait

/-- The reply does not end the wait: the loader is busy, or in a state that is not waited for. -/
def Open (w : Wait) (reply : Except LinkError DeviceStatus) : Prop :=
  reply = .error .busy ∨ ∃ status, reply = .ok status ∧ status.state ∉ w.accepted

/-- The calls of a round up to the reply: a look at the request to stop, where the wait heeds it, and a query. -/
def round (w : Wait) (channel : ControlChannel) (reply : Except LinkError ControlPacket) : History :=
  (if w.heedsStop then [.looked false] else []) ++
    [.asked (.transfer channel .getStatus w.requestTimeout) (some reply)]

/-- What a wait that began at `start` hears, `last` being the last status before these calls. -/
inductive Hears (w : Wait) (channel : ControlChannel) (start : Nanos) :
    Option DeviceStatus → History → Except WaitError DeviceStatus → Prop
  | accepted {last : Option DeviceStatus} {reply : Except LinkError ControlPacket} {status : DeviceStatus} :
    statusOf reply = .ok status → status.state ∈ w.accepted →
    Hears w channel start last (w.round channel reply) (.ok status)
  | failed {last : Option DeviceStatus} {e : LinkError} : e ≠ .busy →
    Hears w channel start last (w.round channel (.error e)) (.error (.link e))
  | late {last : Option DeviceStatus} {reply : Except LinkError ControlPacket} {notes : History} {now : Nanos} :
    w.Open (statusOf reply) → Within [.log] notes → w.timeout ≤ now - start →
    Hears w channel start last (w.round channel reply ++ (notes ++ [.told .now (some now)]))
      (.error (.timeout w.timeout w.accepted (lastSeen last (statusOf reply))))
  | later {last : Option DeviceStatus} {reply : Except LinkError ControlPacket} {notes h : History} {now : Nanos}
      {r : Except WaitError DeviceStatus} : w.Open (statusOf reply) → Within [.log] notes →
      now - start < w.timeout →
    Hears w channel start (lastSeen last (statusOf reply)) h r →
    Hears w channel start last (w.round channel reply ++
      (notes ++ .told .now (some now) :: .told (.sleep w.interval) (some ()) :: h)) r

variable {w : Wait} {channel : ControlChannel} {start : Nanos} {last : Option DeviceStatus} {h h' : History}
  {r r' : Except WaitError DeviceStatus}

theorem verdict?_eq_none_iff {reply : Except LinkError DeviceStatus} : w.verdict? reply = none ↔ w.Open reply :=
  verdict?_eq_none

@[simp] theorem wire_round {reply : Except LinkError ControlPacket} :
    wire channel (w.round channel reply) = [⟨.getStatus, some reply⟩] := by
  unfold round
  split <;> simp

theorem wire_notes (hh : Within [.log] h) : wire channel h = [] :=
  wire_eq_nil fun e he packet timeout hcall => hh.ne (by simp : CallKind.transfer ∉ [CallKind.log]) e he
    (by rw [hcall]; rfl)

/-! ## The calls of a wait -/

/-- A round that ended the wait. -/
theorem hears_of_verdict? {reply : Except LinkError ControlPacket} (hv : w.verdict? (statusOf reply) = some r) :
    Hears w channel start last (w.round channel reply) r := by
  cases reply with
  | ok packet =>
    simp only [statusOf, Except.map, verdict?] at hv
    split_ifs at hv with hs
    cases hv
    exact .accepted rfl hs
  | error e =>
    cases e with
    | busy => cases hv
    | _ =>
      cases hv
      exact .failed nofun

theorem looks_of_finishes (hf : (shouldStop w.heedsStop).Finishes h false) :
    h = if w.heedsStop then [.looked false] else [] := by
  unfold shouldStop at hf
  split at hf
  · rw [if_pos ‹_›]
    exact finishes_tell.mp hf
  · rw [if_neg ‹_›]
    exact (finishes_done.mp hf).1

theorem within_of_reportReply {reply : Except LinkError DeviceStatus} {u : Unit}
    (hf : (reportReply reply).Finishes h u) : Within [.log] h :=
  (only_reportReply (P := ofKinds [.log]) (fun _ => by simp) reply).within hf.begins

theorem hears_of_finishes_loop {rounds : Nat} (hr : r ≠ .error .stopped)
    (hf : (w.loop channel start rounds last).Finishes h r) :
    ∃ heard notes, h = heard ++ notes ∧ Within [.log] notes ∧ Hears w channel start last heard r := by
  induction rounds generalizing last h with
  | zero => exact absurd hf not_finishes_stalled
  | succ rounds ih =>
    simp only [loop, bind_eq, finishes_bind] at hf
    obtain ⟨stop, h₁, h₂, rfl, hstop, hf⟩ := hf
    split at hf
    · exact absurd (finishes_done.mp hf).2 hr
    rename_i hgo
    obtain rfl : stop = false := by simpa using hgo
    obtain rfl := looks_of_finishes hstop
    simp only [finishes_bind] at hf
    obtain ⟨reply, h₃, h₄, rfl, hreply, u, h₅, h₆, rfl, hlog, hf⟩ := hf
    have hnotes := within_of_reportReply hlog
    obtain ⟨raw, rfl, rfl⟩ := finishes_queryStatus.mp hreply
    split at hf
    · rename_i result hv
      obtain ⟨rfl, rfl⟩ := finishes_done.mp hf
      exact ⟨w.round channel raw, h₅, by simp [round], hnotes, hears_of_verdict? hv⟩
    · rename_i hv
      have hopen : w.Open (statusOf raw) := verdict?_eq_none_iff.mp hv
      simp only [finishes_bind, finishes_tell] at hf
      obtain ⟨now, h₇, h₈, rfl, rfl, hf⟩ := hf
      split at hf
      · rename_i htime
        obtain ⟨rfl, rfl⟩ := finishes_done.mp hf
        exact ⟨_, [], by simp [round], within_nil, .late hopen hnotes htime⟩
      · rename_i htime
        simp only [finishes_bind, finishes_tell] at hf
        obtain ⟨u', h₉, h₁₀, rfl, rfl, hf⟩ := hf
        obtain ⟨heard, notes, rfl, hend, hheard⟩ := ih hf
        exact ⟨_, notes, by simp [round], hend, .later hopen hnotes (Nat.lt_of_not_le htime) hheard⟩

theorem hears_of_finishes (hr : r ≠ .error .stopped) (hf : (w.run channel).Finishes h r) : ∃ start heard notes,
    h = .told .now (some start) :: (heard ++ notes) ∧ Within [.log] notes ∧
    Hears w channel start none heard r := by
  simp only [run, bind_eq, finishes_bind, finishes_tell] at hf
  obtain ⟨start, h₁, h₂, rfl, rfl, hf⟩ := hf
  obtain ⟨heard, notes, rfl, hnotes, hheard⟩ := hears_of_finishes_loop hr hf
  exact ⟨start, heard, notes, rfl, hnotes, hheard⟩

/-! ## What it hears determines its end -/

theorem round_append_inj {reply reply' : Except LinkError ControlPacket} {t t' : History}
    (heq : w.round channel reply ++ t = w.round channel reply' ++ t') : reply = reply' ∧ t = t' := by
  have hlength : (w.round channel reply).length = (w.round channel reply').length := by simp [round]
  obtain ⟨hround, ht⟩ := List.append_inj heq hlength
  have hwire := congrArg (wire channel) hround
  rw [wire_round, wire_round] at hwire
  cases hwire
  exact ⟨rfl, ht⟩

theorem notes_append_inj {notes notes' t t' : History} {now now' : Nanos} (hnotes : Within [.log] notes)
    (hnotes' : Within [.log] notes')
    (heq : notes ++ .told .now (some now) :: t = notes' ++ .told .now (some now') :: t') :
    now = now' ∧ t = t' := by
  obtain ⟨-, hnow, ht⟩ := append_cons_inj hnotes hnotes' (by simp) (by simp) heq
  cases hnow
  exact ⟨rfl, ht⟩

theorem verdict?_failed {e : LinkError} (he : e ≠ .busy) :
    w.verdict? (statusOf (.error e)) = some (.error (.link e)) := by
  cases e with
  | busy => exact absurd rfl he
  | _ => rfl

/-- A round of a wait, and what comes after its reply: nothing if the reply ends the wait, and
else a look at the clock. -/
theorem Hears.round_cases (hh : Hears w channel start last h r) : ∃ reply rest, h = w.round channel reply ++ rest ∧
    (w.verdict? (statusOf reply) = some r ∧ rest = [] ∨
      w.verdict? (statusOf reply) = none ∧ ∃ notes now rest', rest = notes ++ .told .now (some now) :: rest' ∧
        Within [.log] notes ∧
        (w.timeout ≤ now - start ∧ rest' = [] ∧
            r = .error (.timeout w.timeout w.accepted (lastSeen last (statusOf reply))) ∨
          now - start < w.timeout ∧ ∃ h', rest' = .told (.sleep w.interval) (some ()) :: h' ∧
            Hears w channel start (lastSeen last (statusOf reply)) h' r)) := by
  cases hh with
  | @accepted _ reply status hreply hs =>
    exact ⟨reply, [], by simp, .inl ⟨by rw [hreply, verdict?, if_pos hs], rfl⟩⟩
  | @failed _ e he => exact ⟨.error e, [], by simp, .inl ⟨verdict?_failed he, rfl⟩⟩
  | @late _ reply notes now ho hnotes htime =>
    exact ⟨reply, _, rfl, .inr ⟨verdict?_eq_none_iff.mpr ho, notes, now, [], rfl, hnotes, .inl ⟨htime, rfl, rfl⟩⟩⟩
  | @later _ reply notes h' now _ ho hnotes hearly hrest =>
    exact ⟨reply, _, rfl, .inr ⟨verdict?_eq_none_iff.mpr ho, notes, now, _, rfl, hnotes,
      .inr ⟨hearly, h', rfl, hrest⟩⟩⟩

/-- The replies and the clock determine how a wait ends, and when. -/
theorem Hears.unique {t t' : History} (hh : Hears w channel start last h r)
    (hh' : Hears w channel start last h' r') (heq : h ++ t = h' ++ t') : r = r' ∧ t = t' := by
  induction hh generalizing h' with
  | @accepted _ reply status hreply hs =>
    obtain ⟨reply', rest', rfl, hrest'⟩ := hh'.round_cases
    rw [List.append_assoc] at heq
    obtain ⟨rfl, ht⟩ := round_append_inj heq
    rw [hreply, verdict?, if_pos hs] at hrest'
    rcases hrest' with ⟨hr, rfl⟩ | ⟨hr, -⟩
    · exact ⟨Option.some.inj hr, ht⟩
    · cases hr
  | failed he =>
    obtain ⟨reply', rest', rfl, hrest'⟩ := hh'.round_cases
    rw [List.append_assoc] at heq
    obtain ⟨rfl, ht⟩ := round_append_inj heq
    rw [verdict?_failed he] at hrest'
    rcases hrest' with ⟨hr, rfl⟩ | ⟨hr, -⟩
    · exact ⟨Option.some.inj hr, ht⟩
    · cases hr
  | late ho hnotes htime =>
    obtain ⟨reply', rest', rfl, hrest'⟩ := hh'.round_cases
    rw [List.append_assoc, List.append_assoc, List.append_assoc] at heq
    obtain ⟨rfl, ht⟩ := round_append_inj heq
    rw [verdict?_eq_none_iff.mpr ho] at hrest'
    rcases hrest' with ⟨hr, -⟩ | ⟨-, notes', now', rest'', rfl, hnotes', hclock⟩
    · cases hr
    rw [List.append_assoc] at ht
    obtain ⟨rfl, htail⟩ := notes_append_inj hnotes hnotes' ht
    rcases hclock with ⟨-, rfl, rfl⟩ | ⟨hearly, -⟩
    · exact ⟨rfl, htail⟩
    · exact absurd htime (Nat.not_le_of_lt hearly)
  | later ho hnotes hearly _ ih =>
    obtain ⟨reply', rest', rfl, hrest'⟩ := hh'.round_cases
    rw [List.append_assoc, List.append_assoc, List.append_assoc] at heq
    obtain ⟨rfl, ht⟩ := round_append_inj heq
    rw [verdict?_eq_none_iff.mpr ho] at hrest'
    rcases hrest' with ⟨hr, -⟩ | ⟨-, notes', now', rest'', rfl, hnotes', hclock⟩
    · cases hr
    rw [List.append_assoc] at ht
    obtain ⟨rfl, htail⟩ := notes_append_inj hnotes hnotes' ht
    rcases hclock with ⟨htime, -⟩ | ⟨-, h'', rfl, hh''⟩
    · exact absurd htime (Nat.not_le_of_lt hearly)
    · exact ih hh'' (List.cons.inj htail).2

/-! ## What it hears on the wire -/

theorem not_open_of_accepted {reply : Except LinkError DeviceStatus} {status : DeviceStatus}
    (hreply : reply = .ok status) (hs : status.state ∈ w.accepted) : ¬ w.Open reply := by
  rintro (rfl | ⟨status', rfl, hs'⟩)
  · cases hreply
  · cases hreply
    exact hs' hs

theorem reports_iff {reply : Except LinkError ControlPacket} {status : DeviceStatus} :
    Exchange.Reports ⟨.getStatus, some reply⟩ status ↔ statusOf reply = .ok status := by
  constructor
  · rintro ⟨-, packet, hreply, rfl⟩
    cases hreply
    rfl
  · intro hstatus
    cases reply with
    | error e => cases hstatus
    | ok packet => exact ⟨rfl, packet, rfl, Except.ok.inj hstatus⟩

/-- A status that is waited for ends the wait at once. -/
theorem Hears.ends_at {before after : List Exchange} {x : Exchange} {status : DeviceStatus}
    (hh : Hears w channel start last h r) (heq : wire channel h = before ++ x :: after) (hx : x.Reports status)
    (hs : status.state ∈ w.accepted) : after = [] ∧ r = .ok status := by
  have hone : ∀ {y : Exchange} {before : List Exchange}, [y] = before ++ x :: after → x = y ∧ after = [] := by
    intro y before heq
    cases before with
    | nil =>
      obtain ⟨rfl, rfl⟩ := List.cons.inj heq
      exact ⟨rfl, rfl⟩
    | cons z before => simp at heq
  induction hh generalizing before with
  | accepted hreply _ =>
    rw [wire_round] at heq
    obtain ⟨rfl, hafter⟩ := hone heq
    cases hreply.symm.trans (reports_iff.mp hx)
    exact ⟨hafter, rfl⟩
  | failed he =>
    rw [wire_round] at heq
    obtain ⟨rfl, -⟩ := hone heq
    cases reports_iff.mp hx
  | late ho hnotes _ =>
    rw [wire_append, wire_append, wire_round, wire_notes hnotes] at heq
    obtain ⟨rfl, -⟩ := hone heq
    exact absurd ho (not_open_of_accepted (reports_iff.mp hx) hs)
  | later ho hnotes _ _ ih =>
    rw [wire_append, wire_append, wire_round, wire_notes hnotes, wire_host, wire_host, List.nil_append,
      List.singleton_append] at heq
    cases before with
    | nil =>
      obtain ⟨rfl, -⟩ := List.cons.inj heq
      exact absurd ho (not_open_of_accepted (reports_iff.mp hx) hs)
    | cons y before => exact ih (List.cons.inj heq).2

/-- The reply that ended the wait, by a status or by a failure, is the last one. -/
theorem Hears.getLast? (hh : Hears w channel start last h r) :
    ∃ reply, (wire channel h).getLast? = some ⟨.getStatus, some reply⟩ ∧
    (∀ status, r = .ok status → statusOf reply = .ok status) ∧ ∀ e, r = .error (.link e) → reply = .error e := by
  induction hh with
  | @accepted _ reply _ hreply _ =>
    refine ⟨reply, by rw [wire_round]; rfl, fun status heq => ?_, nofun⟩
    cases heq
    exact hreply
  | failed he =>
    refine ⟨.error _, by rw [wire_round]; rfl, nofun, fun e' heq => ?_⟩
    cases heq
    rfl
  | @late _ reply _ _ ho hnotes _ =>
    refine ⟨reply, ?_, nofun, nofun⟩
    rw [wire_append, wire_append, wire_round, wire_notes hnotes]
    rfl
  | later ho hnotes _ _ ih =>
    obtain ⟨reply, hlast, hrest⟩ := ih
    refine ⟨reply, ?_, hrest⟩
    rw [wire_append, wire_append, wire_host, wire_host, List.getLast?_append, List.getLast?_append, hlast]
    rfl

/-- A wait that heeds no request to stop begins with a query. -/
theorem Hears.head (hw : w.heedsStop = false) (hh : Hears w channel start last h r) : ∃ reply rest,
    h = .asked (.transfer channel .getStatus w.requestTimeout) (some reply) :: rest := by
  have hround : ∀ reply, w.round channel reply =
      [.asked (.transfer channel .getStatus w.requestTimeout) (some reply)] := by
    intro reply
    simp [round, hw]
  cases hh with
  | accepted | failed => exact ⟨_, [], hround _⟩
  | late | later => exact ⟨_, _, by rw [hround]; rfl⟩

end Wait

end Reflash
