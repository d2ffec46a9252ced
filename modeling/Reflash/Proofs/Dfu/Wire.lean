import Reflash.Dfu.Download
import Reflash.Proofs.Actions

/-!
# Reflash.Proofs.Dfu.Wire — the control transfers of a history

`wire channel h` lists the control transfers that the calls `h` make on one channel, with their replies.  A
status query is one transfer, and a wait is a row of them: all but the last leave the wait open, and the last
one decides it (`Wait.finishes_run_ok`).
-/

namespace Reflash

open Program

/-- A control transfer and the reply to it, `none` if whoever asked for it died. -/
structure Exchange where
  packet : ControlPacket
  reply? : Option (Except LinkError ControlPacket)

namespace Exchange

def isDownload (x : Exchange) : Bool := x.packet.request = DfuRequest.download.code

/-- The channel took the packet. -/
def IsAccepted (x : Exchange) : Prop := ∃ p, x.reply? = some (.ok p)

/-- A status query that was answered, and with this status. -/
def Reports (x : Exchange) (status : DeviceStatus) : Prop :=
  x.packet = .getStatus ∧ ∃ p, x.reply? = some (.ok p) ∧ DeviceStatus.decode p.payload = status

/-- A status query that was answered by an idle loader without a fault. -/
def Acknowledges (x : Exchange) : Prop :=
  ∃ status, x.Reports status ∧ status.state = .downloadIdle ∧ status.code = .ok

/-- A status query that decides nothing: the loader was busy, or in a state that is not waited for. -/
def LeavesOpen (accepted : List DfuState) (x : Exchange) : Prop :=
  x.packet = .getStatus ∧ (x.reply? = some (.error .busy) ∨ ∃ status, x.Reports status ∧ status.state ∉ accepted)

theorem Reports.unique {x : Exchange} {status status' : DeviceStatus} (hx : x.Reports status)
    (hx' : x.Reports status') :
    status = status' := by
  obtain ⟨-, p, hp, rfl⟩ := hx
  obtain ⟨-, p', hp', rfl⟩ := hx'
  rw [hp] at hp'
  cases hp'
  rfl

theorem not_isDownload_of_getStatus {x : Exchange} (hx : x.packet = .getStatus) : x.isDownload = false := by
  rw [isDownload, hx]
  rfl

end Exchange

/-- The transfer that a call makes on a channel. -/
def exchange? (channel : ControlChannel) : Event (cameras.sum host) → Option Exchange
  | ⟨.inl (.transfer c packet _), reply?⟩ => if c = channel then some ⟨packet, reply?⟩ else none
  | _ => none

/-- The transfers that calls make on a channel. -/
def wire (channel : ControlChannel) (h : History) : List Exchange := h.filterMap (exchange? channel)

section Wire

variable {channel : ControlChannel} {h : History}

@[simp] theorem wire_nil : wire channel [] = [] := rfl

@[simp] theorem wire_append (h₁ h₂ : History) : wire channel (h₁ ++ h₂) = wire channel h₁ ++ wire channel h₂ :=
  List.filterMap_append

@[simp] theorem wire_transfer (packet : ControlPacket) (timeout : Nanos)
    (reply? : Option (Except LinkError ControlPacket)) (h : History) :
    wire channel (.asked (.transfer channel packet timeout) reply? :: h) = ⟨packet, reply?⟩ :: wire channel h := by
  simp [wire, exchange?]

@[simp] theorem wire_host (c : HostCall) (a? : Option c.Answer) (h : History) :
    wire channel (.told c a? :: h) = wire channel h := rfl

/-- What holds of the packets that the calls may send holds of those on the wire. -/
theorem packet_of_mem_wire {P : ControlPacket → Prop}
    (hP : ∀ e ∈ h, ∀ packet timeout, e.call = .inl (.transfer channel packet timeout) → P packet) :
    ∀ x ∈ wire channel h, P x.packet := by
  intro x hx
  obtain ⟨⟨c, a?⟩, he, hex⟩ := List.mem_filterMap.mp hx
  unfold exchange? at hex
  split at hex
  · rename_i c' packet timeout reply? heq
    split_ifs at hex with hc
    subst hc
    cases heq
    cases hex
    exact hP _ he packet timeout rfl
  · cases hex

theorem wire_eq_nil (hP : ∀ e ∈ h, ∀ packet timeout, e.call ≠ .inl (.transfer channel packet timeout)) :
    wire channel h = [] := by
  by_contra hne
  obtain ⟨x, hx⟩ := List.exists_mem_of_ne_nil _ hne
  exact packet_of_mem_wire (P := fun _ => False) hP x hx

theorem wire_eq_nil_of_only {α : Type} {p : Action α} {kinds : List CallKind} (hp : p.Only (ofKinds kinds))
    (hkinds : .transfer ∉ kinds) (hb : p.Begins h) : wire channel h = [] := by
  refine wire_eq_nil fun e he packet timeout hcall => ?_
  have hk := Only.calls hp hb e he
  rw [hcall] at hk
  exact hkinds hk

end Wire

/-! ## Status queries -/

variable {channel : ControlChannel} {timeout : Nanos} {h : History}

theorem finishes_queryStatus {r : Except LinkError DeviceStatus} :
    (queryStatus channel timeout).Finishes h r ↔ ∃ reply : Except LinkError ControlPacket,
      h = [.asked (.transfer channel .getStatus timeout) (some reply)] ∧
        r = reply.map fun packet => DeviceStatus.decode packet.payload := by
  simp only [queryStatus, bind_eq, finishes_bind, finishes_ask]
  constructor
  · rintro ⟨reply, h₁, h₂, rfl, rfl, hr⟩
    refine ⟨reply, ?_⟩
    cases reply with
    | error e =>
      obtain ⟨rfl, rfl⟩ := finishes_done.mp hr
      exact ⟨rfl, rfl⟩
    | ok packet =>
      obtain ⟨rfl, rfl⟩ := finishes_done.mp hr
      exact ⟨rfl, rfl⟩
  · rintro ⟨reply, rfl, rfl⟩
    refine ⟨reply, _, [], by simp, rfl, ?_⟩
    cases reply <;> exact .done _

theorem only_queryStatus {P : (cameras.sum host).Call → Prop}
    (hP : P (.inl (.transfer channel .getStatus timeout))) :
    (queryStatus channel timeout).Only P := by
  refine only_bind (only_ask.mpr hP) fun reply => ?_
  cases reply <;> trivial

/-! ## Waits -/

namespace Wait

variable {w : Wait}

/-- The calls of a wait: status queries on its channel, and calls on clock, log and stop request. -/
def Calls (w : Wait) (channel : ControlChannel) (c : (cameras.sum host).Call) : Prop :=
  c = .inl (.transfer channel .getStatus w.requestTimeout) ∨ ofKinds [.clock, .log, .stop] c

theorem only_reportReply {P : (cameras.sum host).Call → Prop} (hP : ∀ text, P (.inr (.log ⟨.trace, text, false⟩)))
    (reply : Except LinkError DeviceStatus) : (reportReply reply).Only P := by
  unfold reportReply
  split
  · exact only_report.mpr (hP _)
  · exact only_report.mpr (hP _)
  · trivial

theorem only_loop {P : (cameras.sum host).Call → Prop}
    (hquery : P (.inl (.transfer channel .getStatus w.requestTimeout)))
    (hquiet : ∀ c, ofKinds [.clock, .log] c → P c) (hstop : w.heedsStop = true → P (.inr .stopRequested))
    (start : Nanos) (rounds : Nat) (last : Option DeviceStatus) :
    (w.loop channel start rounds last).Only P := by
  induction rounds generalizing last with
  | zero => trivial
  | succ rounds ih =>
    have hlook : (shouldStop w.heedsStop).Only P := by
      unfold shouldStop
      split
      · exact only_tell.mpr (hstop ‹_›)
      · trivial
    refine only_bind hlook fun stop => ?_
    split
    · trivial
    refine only_bind (only_queryStatus hquery) fun reply => ?_
    refine only_bind (only_reportReply (fun text => hquiet _ (by simp)) reply) fun _ => ?_
    split
    · trivial
    refine only_bind (only_tell.mpr (hquiet _ (by simp))) fun now => ?_
    split
    · trivial
    exact only_bind (only_tell.mpr (hquiet _ (by simp))) fun _ => ih _

theorem only_run : (w.run channel).Only (w.Calls channel) :=
  only_bind (only_tell.mpr (.inr (by simp))) fun start =>
    only_loop (.inl rfl) (fun c hc => .inr (ofKinds.mono (by simp) c hc)) (fun _ => .inr (by simp)) start _ none

/-- The calls of a wait that heeds no request to stop. -/
def Polls (w : Wait) (channel : ControlChannel) (c : (cameras.sum host).Call) : Prop :=
  c = .inl (.transfer channel .getStatus w.requestTimeout) ∨ ofKinds [.clock, .log] c

/-- A wait that heeds no request to stop does not look for one. -/
theorem only_run_of_deaf (hw : w.heedsStop = false) : (w.run channel).Only (w.Polls channel) := by
  refine only_bind (only_tell.mpr (.inr (by simp))) fun start =>
    only_loop (.inl rfl) (fun c => .inr) ?_ start _ none
  intro hstop
  rw [hw] at hstop
  cases hstop

/-- On the wire a wait is nothing but status queries. -/
theorem packet_of_begins (hb : (w.run channel).Begins h) : ∀ x ∈ wire channel h, x.packet = .getStatus := by
  refine packet_of_mem_wire (P := fun packet => packet = .getStatus) fun e he packet timeout hcall => ?_
  rcases Only.calls only_run hb e he with hc | hc
  · rw [hcall] at hc
    cases hc
    rfl
  · rw [hcall] at hc
    simp at hc

theorem not_isDownload_of_begins (hb : (w.run channel).Begins h) : ∀ x ∈ wire channel h, !x.isDownload := by
  intro x hx
  rw [Exchange.not_isDownload_of_getStatus (packet_of_begins hb x hx)]
  rfl

theorem verdict?_eq_none {reply : Except LinkError DeviceStatus} :
    w.verdict? reply = none ↔ reply = .error .busy ∨ ∃ status, reply = .ok status ∧ status.state ∉ w.accepted := by
  unfold verdict?
  split
  · simp
  · simp
  · rename_i e he
    simpa using he

/-- The query behind a reply that leaves a wait open. -/
theorem leavesOpen_of_verdict? {reply : Except LinkError ControlPacket}
    (hv : w.verdict? (reply.map fun packet => DeviceStatus.decode packet.payload) = none) :
    Exchange.LeavesOpen w.accepted ⟨.getStatus, some reply⟩ := by
  refine ⟨rfl, ?_⟩
  rcases verdict?_eq_none.mp hv with hbusy | ⟨status, hok, hs⟩
  · cases reply with
    | error e =>
      cases hbusy
      exact .inl rfl
    | ok packet => cases hbusy
  · cases reply with
    | error e => cases hok
    | ok packet =>
      cases hok
      exact .inr ⟨_, ⟨rfl, packet, rfl, rfl⟩, hs⟩

/-- What the last query of a wait says about its end, for a wait that began at `start` and then made the calls
`h`: the status is one that was waited for, the query failed, or it decided nothing and the time was up. -/
def Decides (w : Wait) (start : Nanos) (h : History) (x : Exchange) : Except WaitError DeviceStatus → Prop
  | .ok status => x.Reports status ∧ status.state ∈ w.accepted
  | .error (.link e) => x.packet = .getStatus ∧ x.reply? = some (.error e) ∧ e ≠ .busy
  | .error (.timeout _ _ _) => x.LeavesOpen w.accepted ∧
      ∃ now, h.getLast? = some (.told .now (some now)) ∧ w.timeout ≤ now - start
  | .error .stopped => False

/-- Some run of the wait was not stopped, and is over: queries that left it open, and a last one that ended it. -/
def Concluded (w : Wait) (channel : ControlChannel) (h : History) : Prop :=
  ∃ start rest polls x r, h = .told .now (some start) :: rest ∧ wire channel rest = polls ++ [x] ∧
    (∀ y ∈ polls, y.LeavesOpen w.accepted) ∧ w.Decides start rest x r

/-- What a verdict says about the query behind it. -/
theorem decides_of_verdict? {start : Nanos} {reply : Except LinkError ControlPacket}
    {r : Except WaitError DeviceStatus}
    (hv : w.verdict? (reply.map fun packet => DeviceStatus.decode packet.payload) = some r) :
    w.Decides start h ⟨.getStatus, some reply⟩ r := by
  cases reply with
  | ok packet =>
    rw [Except.map] at hv
    unfold verdict? at hv
    dsimp only at hv
    split_ifs at hv with hs
    cases hv
    exact ⟨⟨rfl, packet, rfl, rfl⟩, hs⟩
  | error e =>
    cases e with
    | busy => cases hv
    | _ =>
      cases hv
      exact ⟨rfl, rfl, nofun⟩

theorem Decides.append {start : Nanos} {h' : History} {x : Exchange} {r : Except WaitError DeviceStatus}
    (hd : w.Decides start h x r) : w.Decides start (h' ++ h) x r := by
  match r, hd with
  | .ok _, hd => exact hd
  | .error (.link _), hd => exact hd
  | .error (.timeout _ _ _), ⟨hopen, now, hlast, htime⟩ =>
    refine ⟨hopen, now, ?_, htime⟩
    rw [List.getLast?_append, hlast]
    rfl

/-- A wait that was not stopped: queries that left it open, and then one that ended it. -/
theorem finishes_loop {start : Nanos} {rounds : Nat} {last : Option DeviceStatus}
    {r : Except WaitError DeviceStatus} (hr : r ≠ .error .stopped)
    (hf : (w.loop channel start rounds last).Finishes h r) :
    ∃ polls x, wire channel h = polls ++ [x] ∧ (∀ y ∈ polls, y.LeavesOpen w.accepted) ∧ w.Decides start h x r := by
  induction rounds generalizing last h with
  | zero => exact absurd hf not_finishes_stalled
  | succ rounds ih =>
    simp only [loop, bind_eq, finishes_bind] at hf
    obtain ⟨stop, h₁, h₂, rfl, hstop, hf⟩ := hf
    have hw₁ : wire channel h₁ = [] :=
      wire_eq_nil_of_only (only_shouldStop (P := ofKinds [.stop]) (by simp)) (by decide) hstop.begins
    split at hf
    · exact absurd (finishes_done.mp hf).2 hr
    simp only [finishes_bind] at hf
    obtain ⟨reply, h₃, h₄, rfl, hreply, u, h₅, h₆, rfl, hlog, hf⟩ := hf
    have hw₅ : wire channel h₅ = [] :=
      wire_eq_nil_of_only (only_reportReply (P := ofKinds [.log]) (fun _ => by simp) reply) (by decide) hlog.begins
    obtain ⟨raw, rfl, rfl⟩ := finishes_queryStatus.mp hreply
    split at hf
    · rename_i result hv
      obtain ⟨rfl, rfl⟩ := finishes_done.mp hf
      exact ⟨[], ⟨.getStatus, some raw⟩, by simp [hw₁, hw₅], by simp, decides_of_verdict? hv⟩
    · rename_i hv
      have hopen := leavesOpen_of_verdict? hv
      simp only [finishes_bind, finishes_tell] at hf
      obtain ⟨now, h₇, h₈, rfl, rfl, hf⟩ := hf
      split at hf
      · rename_i htime
        obtain ⟨rfl, rfl⟩ := finishes_done.mp hf
        exact ⟨[], ⟨.getStatus, some raw⟩, by simp [hw₁, hw₅], by simp, hopen,
          now, by simp [List.getLast?_cons], htime⟩
      simp only [finishes_bind, finishes_tell] at hf
      obtain ⟨u', h₉, h₁₀, rfl, rfl, hf⟩ := hf
      obtain ⟨polls, x, hwire, hpolls, hx⟩ := ih hf
      refine ⟨⟨.getStatus, some raw⟩ :: polls, x, by simp [hw₁, hw₅, hwire], ?_, ?_⟩
      · intro y hy
        rcases List.mem_cons.mp hy with rfl | hy
        · exact hopen
        · exact hpolls y hy
      · exact hx.append.append.append.append.append

theorem finishes_run {r : Except WaitError DeviceStatus} (hr : r ≠ .error .stopped)
    (hf : (w.run channel).Finishes h r) :
    ∃ start rest polls x, h = .told .now (some start) :: rest ∧ wire channel rest = polls ++ [x] ∧
      (∀ y ∈ polls, y.LeavesOpen w.accepted) ∧ w.Decides start rest x r := by
  simp only [run, bind_eq, finishes_bind, finishes_tell] at hf
  obtain ⟨start, h₁, h₂, rfl, rfl, hf⟩ := hf
  obtain ⟨polls, x, hwire, hpolls, hx⟩ := finishes_loop hr hf
  exact ⟨start, h₂, polls, x, rfl, hwire, hpolls, hx⟩

/-- A wait that ended well: queries that left it open, and then one with a status that was waited for. -/
theorem finishes_run_ok {status : DeviceStatus} (hf : (w.run channel).Finishes h (.ok status)) :
    ∃ polls x, wire channel h = polls ++ [x] ∧ (∀ y ∈ polls, y.LeavesOpen w.accepted) ∧ x.Reports status ∧
      status.state ∈ w.accepted := by
  obtain ⟨start, rest, polls, x, rfl, hwire, hpolls, hx⟩ := finishes_run (r := .ok status) nofun hf
  exact ⟨polls, x, by simpa using hwire, hpolls, hx⟩

end Wait

end Reflash
