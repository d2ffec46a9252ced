import Reflash.Proofs.Dfu.Rounds

/-!
# Reflash.Proofs.Guarded — nothing risky without a look

A call is `Risky` that changes a camera or begins new work on it.  It is `Guarded` by a look at the
request to stop that found none, with no event since then; only the attempts at one exchange may share a
look.  A program is `Careful` if it comes to no risky call without such a guard.  So a request that comes
during the `n`-th event finds every risky call behind it, or, if this event is an exchange, the next
attempts at it (`risky_after_stop`).
-/

namespace Reflash

open Program

/-- A packet that brings a loader some bytes of an image. -/
def ControlPacket.CarriesData (p : ControlPacket) : Prop := p.IsDownload ∧ p.data ≠ []

/-- A call that changes a camera, or begins new work on it. -/
def Risky (c : (cameras.sum host).Call) : Prop :=
  kindOf c ∈ [CallKind.restart, .list, .openControl, .exchange] ∨
    ∃ channel packet timeout, c = .inl (.transfer channel packet timeout) ∧ packet.CarriesData

/-- The calls `h` end with a look that found no request to stop, and then no event but
attempts at the exchange `c`. -/
def Guarded (h : History) (c : (cameras.sum host).Call) : Prop :=
  ∃ h₁ h₂, h = h₁ ++ .looked false :: h₂ ∧ ∀ e ∈ trace h₂, e.call = c ∧ kindOf c = .exchange

variable {α β ε δ : Type} {h : History} {c : (cameras.sum host).Call}

theorem not_risky_of_kind (hkind : kindOf c ∉ [CallKind.restart, .list, .openControl, .exchange, .transfer]) :
    ¬ Risky c := by
  rintro (hc | ⟨channel, packet, timeout, rfl, -⟩)
  · exact hkind (List.mem_append_left [CallKind.transfer] hc)
  · simp at hkind

theorem not_risky_of_not_isEvent (hc : isEvent c = false) : ¬ Risky c := by
  have hevents : ∀ k ∈ [CallKind.restart, .list, .openControl, .exchange, .transfer], k.isEvent = true := by decide
  refine not_risky_of_kind fun hkind => ?_
  rw [isEvent, hevents _ hkind] at hc
  cases hc

theorem not_risky_of_ofKinds {kinds : List CallKind} (hc : ofKinds kinds c)
    (hkinds : ∀ k ∈ kinds, k ∉ [CallKind.restart, .list, .openControl, .exchange, .transfer]) : ¬ Risky c :=
  not_risky_of_kind (hkinds _ hc)

theorem guarded_looked (c : (cameras.sum host).Call) : Guarded [.looked false] c := ⟨[], [], rfl, nofun⟩

theorem Guarded.append_left (hc : Guarded h c) (h' : History) : Guarded (h' ++ h) c := by
  obtain ⟨h₁, h₂, rfl, hquiet⟩ := hc
  exact ⟨h' ++ h₁, h₂, by simp, hquiet⟩

/-- Nothing happened between a look and the first event after it. -/
theorem Guarded.insert {quiet : History} (hquiet : trace quiet = []) (hc : Guarded (.looked false :: h) c) :
    Guarded (.looked false :: (quiet ++ h)) c := by
  obtain ⟨h₁, h₂, heq, hrest⟩ := hc
  cases h₁ with
  | nil =>
    obtain ⟨-, rfl⟩ := List.cons.inj heq
    refine ⟨[], quiet ++ h, rfl, ?_⟩
    rwa [trace_append, hquiet, List.nil_append]
  | cons e h₁ =>
    obtain ⟨rfl, rfl⟩ := List.cons.inj heq
    exact ⟨.looked false :: (quiet ++ h₁), h₂, by simp, hrest⟩

/-! ## Careful programs -/

/-- The program comes to no risky call without a guard. -/
def Program.Careful (p : Action α) : Prop := ∀ h c next, p.ComesTo h c next → Risky c → Guarded h c

/-- The program is careful where it begins right after a look that found no request. -/
def Program.CarefulOnceLooked (p : Action α) : Prop :=
  ∀ h c next, p.ComesTo h c next → Risky c → Guarded (.looked false :: h) c

theorem careful_of_only {p : Action α} (hp : p.Only fun c => ¬ Risky c) : p.Careful :=
  fun _ _ _ hc hrisky => absurd hrisky (hc.only hp)

theorem careful_done (a : α) : (Program.done a : Action α).Careful := fun _ _ _ hc _ => absurd hc not_comesTo_done

theorem careful_bind {p : Action α} {f : α → Action β} (hp : p.Careful) (hf : ∀ a, (f a).Careful) :
    (p.bind f).Careful := by
  intro h c next hc hrisky
  rcases comesTo_bind.mp hc with ⟨next', hc', -⟩ | ⟨a, h₁, h₂, rfl, -, hc'⟩
  · exact hp h c next' hc' hrisky
  · exact (hf a h₂ c next hc' hrisky).append_left h₁

/-- A program that looks, and ends if there is a request. -/
theorem careful_look {f : Bool → Action β} (hstop : (f true).Careful) (hgo : (f false).CarefulOnceLooked) :
    ((tell .stopRequested).bind f).Careful := by
  intro h c next hc hrisky
  have hne : c ≠ .inr .stopRequested := by
    rintro rfl
    exact not_risky_of_not_isEvent rfl hrisky
  obtain ⟨stop, h', rfl, hrest⟩ := comesTo_after_look hc hne
  cases stop with
  | true => exact (hstop h' c next hrest hrisky).append_left [.looked true]
  | false => exact hgo h' c next hrest hrisky

theorem Program.Careful.onceLooked {p : Action α} (hp : p.Careful) : p.CarefulOnceLooked :=
  fun h c next hc hrisky => (hp h c next hc hrisky).append_left [.looked false]

theorem onceLooked_ask (call : CameraCall) : (ask call).CarefulOnceLooked := by
  intro h c next hc _
  cases hc with
  | here => exact guarded_looked _
  | later hc => exact absurd hc not_comesTo_done

/-- The attempts at one exchange need one look. -/
theorem onceLooked_of_only {p : Action α} {exchange : (cameras.sum host).Call}
    (hkind : kindOf exchange = .exchange) (hp : p.Only fun c => c = exchange ∨ isEvent c = false) :
    p.CarefulOnceLooked := by
  intro h c next hc hrisky
  have hcall : c = exchange := (hc.only hp).resolve_right fun hquiet => not_risky_of_not_isEvent hquiet hrisky
  subst hcall
  refine ⟨[], h, rfl, fun e he => ⟨?_, hkind⟩⟩
  obtain ⟨hmem, hevent⟩ := List.mem_filter.mp he
  refine (hp.calls hc.dies e (List.mem_append_left _ hmem)).resolve_right fun hquiet => ?_
  rw [hquiet] at hevent
  cases hevent

theorem onceLooked_bind {p : Action α} {f : α → Action β} (hp : p.CarefulOnceLooked) (hf : ∀ a, (f a).Careful) :
    (p.bind f).CarefulOnceLooked := by
  intro h c next hc hrisky
  rcases comesTo_bind.mp hc with ⟨next', hc', -⟩ | ⟨a, h₁, h₂, rfl, -, hc'⟩
  · exact hp h c next' hc' hrisky
  · exact (hf a h₂ c next hc' hrisky).append_left (.looked false :: h₁)

/-- What makes no event may come between the look and the risky call. -/
theorem onceLooked_quiet {p : Action α} {f : α → Action β} (hp : p.Only fun c => isEvent c = false)
    (hf : ∀ a, (f a).CarefulOnceLooked) : (p.bind f).CarefulOnceLooked := by
  intro h c next hc hrisky
  rcases comesTo_bind.mp hc with ⟨next', hc', -⟩ | ⟨a, h₁, h₂, rfl, hfin, hc'⟩
  · exact absurd hrisky (not_risky_of_not_isEvent (hc'.only hp))
  · refine (hf a h₂ c next hc' hrisky).insert (List.filter_eq_nil_iff.mpr fun e he => ?_)
    rw [hp.calls hfin.begins e he]
    exact Bool.false_ne_true

/-! ## Careful attempts -/

namespace Attempt

def Careful (x : Attempt ε α) : Prop := Program.Careful x.run

def CarefulOnceLooked (x : Attempt ε α) : Prop := Program.CarefulOnceLooked x.run

theorem careful_of_only {x : Attempt ε α} (hx : x.Only fun c => ¬ Risky c) : x.Careful :=
  Reflash.careful_of_only hx

/-- What is careful whatever its first part gave is careful where this part failed. -/
theorem careful_andThen {f : α → Attempt ε β} (hf : ∀ a, (f a).Careful) (r : Except ε α) :
    (andThen f r).Careful := by
  cases r with
  | ok a => exact hf a
  | error e => exact careful_done _

theorem careful_bind {x : Attempt ε α} {f : α → Attempt ε β} (hx : x.Careful) (hf : ∀ a, (f a).Careful) :
    (x >>= f).Careful := by
  rw [Careful, run_bind_eq]
  exact Reflash.careful_bind hx (careful_andThen hf)

theorem onceLooked_bind {x : Attempt ε α} {f : α → Attempt ε β} (hx : x.CarefulOnceLooked)
    (hf : ∀ a, (f a).Careful) :
    (x >>= f).CarefulOnceLooked := by
  rw [CarefulOnceLooked, run_bind_eq]
  exact Reflash.onceLooked_bind hx (careful_andThen hf)

theorem onceLooked_quiet {p : Action α} {f : α → Attempt ε β} (hp : p.Only fun c => isEvent c = false)
    (hf : ∀ a, (f a).CarefulOnceLooked) : ((liftM p : Attempt ε α) >>= f).CarefulOnceLooked := by
  rw [CarefulOnceLooked, run_lift_bind]
  exact Reflash.onceLooked_quiet hp hf

@[simp] theorem careful_pure (a : α) : (pure a : Attempt ε α).Careful := careful_done _

theorem careful_of {f : δ → ε} {x : Action (Except δ α)} (hx : x.Careful) : (Attempt.of f x).Careful := by
  rw [Careful, run_of]
  exact Reflash.careful_bind hx fun r => careful_done _

theorem onceLooked_of {f : δ → ε} {x : Action (Except δ α)} (hx : x.CarefulOnceLooked) :
    (Attempt.of f x).CarefulOnceLooked := by
  rw [CarefulOnceLooked, run_of]
  exact Reflash.onceLooked_bind hx fun r => careful_done _

/-- What comes after it may count on the look. -/
theorem careful_ensureLive {f : Unit → Attempt UpdateError α} (hf : (f ()).CarefulOnceLooked) :
    (Session.ensureLive >>= f).Careful := by
  have hrun : (Session.ensureLive >>= f).run = (tell .stopRequested).bind fun stop =>
      if stop then .done (.error .stopped) else (f ()).run := by
    rw [Session.ensureLive, LawfulMonad.bind_assoc, run_lift_bind]
    congr
    funext stop
    cases stop <;> rfl
  rw [Careful, hrun]
  exact careful_look (careful_done _) hf

end Attempt

/-! ## A request during an event -/

section Environment

variable {σ : Type} {env : Environment (cameras.sum host) σ}

variable (env) in
/-- The world counts the events. -/
theorem Environment.stoppedAt_counts (n? : Option Nat) (s : σ × Nat) (h : History) :
    ((env.stoppedAt n?).after s h).2 = s.2 + (trace h).length := by
  induction h generalizing s with
  | nil => rfl
  | cons e h ih =>
    rw [Environment.after_cons, ih]
    by_cases hstop : e.call = .inr .stopRequested
    · have hquiet : isEvent e.call = false := by rw [hstop]; rfl
      rw [trace_cons_of_not_isEvent hquiet, hstop]
      rfl
    · rw [Environment.stoppedAt_of_ne hstop]
      cases hevent : isEvent e.call with
      | true =>
        rw [trace_cons_of_isEvent hevent, List.length_cons]
        simp only [if_true]
        omega
      | false =>
        rw [trace_cons_of_not_isEvent hevent]
        simp

/-- An event with `n` others before it. -/
theorem exists_split_of_mem_drop {n : Nat} {e : Event (cameras.sum host)} (he : e ∈ (trace h).drop n) :
    ∃ before after, h = before ++ e :: after ∧ n ≤ (trace before).length := by
  obtain ⟨l₁, l₂, hdrop⟩ := List.append_of_mem he
  have hsplit : trace h = ((trace h).take n ++ l₁) ++ e :: l₂ := by
    rw [List.append_assoc, ← hdrop, List.take_append_drop]
  obtain ⟨before, rest, rfl, hbefore, hrest⟩ := List.filter_eq_append_iff.mp hsplit
  obtain ⟨quiet, after, rfl, hquiet, -, -⟩ := List.filter_eq_cons_iff.mp hrest
  refine ⟨before ++ quiet, after, by simp, ?_⟩
  have hn : n < (trace (before ++ (quiet ++ e :: after))).length := by
    by_contra hle
    rw [List.drop_eq_nil_of_le (by omega)] at he
    exact absurd he List.not_mem_nil
  have hlen : (trace before).length = n + l₁.length := by
    rw [trace, hbefore, List.length_append, List.length_take]
    omega
  rw [trace_append, List.length_append]
  omega

/-- A careful program that is asked to stop during its `n`-th event comes to nothing risky any more; but if this
event is an exchange, it may make more attempts at it. -/
theorem risky_after_stop {p : Action α} (hp : p.Careful) (n : Nat) (s : σ) :
    ∀ e ∈ (trace (p.history (env.stoppedAt (some n)) (s, 0))).drop n, Risky e.call → kindOf e.call = .exchange ∧
      ∃ m e₀, n = m + 1 ∧ (trace (p.history (env.stoppedAt (some n)) (s, 0)))[m]? = some e₀ ∧
        e₀.call = e.call := by
  intro e he hrisky
  obtain ⟨before, after, hh, hn⟩ := exists_split_of_mem_drop he
  have hb := begins_history (env.stoppedAt (some n)) p (s, 0)
  have hgives := (env.stoppedAt (some n)).gives_history p (s, 0)
  rw [hh] at hb hgives ⊢
  obtain ⟨next, hc, -⟩ := begins_append_cons.mp hb
  obtain ⟨h₁, h₂, rfl, hrepeats⟩ := hp before e.call next hc hrisky
  -- The look came before the request, so the `n`-th event is one of those after it.
  have hlook : ¬ n ≤ (trace h₁).length := by
    rw [List.append_assoc] at hgives
    have hfalse := ((Environment.gives_append _ _ _ _).mp hgives).2.1
    have hcount := env.stoppedAt_counts (some n) (s, 0) h₁
    intro hle
    have htrue : (env.stoppedAt (some n) (.inr .stopRequested) ((env.stoppedAt (some n)).after (s, 0) h₁)).1 =
        some true := by
      simp [Environment.stoppedAt, hcount, hle]
    have hcontra := htrue.symm.trans hfalse
    cases hcontra
  rw [trace_append, trace_cons_of_not_isEvent rfl, List.length_append] at hn
  obtain ⟨m, rfl⟩ : ∃ m, n = m + 1 := ⟨n - 1, by omega⟩
  have hlt : m - (trace h₁).length < (trace h₂).length := by omega
  obtain ⟨hcall, hkind⟩ := hrepeats _ (List.getElem_mem hlt)
  refine ⟨hkind, m, _, rfl, ?_, hcall⟩
  rw [trace_append, trace_append, trace_cons_of_not_isEvent rfl, List.append_assoc,
    List.getElem?_append_right (by omega), List.getElem?_append_left hlt, List.getElem?_eq_getElem hlt]

end Environment

end Reflash
