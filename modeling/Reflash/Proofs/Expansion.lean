import Reflash.Proofs.Runs

/-!
# Reflash.Proofs.Expansion — programs whose calls are carried out by other programs

`CarriedOut f s h H s'` says that the calls `h`, with the answers in them, can be carried out one after the
other by the calls `H` of another interface, where `f` carries out a single call.  A finished run of `p.expand f
s` is a finished run of `p` whose calls are carried out (`finishes_expand`), and every call in a run of it is
made on behalf of one call of `p` (`call_of_begins_expand`).
-/

namespace Reflash

namespace Program

variable {I J : Interface} {α S : Type} {f : (c : I.Call) → S → Program J (I.Answer c × S)}

theorem expand_bind {β : Type} (p : Program I α) (g : α → Program I β) (s : S) :
    (p.bind g).expand f s = (p.expand f s).bind fun r => (g r.1).expand f r.2 := by
  induction p generalizing s with
  | done a => rfl
  | stalled => rfl
  | call c next ih =>
    show ((f c s).bind fun r => ((next r.1).bind g).expand f r.2) =
      ((f c s).bind fun r => (next r.1).expand f r.2).bind fun r => (g r.1).expand f r.2
    rw [bind_assoc]
    exact congrArg _ (funext fun r => ih r.1 r.2)

/-- What carries out the calls of a footprint has a footprint of its own. -/
theorem only_expand {P : I.Call → Prop} {Q : J.Call → Prop} {p : Program I α} (hp : p.Only P)
    (hf : ∀ c s, P c → (f c s).Only Q) (s : S) : (p.expand f s).Only Q := by
  induction p generalizing s with
  | done a => trivial
  | stalled => trivial
  | call c next ih => exact only_bind (hf c s hp.1) fun ⟨answer, s'⟩ => ih answer (hp.2 answer) s'

/-- A program without a stall has none either when its calls are carried out by programs without one. -/
theorem stallsAfter_expand {Q : J.Call → Prop} {p : Program I α} (hp : p.StallsAfter fun _ => False)
    (hf : ∀ c s, (f c s).StallsAfter Q) (s : S) : (p.expand f s).StallsAfter Q := by
  induction p generalizing s with
  | done a => trivial
  | stalled => exact hp.elim
  | call c next ih => exact stallsAfter_bind (hf c s) fun ⟨answer, s'⟩ => ih answer (hp.resolve_left id answer) s'

/-- The calls `h` are carried out by the calls `H`; the state goes from the first to the last. -/
inductive CarriedOut (f : (c : I.Call) → S → Program J (I.Answer c × S)) :
    S → List (Event I) → List (Event J) → S → Prop
  | nil (s : S) : CarriedOut f s [] [] s
  | cons {c : I.Call} {answer : I.Answer c} {s s' s'' : S} {h : List (Event I)} {H H' : List (Event J)} :
    (f c s).Finishes H (answer, s') → CarriedOut f s' h H' s'' →
    CarriedOut f s (⟨c, some answer⟩ :: h) (H ++ H') s''

variable {s s' : S} {h h₁ h₂ : List (Event I)} {H before : List (Event J)}

theorem carriedOut_append : CarriedOut f s (h₁ ++ h₂) H s' ↔
    ∃ H₁ H₂ t, H = H₁ ++ H₂ ∧ CarriedOut f s h₁ H₁ t ∧ CarriedOut f t h₂ H₂ s' := by
  induction h₁ generalizing s H with
  | nil =>
    constructor
    · exact fun hc => ⟨[], H, s, rfl, .nil s, hc⟩
    · rintro ⟨_, H₂, _, rfl, ⟨⟩, hc⟩
      exact hc
  | cons e h₁ ih =>
    constructor
    · intro hc
      cases hc with
      | cons hf hc =>
        obtain ⟨H₁, H₂, t, rfl, h₁c, h₂c⟩ := ih.mp hc
        exact ⟨_, H₂, t, (List.append_assoc ..).symm, .cons hf h₁c, h₂c⟩
    · rintro ⟨_, H₂, t, rfl, h₁c, h₂c⟩
      cases h₁c with
      | cons hf h₁c =>
        rw [List.append_assoc]
        exact .cons hf (ih.mpr ⟨_, H₂, t, rfl, h₁c, h₂c⟩)

/-- What every single call keeps of the state, all of them keep. -/
theorem CarriedOut.keeps {P : S → Prop} (hstep : ∀ c s, P s → (f c s).Yields fun r => P r.2)
    (hc : CarriedOut f s h H s') (hs : P s) : P s' := by
  induction hc with
  | nil s => exact hs
  | cons hf _ ih => exact ih ((hstep _ _ hs).of_finishes hf)

/-- One of the calls, and what carried it out. -/
theorem CarriedOut.of_mem {c : I.Call} {answer : I.Answer c} (hc : CarriedOut f s h H s')
    (hmem : ⟨c, some answer⟩ ∈ h) :
    ∃ h₁ h₂ H₁ H₂ H₃ t t', h = h₁ ++ ⟨c, some answer⟩ :: h₂ ∧ H = H₁ ++ (H₂ ++ H₃) ∧ CarriedOut f s h₁ H₁ t ∧
      (f c t).Finishes H₂ (answer, t') := by
  obtain ⟨h₁, h₂, rfl⟩ := List.append_of_mem hmem
  obtain ⟨H₁, _, t, rfl, h₁c, h₂c⟩ := carriedOut_append.mp hc
  cases h₂c with
  | cons hf h₂c => exact ⟨h₁, h₂, H₁, _, _, t, _, rfl, rfl, h₁c, hf⟩

theorem finishes_expand {p : Program I α} {a : α} :
    (p.expand f s).Finishes H (a, s') ↔ ∃ h, p.Finishes h a ∧ CarriedOut f s h H s' := by
  induction p generalizing s H with
  | done b =>
    simp only [expand, finishes_done, Prod.mk.injEq]
    constructor
    · rintro ⟨rfl, rfl, rfl⟩
      exact ⟨[], ⟨rfl, rfl⟩, .nil _⟩
    · rintro ⟨_, ⟨rfl, rfl⟩, ⟨⟩⟩
      exact ⟨rfl, rfl, rfl⟩
  | stalled => simp [expand]
  | call c next ih =>
    simp only [expand, finishes_bind, Prod.exists, ih]
    constructor
    · rintro ⟨answer, t, H₁, H₂, rfl, hf, h, hp, hc⟩
      exact ⟨_, .call hp, .cons hf hc⟩
    · rintro ⟨_, hcall, hc⟩
      obtain ⟨answer, h, rfl, hp⟩ := finishes_call.mp hcall
      cases hc with
      | cons hf hc => exact ⟨answer, _, _, _, rfl, hf, h, hp, hc⟩

/-- A call of the expanded program is made for the next call of the program itself, after those
that were carried out. -/
theorem call_of_begins_expand {p : Program I α} {e : Event J} (hb : (p.expand f s).Begins (before ++ [e])) :
    ∃ h c H₁ H₂ s', before = H₁ ++ H₂ ∧ CarriedOut f s h H₁ s' ∧ p.Begins (h ++ [⟨c, none⟩]) ∧
      (f c s').Begins (H₂ ++ [e]) := by
  induction p generalizing s before with
  | done b => simp [expand] at hb
  | stalled => simp [expand] at hb
  | call c next ih =>
    rw [expand, begins_bind] at hb
    rcases hb with hb | ⟨⟨answer, t⟩, H₁, H₂, heq, hf, hb⟩
    · exact ⟨[], c, [], before, s, rfl, .nil s, .died c next, hb⟩
    obtain rfl | ⟨H₂, e', rfl⟩ := List.eq_nil_or_concat H₂
    · -- The call is the last one that was made for `c`.
      rw [List.append_nil] at heq
      exact ⟨[], c, [], before, s, rfl, .nil s, .died c next, heq ▸ hf.begins⟩
    · rw [List.concat_eq_append, ← List.append_assoc] at heq
      obtain ⟨rfl, he⟩ := List.append_inj' heq rfl
      obtain rfl := List.singleton_inj.mp he
      rw [List.concat_eq_append] at hb
      obtain ⟨h, c', H₃, H₄, s', rfl, hc, hp, hb⟩ := ih answer hb
      exact ⟨_, c', H₁ ++ H₃, H₄, s', (List.append_assoc ..).symm, .cons hf hc, .call hp, hb⟩

end Program

end Reflash
