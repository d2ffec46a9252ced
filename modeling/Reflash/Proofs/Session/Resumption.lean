import Reflash.Proofs.NextCall
import Reflash.Proofs.Session.Outcome

/-!
# Reflash.Proofs.Session.Resumption — how a session goes on from a call

A session that comes to a call is in some stage, and goes on with what this stage does with the answer, the
stages after it and the end (`comesTo_run`, `comesTo_run_of_stage`).  So what a session does after a call is
known from the one stage that makes it.
-/

namespace Reflash

open Program

namespace Session

variable {config : UpdateConfig} {image : FirmwareImage} {camera : Camera} {h h' : History}
  {c : (cameras.sum host).Call}

namespace Stage

variable {a b : Stage} {next : (cameras.sum host).Answer c → Action (Except UpdateError Unit)}

theorem comesTo_complete {n : Nat} (hn : n = a.left) (hc : (a.complete config image n).run.ComesTo h c next) :
    ∃ b h₁ h₂ next', h = h₁ ++ h₂ ∧ Walk config image a h₁ b ∧ (b.advance config image).run.ComesTo h₂ c next' ∧
      next = fun answer =>
        (next' answer).bind (Attempt.andThen fun b' => b'.complete config image (b.left - 1)) := by
  induction n generalizing a h with
  | zero => exact absurd hc not_comesTo_done
  | succ n ih =>
    rcases Attempt.comesTo_bind.mp hc with ⟨next', hc', rfl⟩ | ⟨b, h₁, h₂, rfl, hf, hc'⟩
    · have hleft : a.left - 1 = n := by omega
      refine ⟨a, [], h, next', rfl, .here a, hc', ?_⟩
      rw [hleft]
    · have hleft := left_of_finishes hf
      obtain ⟨d, h₃, h₄, next', rfl, hw, hd, hnext⟩ := ih (by omega) hc'
      exact ⟨d, h₁ ++ h₃, h₄, next', by simp, .cons hf hw, hd, hnext⟩

/-- A stage that was reached comes to its calls. -/
theorem Walk.comesTo_complete (hw : Walk config image a h b)
    (hc : (b.complete config image b.left).run.ComesTo h' c next) :
    (a.complete config image a.left).run.ComesTo (h ++ h') c next := by
  induction hw generalizing h' with
  | here => exact hc
  | @step b d h h'' _ hadv ih =>
    rw [List.append_assoc]
    refine ih ?_
    have hleft := left_of_finishes hadv
    cases hb : b.left with
    | zero =>
      cases advances_of_finishes hadv with
      | rest => exact hc
      | _ => cases hb
    | succ n =>
      obtain rfl : d.left = n := by omega
      exact Attempt.comesTo_bind.mpr (.inr ⟨d, h'', h', rfl, hadv, hc⟩)

end Stage

/-- What comes after a stage: the stages after it, and the end of the session. -/
def proceed (config : UpdateConfig) (image : FirmwareImage) (stage : Stage) (r : Except UpdateError Stage) :
    Action Unit :=
  (Attempt.andThen (fun b => b.complete config image (stage.left - 1)) r).bind conclude

theorem run_eq : run config image camera = (noteImage image).bind fun _ =>
    (attempt config image camera).run.bind conclude := rfl

/-- A call that does more than keep the record is made in some stage, and the session goes on from there. -/
theorem comesTo_run {next : (cameras.sum host).Answer c → Action Unit}
    (hc : (run config image camera).ComesTo h c next) (hkind : kindOf c ∉ [CallKind.log, .record, .verdict]) :
    ∃ h₀ h₁ h₂ stage next', h = h₀ ++ (h₁ ++ h₂) ∧
      (noteImage image).Finishes h₀ () ∧ Stage.Walk config image (.start camera) h₁ stage ∧
        (stage.advance config image).run.ComesTo h₂ c next' ∧
          next = fun answer => (next' answer).bind (proceed config image stage) := by
  have hnot : kindOf c ∉ [CallKind.log, .record] := fun hk => hkind (List.mem_append_left [CallKind.verdict] hk)
  rw [run_eq] at hc
  rcases comesTo_bind.mp hc with ⟨next', hnote, -⟩ | ⟨u, h₀, h', rfl, hnote, hc⟩
  · exact absurd (hnote.only only_noteImage) hnot
  rcases comesTo_bind.mp hc with ⟨next', hatt, rfl⟩ | ⟨result, h₁, h₂, rfl, hatt, hend⟩
  · rw [attempt_eq] at hatt
    obtain ⟨stage, h₁, h₂, next'', rfl, hw, hadv, rfl⟩ := Stage.comesTo_complete rfl hatt
    refine ⟨h₀, h₁, h₂, stage, next'', rfl, hnote, hw, hadv, ?_⟩
    funext answer
    rw [Program.bind_assoc]
    rfl
  · exact absurd (hend.only (only_conclude result)) hkind

theorem comesTo_run_of_stage {h₀ h₁ h₂ : History} {stage : Stage}
    {next : (cameras.sum host).Answer c → Action (Except UpdateError Stage)}
    (hnote : (noteImage image).Finishes h₀ ()) (hw : Stage.Walk config image (.start camera) h₁ stage)
    (hc : (stage.advance config image).run.ComesTo h₂ c next) :
    (run config image camera).ComesTo (h₀ ++ (h₁ ++ h₂)) c fun answer =>
    (next answer).bind (proceed config image stage) := by
  rw [run_eq]
  refine comesTo_bind.mpr (.inr ⟨(), h₀, h₁ ++ h₂, rfl, hnote, ?_⟩)
  refine comesTo_bind.mpr (.inl ⟨fun answer => (next answer).bind
    (Attempt.andThen fun b => b.complete config image (stage.left - 1)), ?_, ?_⟩)
  · rw [attempt_eq]
    refine hw.comesTo_complete ?_
    cases hleft : stage.left with
    | zero =>
      cases stage with
      | completed => exact absurd hc not_comesTo_done
      | _ => cases hleft
    | succ n => exact Attempt.comesTo_bind.mpr (.inl ⟨next, hc, rfl⟩)
  · funext answer
    rw [Program.bind_assoc]
    rfl

end Session

end Reflash
