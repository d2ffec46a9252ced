import Reflash.Proofs.Dfu.Verdict
import Reflash.Proofs.Session.Outcome

/-!
# Reflash.Proofs.Session.InTime — a session comes to its end

An update whose waits and searches pause between their rounds ends on every clock that moves,
whatever its cameras answer: no stage of it goes on for ever (`Stage.ends_advance`), and so neither
does the session (`ends_run`).
-/

namespace Reflash

open Program

/-- Every wait and every search of an update pauses between its rounds. -/
structure UpdateConfig.Pauses (config : UpdateConfig) : Prop where
  chunk : 0 < config.transfer.chunkPoll
  manifest : 0 < config.transfer.manifestPoll
  scan : 0 < config.scanInterval

namespace Session

variable {config : UpdateConfig} {image : FirmwareImage} {camera : Camera} {P : (cameras.sum host).Call → Prop}

theorem stallsAfter_switchMode : (switchMode camera).StallsAfter P := by
  refine Attempt.stallsAfter_bind stallsAfter_ensureLive fun _ => ?_
  refine Attempt.stallsAfter_bind (Attempt.stallsAfter_lift (stallsAfter_enterPhase _)) fun _ => ?_
  refine Attempt.stallsAfter_bind (Attempt.stallsAfter_of (stallsAfter_ask _)) fun _ => ?_
  exact Attempt.stallsAfter_lift (stallsAfter_note _)

theorem stallsAfter_recognise : (recognise camera).StallsAfter P := by
  have hidentity : (recoveryIdentity camera).StallsAfter P := by
    refine stallsAfter_bind stallsAfter_identityOf fun reply => ?_
    split
    · trivial
    · exact stallsAfter_bind (stallsAfter_report _ _) fun _ => trivial
  refine stallsAfter_bind (stallsAfter_note _) fun _ => stallsAfter_bind hidentity fun _ => ?_
  exact stallsAfter_bind (stallsAfter_setProgress _) fun _ => trivial

theorem stallsAfter_openChannel : (openChannel camera).StallsAfter P := by
  refine Attempt.stallsAfter_bind stallsAfter_ensureLive fun _ => ?_
  refine Attempt.stallsAfter_bind (Attempt.stallsAfter_lift (stallsAfter_enterPhase _)) fun _ => ?_
  refine Attempt.stallsAfter_bind (Attempt.stallsAfter_lift (stallsAfter_note _)) fun _ => ?_
  exact Attempt.stallsAfter_of (stallsAfter_ask _)

theorem stallsAfter_prepare {channel : ControlChannel} {transfer : TransferConfig} :
    (Dfu.prepare channel transfer).StallsAfter P := by
  have hdetach : ∀ {packet : ControlPacket} {timeout : Nanos},
      (discard <| Attempt.of TransferError.link (ask (.transfer channel packet timeout))).StallsAfter P := by
    intro packet timeout
    exact stallsAfter_bind (Attempt.stallsAfter_of (stallsAfter_ask _)) fun r => by cases r <;> trivial
  refine Attempt.stallsAfter_bind hdetach fun _ => ?_
  refine Attempt.stallsAfter_bind (Attempt.stallsAfter_of Wait.stallsAfter_queryStatus) fun status => ?_
  refine Attempt.stallsAfter_bind (Attempt.stallsAfter_lift (stallsAfter_report _ _)) fun _ => ?_
  split
  · exact Attempt.stallsAfter_pure _
  · exact Attempt.stallsAfter_pure _
  · exact Attempt.stallsAfter_throw _

theorem ends_search (hscan : 0 < config.scanInterval) (identity : String) (wanted : Wanted) :
    (searchFor config identity wanted).run.Ends := Search.ends_run hscan

theorem ends_findRecovery (hscan : 0 < config.scanInterval) (identity : String) :
    (findRecovery config identity).Ends := by
  refine Attempt.ends_bind stallsAfter_ensureLive.ends fun _ => ?_
  refine Attempt.ends_bind (Attempt.ends_lift (stallsAfter_enterPhase _).ends) fun _ => ?_
  refine Attempt.ends_bind (Attempt.ends_of (ends_search hscan _ _)) fun recovery => ?_
  refine Attempt.ends_bind (Attempt.ends_lift (stallsAfter_note _).ends) fun _ => ?_
  exact Attempt.ends_bind (Attempt.ends_lift (stallsAfter_setProgress _).ends) fun _ => Attempt.ends_pure _

theorem ends_awaitReturn (hscan : 0 < config.scanInterval) (identity? : Option String) :
    (awaitReturn config identity?).Ends := by
  cases identity? with
  | none => exact Attempt.ends_lift (stallsAfter_note _).ends
  | some identity =>
    refine Attempt.ends_bind stallsAfter_ensureLive.ends fun _ => ?_
    refine Attempt.ends_bind (Attempt.ends_lift (stallsAfter_enterPhase _).ends) fun _ => ?_
    refine Attempt.ends_bind (Attempt.ends_lift (stallsAfter_note _).ends) fun _ => ?_
    refine Attempt.ends_bind (Attempt.ends_of (ends_search hscan _ _)) fun unit => ?_
    refine Attempt.ends_bind (Attempt.ends_lift (stallsAfter_ask _).ends) fun reply => ?_
    split
    · exact Attempt.ends_bind (Attempt.ends_lift (stallsAfter_note _).ends) fun _ =>
        Attempt.ends_lift (stallsAfter_setProgress _).ends
    · exact Attempt.ends_bind (Attempt.ends_lift (stallsAfter_note _).ends) fun _ =>
        Attempt.ends_lift (stallsAfter_setProgress _).ends

theorem ends_heedTransfer (x : Single) : (heedTransfer x).Ends := (stallsAfter_setProgress _).ends

namespace Stage

theorem ends_advance (hconfig : config.Pauses) (a : Stage) : (a.advance config image).Ends := by
  cases a with
  | identifying camera => exact Attempt.ends_bind (stallsAfter_identify camera).ends fun _ => Attempt.ends_pure _
  | securing camera identity =>
    exact Attempt.ends_bind (stallsAfter_secure config camera identity).ends fun _ => Attempt.ends_pure _
  | switching camera identity => exact Attempt.ends_bind stallsAfter_switchMode.ends fun _ => Attempt.ends_pure _
  | finding identity =>
    exact Attempt.ends_bind (ends_findRecovery hconfig.scan identity) fun _ => Attempt.ends_pure _
  | recognising camera =>
    exact Attempt.ends_bind (Attempt.ends_lift stallsAfter_recognise.ends) fun _ => Attempt.ends_pure _
  | opening camera identity? => exact Attempt.ends_bind stallsAfter_openChannel.ends fun _ => Attempt.ends_pure _
  | preparing channel identity? =>
    refine Attempt.ends_bind (Attempt.ends_discard (Attempt.ends_of ?_)) fun _ => Attempt.ends_pure _
    exact stallsAfter_prepare.ends
  | sending channel identity? =>
    refine Attempt.ends_bind (Attempt.ends_of ?_) fun _ => Attempt.ends_pure _
    exact Dfu.ends_download ends_heedTransfer hconfig.chunk
  | ending channel identity? transaction =>
    exact Attempt.ends_bind (Attempt.ends_of (Dfu.ends_finish ends_heedTransfer)) fun _ => Attempt.ends_pure _
  | manifesting channel identity? =>
    refine Attempt.ends_bind (Attempt.ends_discard (Attempt.ends_of (Dfu.ends_manifest hconfig.manifest)))
      fun _ => ?_
    refine Attempt.ends_bind (Attempt.ends_lift (stallsAfter_note _).ends) fun _ => ?_
    exact Attempt.ends_bind (Attempt.ends_lift (stallsAfter_setProgress _).ends) fun _ => Attempt.ends_pure _
  | returning identity? =>
    exact Attempt.ends_bind (ends_awaitReturn hconfig.scan identity?) fun _ => Attempt.ends_pure _
  | completed => exact Attempt.ends_pure _

theorem ends_complete (hconfig : config.Pauses) (n : Nat) (a : Stage) : (a.complete config image n).Ends := by
  induction n generalizing a with
  | zero => exact Attempt.ends_pure _
  | succ n ih => exact Attempt.ends_bind (ends_advance hconfig a) ih

end Stage

/-- A session whose loops pause comes to its end. -/
theorem ends_run (hconfig : config.Pauses) : (run config image camera).Ends := by
  have hattempt : (attempt config image camera).Ends := by
    rw [attempt_eq]
    exact Stage.ends_complete hconfig _ _
  exact ends_bind stallsAfter_noteImage.ends fun _ => ends_bind hattempt fun result =>
    (stallsAfter_conclude result).ends

end Session

end Reflash
