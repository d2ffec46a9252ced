import Mathlib.Data.List.Destutter
import Reflash.Proofs.Session.FinalRecord

/-!
# Reflash.Proofs.Session.Records — the records that a session shows

An observer of a session sees its record before the first write, or after one of them.  `records h` are these
records, in order, for the calls `h`; the last of them is the record after all calls (`records_eq`), and every
one is the record after some of them (`mem_records`).  `phases h` are the phases of these records without
repetitions.  Steps that only add to the log of the session (`Notes`) change neither its phase nor its progress,
which is why they are told apart here from other writes.
-/

namespace Reflash

open Program

/-- Leaving out repetitions of neighbours, element by element from the end. -/
theorem destutter_ne_concat {α : Type} [DecidableEq α] (l : List α) (a b : α) :
    (l ++ [a] ++ [b]).destutter (· ≠ ·) =
      if a = b then (l ++ [a]).destutter (· ≠ ·) else (l ++ [a]).destutter (· ≠ ·) ++ [b] := by
  have key : ∀ (l : List α) (x : α), (l ++ [a] ++ [b]).destutter' (· ≠ ·) x =
      if a = b then (l ++ [a]).destutter' (· ≠ ·) x else (l ++ [a]).destutter' (· ≠ ·) x ++ [b] := by
    intro l
    induction l with
    | nil =>
      intro x
      by_cases hx : x = a
      · subst hx
        by_cases hb : x = b <;> simp [hb]
      · by_cases hb : a = b <;> simp [List.destutter'_cons, hx, hb]
    | cons y l ih =>
      intro x
      by_cases hx : x = y
      · simpa [List.destutter'_cons, hx] using ih y
      · have hy := ih y
        simp only [List.append_assoc, List.cons_append, List.nil_append] at hy
        simp only [List.cons_append, List.append_assoc, List.nil_append, List.destutter'_cons, ne_eq, hx,
          not_false_eq_true, if_true, hy]
        split <;> rfl
  cases l with
  | nil => by_cases hb : a = b <;> simp [List.destutter, hb]
  | cons x l => exact key l x

namespace Session

/-! ## Writes -/

/-- The write that a call was, if it was answered. -/
def write? : Event (cameras.sum host) → Option Write
  | ⟨.inr (.write w), some _⟩ => some w
  | _ => none

/-- The writes among some calls. -/
def writes (h : History) : List Write := h.filterMap write?

section Writes

variable {h h₁ h₂ : History} {e : Event (cameras.sum host)} {w : Write}

@[simp] theorem write?_told (w : Write) (u : Unit) : write? (.told (.write w) (no_index (some u))) = some w := rfl

theorem write?_eq_some : write? e = some w ↔ e = .told (.write w) (some ()) := by
  constructor
  · intro he
    unfold write? at he
    split at he
    · obtain rfl := Option.some.inj he
      rfl
    · cases he
  · rintro rfl
    rfl

theorem write?_of_kind (he : kindOf e.call ≠ .record) (he' : kindOf e.call ≠ .verdict) : write? e = none := by
  cases hw : write? e with
  | none => rfl
  | some w =>
    obtain rfl := write?_eq_some.mp hw
    cases hverdict : w.isVerdict <;> simp [hverdict] at he he'

theorem Record.hear_eq (r : Record) : r.hear e = (write? e).elim r r.apply := by
  obtain ⟨c | c, a?⟩ := e
  · rfl
  · cases c <;> cases a? <;> rfl

@[simp] theorem writes_nil : writes [] = [] := rfl

@[simp] theorem writes_append : writes (h₁ ++ h₂) = writes h₁ ++ writes h₂ := List.filterMap_append ..

theorem Record.after_eq_foldl (r : Record) (h : History) : r.after h = (writes h).foldl Record.apply r := by
  induction h generalizing r with
  | nil => rfl
  | cons e h ih =>
    rw [Record.after_cons, ih, Record.hear_eq]
    cases hw : write? e <;> simp [writes, hw]

end Writes

/-! ## Records -/

/-- The record before the first write and after each of them. -/
def records (h : History) : List Record := Record.initial.history (writes h)

theorem Record.history_concat (r : Record) (ws : List Write) (w : Write) :
    r.history (ws ++ [w]) = r.history ws ++ [(ws.foldl Record.apply r).apply w] := by
  induction ws generalizing r with
  | nil => rfl
  | cons w' ws ih => simp only [List.cons_append, Record.history, ih, List.foldl_cons]

theorem records_concat (h : History) (e : Event (cameras.sum host)) :
    records (h ++ [e]) = records h ++ ((write? e).map (Record.initial.after h).apply).toList := by
  rw [records, writes_append, Record.after_eq_foldl]
  cases hw : write? e with
  | none => simp [writes, hw, records]
  | some w => simp [writes, hw, records, Record.history_concat]

/-- The last record is the one after all calls. -/
theorem records_eq (h : History) : ∃ rs, records h = rs ++ [Record.initial.after h] := by
  induction h using List.reverseRecOn with
  | nil => exact ⟨[], rfl⟩
  | append_singleton h e ih =>
    obtain ⟨rs, hrs⟩ := ih
    rw [records_concat, Record.after_append, Record.after_cons, Record.after_nil, Record.hear_eq]
    cases write? e with
    | none => exact ⟨rs, by simpa using hrs⟩
    | some w => exact ⟨records h, rfl⟩

/-- A record is one of those exactly if it is the record after some calls. -/
theorem mem_records {h : History} {r : Record} :
    r ∈ records h ↔ ∃ before, before <+: h ∧ r = Record.initial.after before := by
  induction h using List.reverseRecOn with
  | nil => simp [records, Record.history]
  | append_singleton h e ih =>
    have hlast : r = Record.initial.after (h ++ [e]) → r ∈ records (h ++ [e]) := by
      rintro rfl
      obtain ⟨rs, hrs⟩ := records_eq (h ++ [e])
      rw [hrs]
      exact List.mem_append_right _ List.mem_cons_self
    constructor
    · intro hr
      rw [records_concat, List.mem_append, ih] at hr
      rcases hr with ⟨before, hbefore, rfl⟩ | hr
      · exact ⟨before, hbefore.trans (List.prefix_append h [e]), rfl⟩
      · refine ⟨h ++ [e], List.prefix_refl _, ?_⟩
        cases hw : write? e with
        | none => simp [hw] at hr
        | some w => simpa [hw, Record.hear_eq] using hr
    · rintro ⟨before, hbefore, rfl⟩
      rcases List.prefix_concat_iff.mp hbefore with rfl | hbefore
      · exact hlast rfl
      · rw [records_concat]
        exact List.mem_append_left _ (ih.mpr ⟨before, hbefore, rfl⟩)

/-- What every write of a session does, neighbouring records show. -/
theorem isChain_records {P : Record → Record → Prop} {h : History}
    (hP : ∀ before w after, h = before ++ .told (.write w) (some ()) :: after →
      P (Record.initial.after before) ((Record.initial.after before).apply w)) : (records h).IsChain P := by
  induction h using List.reverseRecOn with
  | nil => exact .singleton _
  | append_singleton h e ih =>
    have hbefore : (records h).IsChain P := ih fun before w after heq => hP before w (after ++ [e]) (by simp [heq])
    rw [records_concat]
    cases hw : write? e with
    | none => simpa using hbefore
    | some w =>
      obtain rfl := write?_eq_some.mp hw
      obtain ⟨rs, hrs⟩ := records_eq h
      refine List.isChain_append.mpr ⟨hbefore, .singleton _, ?_⟩
      rw [hrs]
      simpa using hP h w [] rfl

/-! ## Phases -/

/-- The phases of some records, one after another, without repetitions. -/
def visited (rs : List Record) : List Phase := (rs.map (·.phase)).destutter (· ≠ ·)

/-- The phases that a session goes through. -/
def phases (h : History) : List Phase := visited (records h)

theorem visited_concat (rs : List Record) (r r' : Record) :
    visited (rs ++ [r] ++ [r']) = if r.phase = r'.phase then visited (rs ++ [r]) else visited (rs ++ [r]) ++
      [r'.phase] := by
  simpa [visited] using destutter_ne_concat (rs.map (·.phase)) r.phase r'.phase

/-- One more record after a history. -/
theorem visited_records_concat (h : History) (r : Record) : visited (records h ++ [r]) =
    if (Record.initial.after h).phase = r.phase then phases h else phases h ++ [r.phase] := by
  obtain ⟨rs, hrs⟩ := records_eq h
  rw [phases, hrs, visited_concat]

theorem phases_concat_of_none {h : History} {e : Event (cameras.sum host)} (he : write? e = none) :
    phases (h ++ [e]) = phases h := by
  simp [phases, records_concat, he]

theorem phases_concat_write (h : History) (w : Write) : phases (h ++ [.told (.write w) (some ())]) =
    if (Record.initial.after h).phase = ((Record.initial.after h).apply w).phase then phases h
    else phases h ++ [((Record.initial.after h).apply w).phase] := by
  rw [phases, records_concat, write?_told, Option.map_some, Option.toList_some, visited_records_concat]

/-- The last phase is that of the record after all calls. -/
theorem phases_eq (h : History) : ∃ ps, phases h = ps ++ [(Record.initial.after h).phase] := by
  induction h using List.reverseRecOn with
  | nil => exact ⟨[], rfl⟩
  | append_singleton h e ih =>
    obtain ⟨ps, hps⟩ := ih
    have hafter : Record.initial.after (h ++ [e]) = (Record.initial.after h).hear e := by simp
    rw [hafter, Record.hear_eq]
    cases hw : write? e with
    | none => exact ⟨ps, by rw [phases_concat_of_none hw, hps, Option.elim_none]⟩
    | some w =>
      obtain rfl := write?_eq_some.mp hw
      rw [phases_concat_write, Option.elim_some]
      split
      · rename_i hsame
        exact ⟨ps, by rw [hps, hsame]⟩
      · exact ⟨phases h, rfl⟩

/-- A phase that was entered is one of them. -/
theorem mem_phases_of_mem {h : History} {p : Phase} (hp : .told (.write (.phase p)) (some ()) ∈ h) :
    p ∈ phases h := by
  induction h using List.reverseRecOn with
  | nil => cases hp
  | append_singleton h e ih =>
    rcases List.mem_append.mp hp with hp | hp
    · have hmem := ih hp
      cases hw : write? e with
      | none => rwa [phases_concat_of_none hw]
      | some w =>
        obtain rfl := write?_eq_some.mp hw
        rw [phases_concat_write]
        split
        · exact hmem
        · exact List.mem_append_left _ hmem
    · obtain rfl := List.mem_singleton.mp hp
      obtain ⟨ps, hps⟩ := phases_eq (h ++ [.told (.write (.phase p)) (some ())])
      rw [hps]
      simp [Record.apply]

/-! ## Steps that only add to the log -/

/-- A call of one of these kinds, or a line for a log. -/
def Notes (kinds : List CallKind) (c : (cameras.sum host).Call) : Prop :=
  kindOf c ∈ CallKind.log :: kinds ∨ ∃ line, c = .inr (.write (.log line))

section Notes

variable {kinds : List CallKind} {image : FirmwareImage} {camera : Camera}

theorem notes_log (line : LogRecord) : Notes kinds (.inr (.log line)) := .inl List.mem_cons_self

theorem notes_line (line : String) : Notes kinds (.inr (.write (.log line))) := .inr ⟨line, rfl⟩

theorem notes_note (line : String) : (note line).Only (Notes kinds) :=
  only_bind (only_tell.mpr (notes_log _)) fun _ => only_tell.mpr (notes_line _)

theorem notes_ensureLive (hstop : .stop ∈ kinds) : ensureLive.Only (Notes kinds) :=
  Program.Only.mono (only_ensureLive hstop) fun _ hc => .inl (List.mem_cons_of_mem _ hc)

theorem notes_identityOf (hidentity : .identity ∈ kinds) : (identityOf camera).Only (Notes kinds) :=
  only_identityOf (.inl (List.mem_cons_of_mem _ hidentity)) (.inl (List.mem_cons_of_mem _ hidentity))

theorem notes_identify : (identify camera).Only (Notes [.stop, .identity]) := by
  refine Attempt.only_bind (notes_ensureLive (by simp)) fun _ => ?_
  refine Attempt.only_bind (Attempt.only_of (notes_identityOf (by simp))) fun identity? => ?_
  split
  · exact Attempt.only_throw _
  · exact Attempt.only_bind (Attempt.only_lift (notes_note _)) fun _ => Attempt.only_pure _

theorem notes_recoveryIdentity : (recoveryIdentity camera).Only (Notes [.identity]) := by
  refine only_bind (notes_identityOf List.mem_cons_self) fun reply => ?_
  split
  · trivial
  · exact only_bind (only_report.mpr (notes_log _)) fun _ => trivial

theorem notes_noteImage : (noteImage image).Only (Notes kinds) := by
  refine only_bind (notes_note _) fun _ => ?_
  split
  · exact notes_note _
  · trivial

theorem notes_noteEnd (result : Except UpdateError Unit) : (noteEnd result).Only (Notes kinds) := by
  cases result with
  | ok u => exact notes_note _
  | error e =>
    refine only_bind (only_report.mpr (notes_log _)) fun _ => ?_
    exact only_bind (only_tell.mpr (notes_line _)) fun _ => only_tell.mpr (notes_line _)

end Notes

end Session

end Reflash
