import Reflash.Proofs.Flash.Persist

/-!
# Reflash.Proofs.Flash.Confined — backups stay in their directory

A unit names itself, and may do so in any text.  Of that text only plain characters come into the name of its
backup (`fileNameChar_eq`), so the name is one name of a path.  All that is written for a backup is written
under that name in the directory that was asked for (`begins_persist`), and both files lie in that directory
(`backups_stay_in_directory`).
-/

namespace Reflash.Flash

open Program Disk

variable {dir identity path : String} {flash : Bytes} {h : History} {time : CalendarTime}

/-! ## Names -/

/-- What is left of an identity has one character for each of its characters. -/
theorem forall₂_safeName (identity : String) :
    List.Forall₂ (fun c k => IsPlain k ∧ k = if IsPlain c then c else '_') identity.toList
      (safeName identity).toList := by
  rw [safeName, String.toList_ofList, List.forall₂_map_right_iff, List.forall₂_same]
  intro c _
  exact ⟨isPlain_fileNameChar c, fileNameChar_eq c⟩

theorem count_dot_backupFileName : (backupFileName identity time).toList.count '.' = 2 := by
  have hname : (safeName identity).toList.count '.' = 0 := List.count_eq_zero.mpr (not_mem_safeName (by decide))
  have hstamp : time.stamp.toList.count '.' = 0 := List.count_eq_zero.mpr (CalendarTime.not_mem_stamp (by decide))
  have hbin : "bin".toList.count '.' = 0 := by decide
  rw [toList_backupFileName, List.count_append, List.count_cons_self, List.count_append,
    List.count_cons_self, hname, hstamp, hbin]

/-! ## Calls -/

/-- The calls by which a dump is kept at a path. -/
def keepingCalls (dir path : String) (flash : Bytes) : List (cameras.sum host).Call :=
  [.inr (.createDirs dir), .inr .localTime, .inr (.writeFile (path ++ ".part") flash),
    .inr (.rename (path ++ ".part") path),
    .inr (.log { level := .info, text := "flash backup saved to " ++ path })]

/-- However far keeping a dump comes, it calls this and nothing else; the name is that of the time it was told. -/
theorem begins_persist (hb : (persist dir identity flash).Begins h) : ∃ seconds,
    h.map Event.call <+: keepingCalls dir (joinPath dir (nameAt identity seconds)) flash ∧
      (2 < h.length → .told .localTime (some seconds) ∈ h) := by
  simp only [persist, atPath, Attempt.begins_bind, Attempt.begins_of, Attempt.begins_lift, Attempt.finishes_of_ok,
    Attempt.finishes_lift_ok, begins_tell, finishes_tell, Attempt.begins_pure, report] at hb
  rcases hb with (rfl | ⟨a?, rfl⟩) | ⟨u, -, h, rfl, rfl, (rfl | ⟨a?, rfl⟩) | ⟨seconds, -, h, rfl, rfl, hb⟩⟩
  · exact ⟨0, List.nil_prefix, by simp⟩
  · exact ⟨0, by simp [keepingCalls], by simp⟩
  · exact ⟨0, by simp [keepingCalls], by simp⟩
  · exact ⟨0, by simp [keepingCalls], by simp⟩
  refine ⟨seconds, ?_, fun _ => by simp⟩
  have hpart := partPath_nameAt dir identity seconds
  rw [nameAt] at hpart ⊢
  rcases hb with (rfl | ⟨a?, rfl⟩) | ⟨u', -, h, rfl, rfl, (rfl | ⟨a?, rfl⟩) | ⟨u'', -, h, rfl, rfl, hb⟩⟩
  · simp [keepingCalls]
  · simp [keepingCalls, hpart]
  · simp [keepingCalls, hpart]
  · simp [keepingCalls, hpart]
  · rcases hb with (rfl | ⟨a?, rfl⟩) | ⟨u₃, -, h, rfl, rfl, rfl⟩ <;> simp [keepingCalls, hpart]

/-- The path that is returned is that of the time that was told. -/
theorem path_of_persist {seconds : Nat} (hf : (persist dir identity flash).Finishes h (.ok path))
    (ht : 2 < h.length → .told .localTime (some seconds) ∈ h) : path = joinPath dir (nameAt identity seconds) := by
  obtain ⟨seconds', note, hpath, hcalls⟩ := finishes_persist_ok hf
  have htold : .told .localTime (some seconds') ∈ h := by simp [hcalls]
  have hlong : 2 < h.length := by simp [hcalls]
  rw [localTime_unique hf (ht hlong) htold, hpath]
  rfl

/-- Where a path is returned, all of it was called. -/
theorem calls_of_persist (hf : (persist dir identity flash).Finishes h (.ok path))
    (hcalls : h.map Event.call <+: keepingCalls dir path flash) :
    h.map Event.call = keepingCalls dir path flash := by
  obtain ⟨seconds, note, -, hall⟩ := finishes_persist_ok hf
  refine hcalls.eq_of_length ?_
  rw [hall]
  rfl

/-! ## Places -/

/-- The way to a file in a directory is the way to the directory. -/
theorem locate_in_dir {disk : Disk} {home : Place} {file name : String} (hfile : IsFileName file)
    (hlocate : disk.locate (joinPath dir file) = .ok (home, name)) :
    disk.walk [] (names dir) = .ok home ∧ name = file :=
  ((locate_joinPath hfile.single).mp hlocate).2

/-- Backups stay in the backup directory, whatever text a unit calls itself by.  The file name has one plain
character for each character of the identity, then the time and the extension, and is one name of a path.
Keeping a dump calls nothing at the files but to write beside that name in the directory and to rename to it,
and has called all of this where it returns the path; both paths lead into the directory on every disk. -/
theorem backups_stay_in_directory :
    (∀ (identity : String) (time : CalendarTime),
      let name := backupFileName identity time
      (∃ kept, name.toList = kept ++ '.' :: (time.stamp.toList ++ '.' :: "bin".toList) ∧
        List.Forall₂ (fun c k => IsPlain k ∧ k = if IsPlain c then c else '_') identity.toList kept) ∧
      name.toList.count '.' = 2 ∧ IsFileName name) ∧
    (∀ {σ : Type} (env : Environment (cameras.sum host) σ) (s : σ) (dir identity : String) (flash : Bytes),
      let program := (persist dir identity flash).run
      let h := program.history env s
      ∃ seconds, h.map Event.call <+: keepingCalls dir (joinPath dir (nameAt identity seconds)) flash ∧
        (2 < h.length → .told .localTime (some seconds) ∈ h) ∧
        ∀ path, (program.run env s).1 = .finished (.ok path) → path = joinPath dir (nameAt identity seconds) ∧
          h.map Event.call = keepingCalls dir path flash) ∧
    ∀ (dir identity : String) (seconds : Nat),
      let name := nameAt identity seconds
      let path := joinPath dir name
      (∃ front, names path = front ++ [name] ∧ names (path ++ ".part") = front ++ [name ++ ".part"] ∧
        (names dir = front ∨ names dir = front ++ [""])) ∧
      ∀ (disk : Disk) (home : Place) (last : String),
        (disk.locate path = .ok (home, last) → disk.walk [] (names dir) = .ok home ∧ last = name) ∧
        (disk.locate (path ++ ".part") = .ok (home, last) → disk.walk [] (names dir) = .ok home ∧
          last = name ++ ".part") := by
  refine ⟨?_, ?_, ?_⟩
  · intro identity time name
    exact ⟨⟨(safeName identity).toList, toList_backupFileName, forall₂_safeName identity⟩,
      count_dot_backupFileName, isFileName_backupFileName⟩
  · intro σ env s dir identity flash program h
    obtain ⟨seconds, hcalls, htold⟩ := begins_persist (begins_history env program s)
    refine ⟨seconds, hcalls, htold, fun path hrun => ?_⟩
    have hf : (persist dir identity flash).Finishes h (.ok path) := finishes_history hrun
    have hpath : path = joinPath dir (nameAt identity seconds) := path_of_persist hf htold
    rw [← hpath] at hcalls
    exact ⟨hpath, calls_of_persist hf hcalls⟩
  · intro dir identity seconds name path
    have hname : IsFileName name := isFileName_nameAt
    have hpart : path ++ ".part" = joinPath dir (partName name) := (joinPath_partName dir name).symm
    rw [hpart]
    refine ⟨?_, fun disk home last => ⟨locate_in_dir hname, locate_in_dir hname.partName⟩⟩
    obtain ⟨front, hdir, hnames⟩ := names_joinPath dir
    exact ⟨front, hnames name hname.single, hnames (partName name) hname.partName.single, hdir⟩

/-- The identity of a unit that would like to be kept elsewhere. -/
def hostile : String := "../\x00é"

/-- Keeps a dump of that unit on a drive. -/
def keptHostile : Ending (Except BackupError String) × Drive :=
  (persist "backups" hostile [1]).run.run Drive.world { room := 1 }

/-- Its backup is in the directory under a name of five times the same character. -/
theorem backups_stay_in_directory_hostile :
    let path := "backups/_____.1970-01-01-00_00_00.bin"
    IsFileName (nameAt hostile 0) ∧ keptHostile.1 = .finished (.ok path) ∧
      ((persist "backups" hostile [1]).run.history Drive.world { room := 1 }).map Event.call =
        keepingCalls "backups" path [1] ∧
      (∃ seconds, path = joinPath "backups" (nameAt hostile seconds) ∧
        .told .localTime (some seconds) ∈ (persist "backups" hostile [1]).run.history Drive.world { room := 1 }) ∧
      (∃ home last, keptHostile.2.disk.locate path = .ok (home, last) ∧
        keptHostile.2.disk.walk [] (names "backups") = .ok home ∧
        last = nameAt hostile 0) ∧
      ∃ home last, keptHostile.2.disk.locate (path ++ ".part") = .ok (home, last) ∧
        keptHostile.2.disk.walk [] (names "backups") = .ok home ∧ last = nameAt hostile 0 ++ ".part" := by
  intro path
  obtain ⟨hnames, hcalls, hplaces⟩ := backups_stay_in_directory
  have hkept : keptHostile.1 = .finished (.ok path) := by decide +kernel
  have hpath : path = joinPath "backups" (nameAt hostile 0) := by decide +kernel
  have hfile : keptHostile.2.disk.locate path = .ok (["backups"], "_____.1970-01-01-00_00_00.bin") := by
    decide +kernel
  have hpart : keptHostile.2.disk.locate (path ++ ".part") =
      .ok (["backups"], "_____.1970-01-01-00_00_00.bin.part") := by
    decide +kernel
  obtain ⟨seconds, -, htold, hreturned⟩ := hcalls Drive.world { room := 1 } "backups" hostile [1]
  have hlocate := (hplaces "backups" hostile 0).2 keptHostile.2.disk ["backups"]
  rw [← hpath] at hlocate
  obtain ⟨hat, hall⟩ := hreturned path hkept
  exact ⟨(hnames hostile (CalendarTime.ofSeconds 0)).2.2, hkept, hall, ⟨seconds, hat, htold (by decide +kernel)⟩,
    ⟨_, _, hfile, (hlocate _).1 hfile⟩, ⟨_, _, hpart, (hlocate _).2 hpart⟩⟩

end Reflash.Flash
