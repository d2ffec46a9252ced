import Reflash.Flash.Backup
import Reflash.Proofs.Calendar
import Reflash.Proofs.Disk

/-!
# Reflash.Proofs.Flash.BackupNames — where a backup lies

The file name of a backup tells the characters of the identity that are left in it and the second of the backup,
and nothing else (`backupFileName_eq_iff`).  It is one name of a path, so the backup lies directly in the
directory that it is kept in (`locate_joinPath`), and so does the file that it is written to first: its path is
the same with `.part` behind it (`partPath_joinPath`).
-/

namespace Reflash.Flash

open Disk

variable {dir dir' file file' identity identity' name : String} {time time' : CalendarTime} {c : Char}
  {disk disk' : Disk} {home : Place} {data : Bytes}

/-! ## Characters -/

/-- A character that stays as it is in a file name. -/
def IsPlain (c : Char) : Prop :=
  ('A' ≤ c ∧ c ≤ 'Z') ∨ ('a' ≤ c ∧ c ≤ 'z') ∨ ('0' ≤ c ∧ c ≤ '9') ∨ c = '-' ∨ c = '_'

instance (c : Char) : Decidable (IsPlain c) := instDecidableOr

theorem isUpper_iff : c.isUpper = true ↔ 'A' ≤ c ∧ c ≤ 'Z' := decide_eq_true_iff

theorem isLower_iff : c.isLower = true ↔ 'a' ≤ c ∧ c ≤ 'z' := by
  show (decide ('a' ≤ c) && decide (c ≤ 'z')) = true ↔ _
  rw [Bool.and_eq_true, decide_eq_true_iff, decide_eq_true_iff]

theorem isDigit_iff : c.isDigit = true ↔ '0' ≤ c ∧ c ≤ '9' := by
  show (decide ('0' ≤ c) && decide (c ≤ '9')) = true ↔ _
  rw [Bool.and_eq_true, decide_eq_true_iff, decide_eq_true_iff]

theorem isPlain_iff : IsPlain c ↔ (c.isAlphanum || c = '-' || c = '_') = true := by
  show _ ↔ (c.isUpper || c.isLower || c.isDigit || decide (c = '-') || decide (c = '_')) = true
  simp only [IsPlain, Bool.or_eq_true, decide_eq_true_iff, isUpper_iff, isLower_iff, isDigit_iff, or_assoc]

theorem fileNameChar_eq (c : Char) : fileNameChar c = if IsPlain c then c else '_' := by
  simp only [fileNameChar, isPlain_iff]

/-- Every character becomes one that may stand in a file name. -/
theorem isPlain_fileNameChar (c : Char) : IsPlain (fileNameChar c) := by
  rw [fileNameChar_eq]
  split
  · assumption
  · decide

/-! ## Names -/

/-- What is left of an identity in a file name. -/
def safeName (identity : String) : String := String.ofList (identity.toList.map fileNameChar)

theorem toList_backupFileName : (backupFileName identity time).toList =
    (safeName identity).toList ++ '.' :: (time.stamp.toList ++ '.' :: "bin".toList) := by
  simp [backupFileName, safeName]

theorem isPlain_of_mem_safeName (hc : c ∈ (safeName identity).toList) : IsPlain c := by
  rw [safeName, String.toList_ofList] at hc
  obtain ⟨c', -, rfl⟩ := List.mem_map.mp hc
  exact isPlain_fileNameChar c'

theorem not_mem_safeName (hc : ¬ IsPlain c) : c ∉ (safeName identity).toList :=
  fun hmem => hc (isPlain_of_mem_safeName hmem)

/-- The file name is one name of a path. -/
theorem slash_not_mem_backupFileName : '/' ∉ (backupFileName identity time).toList := by
  rw [toList_backupFileName]
  intro hslash
  simp only [List.mem_append, List.mem_cons] at hslash
  rcases hslash with hname | hdot | hstamp | hdot | hbin
  · exact not_mem_safeName (by decide) hname
  · cases hdot
  · exact CalendarTime.not_mem_stamp (by decide) hstamp
  · cases hdot
  · exact absurd hbin (by decide)

/-- Two backups have one file name exactly if the same is left of their identities and they
are of the same second. -/
theorem backupFileName_eq_iff : backupFileName identity time = backupFileName identity' time' ↔
    safeName identity = safeName identity' ∧ time = time' := by
  constructor
  · intro heq
    have htext := congrArg String.toList heq
    rw [toList_backupFileName, toList_backupFileName] at htext
    have hsafe : ∀ identity, '.' ∉ (safeName identity).toList := fun _ => not_mem_safeName (by decide)
    have hdigits : ∀ time : CalendarTime, '.' ∉ time.stamp.toList :=
      fun _ => CalendarTime.not_mem_stamp (by decide)
    obtain ⟨hname, hrest⟩ := (Text.append_cons_inj (hsafe identity) (hsafe identity')).mp htext
    obtain ⟨hstamp, -⟩ := (Text.append_cons_inj (hdigits time) (hdigits time')).mp hrest
    exact ⟨String.toList_inj.mp hname, CalendarTime.stamp_injective (String.toList_inj.mp hstamp)⟩
  · rintro ⟨hname, rfl⟩
    show safeName identity ++ "." ++ time.stamp ++ ".bin" = safeName identity' ++ "." ++ time.stamp ++ ".bin"
    rw [hname]

/-- The name of a file that is not complete. -/
def partName (file : String) : String := file ++ ".part"

theorem utf8ByteSize_partName (file : String) : (partName file).utf8ByteSize = file.utf8ByteSize + 5 := by
  rw [partName, String.utf8ByteSize_append]
  rfl

/-- A file that is not complete has another name than any that is. -/
theorem partName_ne_backupFileName (file : String) : partName file ≠ backupFileName identity time := by
  intro heq
  have hpart : (partName file).toList.getLast? = some 't' := by
    rw [partName, String.toList_append, List.getLast?_append]
    rfl
  have hbin : (backupFileName identity time).toList.getLast? = some 'n' := by
    rw [backupFileName, String.toList_append, List.getLast?_append]
    rfl
  rw [heq, hbin] at hpart
  cases hpart

/-! ## File names in paths -/

/-- One name of a path that does not stand for a directory by itself. -/
structure IsFileName (name : String) : Prop where
  single : '/' ∉ name.toList
  plain : isSpecial name = false

theorem isSpecial_eq_false (hc : c ∈ name.toList) (hdot : c ≠ '.') : isSpecial name = false := by
  have hempty : name ≠ "" := by
    rintro rfl
    simp at hc
  have hhere : name ≠ "." := by
    rintro rfl
    simp [hdot] at hc
  have hup : name ≠ ".." := by
    rintro rfl
    simp [hdot] at hc
  simp [isSpecial, hempty, hhere, hup]

theorem isFileName_backupFileName : IsFileName (backupFileName identity time) where
  single := slash_not_mem_backupFileName
  plain := isSpecial_eq_false (show 'b' ∈ _ by simp [toList_backupFileName]) (by decide)

theorem IsFileName.partName (h : IsFileName file) : IsFileName (partName file) where
  single := by simpa [Flash.partName] using h.single
  plain := isSpecial_eq_false (show 'p' ∈ _ by simp [Flash.partName]) (by decide)

theorem names_append_slash (dir : String) (hfile : '/' ∉ file.toList) :
    names (dir ++ "/" ++ file) = names dir ++ [file] := by
  have htext : (dir ++ "/" ++ file).toList = dir.toList ++ '/' :: file.toList := by simp
  rw [names, names, htext, Text.fields_eq_splitOn, Text.fields_eq_splitOn, List.splitOn_append_cons_self,
    List.splitOn_eq_singleton hfile]
  simp

/-- The names of a path in a directory are those of the directory, but for an empty one at its
end, and the last one. -/
theorem names_joinPath (dir : String) : ∃ front, (names dir = front ∨ names dir = front ++ [""]) ∧
    ∀ file : String, '/' ∉ file.toList → names (joinPath dir file) = front ++ [file] := by
  unfold joinPath
  split_ifs with hempty hslash
  · refine ⟨[], .inr (by rw [hempty]; rfl), fun file hfile => ?_⟩
    rw [names, Text.fields_eq_splitOn, List.splitOn_eq_singleton hfile]
    simp
  · obtain ⟨front, hfront⟩ := List.getLast?_eq_some_iff.mp hslash
    have hdir : dir = String.ofList front ++ "/" := by
      rw [← String.toList_inj, hfront]
      simp
    rw [hdir]
    refine ⟨names (String.ofList front), .inr ?_, fun file => names_append_slash _⟩
    have hnone : names (String.ofList front ++ "/" ++ "") = names (String.ofList front) ++ [""] :=
      names_append_slash _ (by simp)
    rwa [String.append_empty] at hnone
  · exact ⟨names dir, .inl rfl, fun file => names_append_slash dir⟩

theorem last_name_joinPath (dir : String) (hfile : '/' ∉ file.toList) :
    (names (joinPath dir file)).getLast?.getD "" = file := by
  obtain ⟨front, -, hnames⟩ := names_joinPath dir
  simp [hnames file hfile]

theorem joinPath_inj (hfile : '/' ∉ file.toList) (hfile' : '/' ∉ file'.toList)
    (h : joinPath dir file = joinPath dir' file') :
    file = file' := by
  rw [← last_name_joinPath dir hfile, h, last_name_joinPath dir' hfile']

/-- A path in a directory leads to its last name there. -/
theorem locate_joinPath (hfile : '/' ∉ file.toList) : disk.locate (joinPath dir file) = .ok (home, name) ↔
    checkPath (joinPath dir file) = .ok () ∧ disk.walk [] (names dir) = .ok home ∧ name = file := by
  obtain ⟨front, hfront, hnames⟩ := names_joinPath dir
  have hwalk : disk.walk [] (names dir) = disk.walk [] front := by
    rcases hfront with hfront | hfront
    · rw [hfront]
    · rw [hfront, walk_concat_empty]
  rw [locate_eq_ok_iff, hnames file hfile, hwalk]
  simp

/-! ## Extensions -/

theorem joinPath_append (dir file suffix : String) :
    joinPath dir (file ++ suffix) = joinPath dir file ++ suffix := by
  unfold joinPath
  split_ifs
  · rfl
  · exact String.append_assoc.symm
  · exact String.append_assoc.symm

theorem joinPath_partName (dir file : String) : joinPath dir (partName file) = joinPath dir file ++ ".part" :=
  joinPath_append dir file ".part"

theorem getLast?_joinPath (dir : String) (hlast : file.toList.getLast? = some c) :
    (joinPath dir file).toList.getLast? = some c := by
  unfold joinPath
  split_ifs
  · exact hlast
  · simp [List.getLast?_append, hlast]
  · rw [String.toList_append, List.getLast?_append, hlast]
    rfl

/-- The last extension is the one that is replaced. -/
theorem withExtension_append {stem old new : String} (hdot : '.' ∉ old.toList) (hslash : '/' ∉ old.toList)
    (hlast : stem.toList.getLast? = some c) (hc : c ≠ '/') :
    withExtension (stem ++ "." ++ old) new = stem ++ "." ++ new := by
  have htext : (stem ++ "." ++ old).toList.reverse = old.toList.reverse ++ '.' :: stem.toList.reverse := by simp
  have hsplit : Text.splitOnce '.' (stem ++ "." ++ old).toList.reverse =
      some (old.toList.reverse, stem.toList.reverse) := by
    rw [htext, Text.splitOnce_append (by simpa using hdot)]
  have hstem : stem.toList ≠ [] := by
    intro hnil
    rw [hnil] at hlast
    cases hlast
  rw [withExtension, hsplit]
  simp [hslash, hlast, hc, hstem]

/-- What comes before the extension of a backup ends with the second. -/
theorem exists_stem (identity : String) (time : CalendarTime) : ∃ stem c,
    backupFileName identity time = stem ++ ".bin" ∧ stem.toList.getLast? = some c ∧ c ≠ '/' := by
  obtain ⟨c, hlast⟩ : ∃ c, time.stamp.toList.getLast? = some c := by
    have hdash : '-' ∈ time.stamp.toList := by simp [CalendarTime.stamp]
    exact ⟨_, List.getLast?_eq_some_getLast (List.ne_nil_of_mem hdash)⟩
  refine ⟨safeName identity ++ "." ++ time.stamp, c, rfl, ?_, ?_⟩
  · rw [String.toList_append, List.getLast?_append, hlast]
    rfl
  · rintro rfl
    exact CalendarTime.not_mem_stamp (by decide) (List.mem_of_getLast? hlast)

/-- The dots in the name of a backup do not matter: `.part` comes behind its whole path. -/
theorem partPath_joinPath (dir identity : String) (time : CalendarTime) :
    partPath (joinPath dir (backupFileName identity time)) =
      joinPath dir (partName (backupFileName identity time)) := by
  obtain ⟨stem, c, hname, hlast, hc⟩ := exists_stem identity time
  rw [hname, partName, joinPath_append, joinPath_append, joinPath_append]
  calc partPath (joinPath dir stem ++ ".bin")
      = withExtension (joinPath dir stem ++ "." ++ "bin") "bin.part" := by
        rw [partPath, String.append_assoc]
        rfl
    _ = joinPath dir stem ++ "." ++ "bin.part" :=
        withExtension_append (by decide) (by decide) (getLast?_joinPath dir hlast) hc
    _ = joinPath dir stem ++ ".bin" ++ ".part" := by
        rw [String.append_assoc, String.append_assoc]
        rfl

/-! ## Files in a directory -/

/-- A file that is written well holds what was written, and no other file is touched. -/
theorem write_joinPath_ok (hfile : IsFileName file) (h : disk.write (joinPath dir file) data = (disk', .ok ())) :
    file.utf8ByteSize ≤ maxName ∧ disk'.read (joinPath dir file) = .ok data ∧
    Alters (disk'.IsAt dir file) disk disk' := by
  obtain ⟨home, name, hlocate, -, hshort, hentry, rfl⟩ := write_ok h
  obtain ⟨-, hwalk, rfl⟩ := (locate_joinPath hfile.single).mp hlocate
  have halters : Alters (· = home ++ [name]) disk (disk.put (home ++ [name]) (.file data)) := .put hentry
  have hholds : file? (disk.put (home ++ [name]) (.file data)) (home ++ [name]) = some data :=
    file?_eq_some_iff.mpr (entry?_put_self (by simp))
  refine ⟨hshort, ?_, ?_⟩
  · exact read_eq_ok_iff.mpr ⟨home, name, halters.dirs.locate hlocate, hfile.plain, hshort, hholds⟩
  · exact halters.mono fun place hplace => halters.dirs.isAt ⟨home, hwalk, hplace⟩

/-- A file that is moved within a directory well is gone from where it was, and no other file is
touched than the two. -/
theorem rename_joinPath_ok (hfile : IsFileName file) (hshort : file.utf8ByteSize ≤ maxName)
    (hfile' : IsFileName file') (hshort' : file'.utf8ByteSize ≤ maxName) (hne : file ≠ file')
    (h : disk.rename (joinPath dir file) (joinPath dir file') = (disk', .ok ())) :
    (∃ data, disk.read (joinPath dir file) = .ok data ∧ disk'.read (joinPath dir file') = .ok data) ∧
      disk'.read (joinPath dir file) = .error .notFound ∧
      Alters (fun place => disk'.IsAt dir file place ∨ disk'.IsAt dir file' place) disk disk' := by
  obtain ⟨home, name, home', name', data, hsource, htarget, hfrom, hto, rfl⟩ := rename_ok h
  obtain ⟨-, hwalk, rfl⟩ := (locate_joinPath hfile.single).mp hsource
  obtain ⟨-, hwalk', rfl⟩ := (locate_joinPath hfile'.single).mp htarget
  obtain rfl : home = home' := Except.ok.inj (hwalk.symm.trans hwalk')
  have hplaces : home ++ [name] ≠ home ++ [name'] := by simpa using hne
  have herase : Alters (· = home ++ [name]) disk (disk.erase (home ++ [name])) := .erase (by simp [hfrom])
  have hput : Alters (· = home ++ [name']) (disk.erase (home ++ [name]))
      ((disk.erase (home ++ [name])).put (home ++ [name']) (.file data)) :=
    .put (by rwa [entry?_erase_of_ne hplaces.symm])
  have hdirs := herase.dirs.trans hput.dirs
  have hholds : file? ((disk.erase (home ++ [name])).put (home ++ [name']) (.file data)) (home ++ [name']) =
      some data :=
    file?_eq_some_iff.mpr (entry?_put_self (by simp))
  refine ⟨⟨data, ?_, ?_⟩, ?_, ?_⟩
  · exact read_eq_ok_iff.mpr ⟨home, name, hsource, hfile.plain, hshort, file?_eq_some_iff.mpr hfrom⟩
  · exact read_eq_ok_iff.mpr ⟨home, name', hdirs.locate htarget, hfile'.plain, hshort', hholds⟩
  · refine read_eq_notFound (hdirs.locate hsource) hfile.plain hshort ?_
    rw [entry?_put_of_ne hplaces, entry?_erase_self (by simp)]
  · refine .trans (herase.mono fun place hplace => ?_) (hput.mono fun place hplace => ?_)
    · exact .inl (hdirs.isAt ⟨home, hwalk, hplace⟩)
    · exact .inr (hdirs.isAt ⟨home, hwalk, hplace⟩)

end Reflash.Flash
