import Mathlib.Tactic.Common
import Reflash.Disk
import Reflash.Proofs.Text

/-!
# Reflash.Proofs.Disk — what the operations on a disk change

Each operation that succeeds changes the entry at one place (`write_ok`, `rename_ok`), and creating directories
adds directories where nothing was (`addsDirs_createDirs`).  A path leads where it led before as long as no
directory is taken away (`KeepsDirs.locate`), so a path can be followed through a sequence of operations.
-/

namespace Reflash.Disk

variable {disk disk' before after : Disk} {place other home : Place} {entry : DiskEntry}
  {path name : String} {data : Bytes}

/-! ## Entries -/

theorem lookup_filter_ne {entries : List (Place × DiskEntry)} (hne : other ≠ place) :
    (entries.filter fun e => e.1 ≠ place).lookup other = entries.lookup other := by
  induction entries with
  | nil => rfl
  | cons e rest ih =>
    by_cases he : e.1 = place
    · have hother : (other == e.1) = false := by simp [he, hne]
      rw [List.filter_cons_of_neg (by simp [he]), ih, List.lookup_cons, hother]
    · rw [List.filter_cons_of_pos (by simp [he]), List.lookup_cons, List.lookup_cons, ih]

theorem lookup_filter_self {entries : List (Place × DiskEntry)} :
    (entries.filter fun e => e.1 ≠ place).lookup place = none := by
  rw [List.lookup_eq_none_iff]
  intro e he
  have hne : e.1 ≠ place := of_decide_eq_true (List.mem_filter.mp he).2
  simpa using hne.symm

theorem entry?_put_self (hplace : place ≠ []) : entry? (disk.put place entry) place = some entry := by
  simp [ entry?, put, hplace]

theorem entry?_put_of_ne (hne : other ≠ place) : entry? (disk.put place entry) other = disk.entry? other := by
  have hkey : (other == place) = false := by simpa using hne
  simp only [ entry?, put, List.lookup_cons, hkey, lookup_filter_ne hne]

theorem entry?_erase_self (hplace : place ≠ []) : entry? (disk.erase place) place = none := by
  rw [ entry?, if_neg hplace, erase, lookup_filter_self]

theorem entry?_erase_of_ne (hne : other ≠ place) : entry? (disk.erase place) other = disk.entry? other := by
  rw [ entry?, entry?, erase, lookup_filter_ne hne]

/-- What the file at a place holds, if there is one. -/
def file? (disk : Disk) (place : Place) : Option Bytes :=
  match disk.entry? place with
  | some (.file data) => some data
  | _ => none

theorem file?_eq_some_iff : disk.file? place = some data ↔ disk.entry? place = some (.file data) := by
  unfold file?
  split <;> simp_all

theorem file?_put_of_ne (hne : other ≠ place) : file? (disk.put place entry) other = disk.file? other := by
  rw [file?, file?, entry?_put_of_ne hne]

theorem file?_erase_of_ne (hne : other ≠ place) : file? (disk.erase place) other = disk.file? other := by
  rw [file?, file?, entry?_erase_of_ne hne]

/-! ## Directories that are added, and directories that stay -/

/-- `after` is `before` with directories where nothing was. -/
def AddsDirs (before after : Disk) : Prop :=
  ∀ place, after.entry? place = before.entry? place ∨ before.entry? place = none ∧ after.entry? place = some .dir

/-- No directory is taken away. -/
def KeepsDirs (before after : Disk) : Prop :=
  ∀ place, before.entry? place = some .dir → after.entry? place = some .dir

namespace AddsDirs

theorem refl (disk : Disk) : AddsDirs disk disk := fun _ => .inl rfl

theorem trans {middle : Disk} (h₁ : AddsDirs before middle) (h₂ : AddsDirs middle after) :
    AddsDirs before after := by
  intro place
  rcases h₂ place with heq | ⟨hnone, hdir⟩
  · rw [heq]
    exact h₁ place
  · rcases h₁ place with heq | ⟨-, hdir'⟩
    · exact .inr ⟨heq ▸ hnone, hdir⟩
    · rw [hdir'] at hnone
      cases hnone

theorem file?_eq (h : AddsDirs before after) (place : Place) : after.file? place = before.file? place := by
  rcases h place with heq | ⟨hnone, hdir⟩
  · rw [file?, file?, heq]
  · rw [file?, file?, hnone, hdir]

end AddsDirs

theorem addsDirs_put (hnone : disk.entry? place = none) : AddsDirs disk (disk.put place .dir) := by
  intro other
  by_cases heq : other = place
  · have hplace : place ≠ [] := by
      rintro rfl
      cases hnone
    subst heq
    exact .inr ⟨hnone, entry?_put_self hplace⟩
  · exact .inl (entry?_put_of_ne heq)

theorem addsDirs_createDir (disk : Disk) (path : String) : AddsDirs disk (disk.createDir path).1 := by
  unfold createDir
  repeat' split
  all_goals first
    | exact .refl disk
    | exact addsDirs_put ‹_›

theorem createDirOnce_fst (disk : Disk) (path : String) :
    (disk.createDirOnce path).1 = (disk.createDir path).1 := by
  unfold createDirOnce
  split
  · rename_i hexists
    rw [hexists]
  · rfl

theorem addsDirs_createWithin (disk : Disk) (path : String) (parents : List String) :
    AddsDirs disk (disk.createWithin path parents).1 := by
  have honce : ∀ (disk : Disk) (path : String), AddsDirs disk (disk.createDirOnce path).1 := by
    intro disk path
    rw [createDirOnce_fst]
    exact addsDirs_createDir disk path
  induction parents generalizing path with
  | nil => exact honce disk path
  | cons parent rest ih =>
    rw [createWithin]
    split
    · have hparents := ih parent
      split
      · rename_i disk' hcreated
        rw [hcreated] at hparents
        exact hparents.trans (honce disk' path)
      · exact hparents
    · exact honce disk path

/-- Creating directories adds directories, also where it fails on the way. -/
theorem addsDirs_createDirs (disk : Disk) (path : String) : AddsDirs disk (disk.createDirs path).1 := by
  unfold createDirs
  split
  · exact .refl disk
  · exact addsDirs_createWithin disk path (parents path)

theorem keepsDirs_put (hplace : disk.entry? place ≠ some .dir) : KeepsDirs disk (disk.put place entry) := by
  intro other hdir
  have hne : other ≠ place := by
    rintro rfl
    exact hplace hdir
  rw [entry?_put_of_ne hne, hdir]

theorem keepsDirs_erase (hplace : disk.entry? place ≠ some .dir) : KeepsDirs disk (disk.erase place) := by
  intro other hdir
  have hne : other ≠ place := by
    rintro rfl
    exact hplace hdir
  rw [entry?_erase_of_ne hne, hdir]

namespace KeepsDirs

theorem trans {middle : Disk} (h₁ : KeepsDirs before middle) (h₂ : KeepsDirs middle after) :
    KeepsDirs before after :=
  fun place hdir => h₂ place (h₁ place hdir)

theorem enter (h : KeepsDirs before after) (henter : before.enter place name = .ok home) :
    after.enter place name = .ok home := by
  unfold Disk.enter at henter ⊢
  split_ifs at henter ⊢ with hstay hup hlong
  · exact henter
  · exact henter
  · split at henter
    · cases henter
    · cases henter
    · rename_i hdir
      rw [h _ hdir]
      exact henter

theorem walk (h : KeepsDirs before after) {names : List String} (hwalk : before.walk place names = .ok home) :
    after.walk place names = .ok home := by
  induction names generalizing place with
  | nil => exact hwalk
  | cons name rest ih =>
    rw [Disk.walk] at hwalk ⊢
    split at hwalk
    · rename_i next henter
      rw [h.enter henter]
      exact ih hwalk
    · cases hwalk

end KeepsDirs

/-- Directories stay, and so does what files hold but for those at some places. -/
structure Alters (places : Place → Prop) (before after : Disk) : Prop where
  dirs : KeepsDirs before after
  files : ∀ place, ¬ places place → after.file? place = before.file? place

theorem AddsDirs.keepsDirs (h : AddsDirs before after) : KeepsDirs before after := by
  intro place hdir
  rcases h place with heq | ⟨hnone, -⟩
  · rw [heq, hdir]
  · rw [hdir] at hnone
    cases hnone

theorem AddsDirs.alters (h : AddsDirs before after) {places : Place → Prop} : Alters places before after where
  dirs := h.keepsDirs
  files place _ := h.file?_eq place

namespace Alters

variable {places places' : Place → Prop}

theorem refl (disk : Disk) : Alters places disk disk := (AddsDirs.refl disk).alters

theorem mono (h : Alters places before after) (hplaces : ∀ place, places place → places' place) :
    Alters places' before after where
  dirs := h.dirs
  files place hplace := h.files place fun hmem => hplace (hplaces place hmem)

theorem trans {middle : Disk} (h₁ : Alters places before middle) (h₂ : Alters places middle after) :
    Alters places before after where
  dirs := h₁.dirs.trans h₂.dirs
  files place hplace := (h₂.files place hplace).trans (h₁.files place hplace)

theorem put (hplace : disk.entry? place ≠ some .dir) : Alters (· = place) disk (disk.put place entry) where
  dirs := keepsDirs_put hplace
  files _ hne := file?_put_of_ne hne

theorem erase (hplace : disk.entry? place ≠ some .dir) : Alters (· = place) disk (disk.erase place) where
  dirs := keepsDirs_erase hplace
  files _ hne := file?_erase_of_ne hne

end Alters

/-! ## Where paths lead -/

theorem locate_eq_ok_iff : disk.locate path = .ok (place, name) ↔ checkPath path = .ok () ∧
    disk.walk [] (names path).dropLast = .ok place ∧ name = (names path).getLast?.getD "" := by
  unfold locate
  cases hpath : checkPath path with
  | error e => simp
  | ok u =>
    cases hwalk : disk.walk [] (names path).dropLast with
    | error e => simp [hwalk]
    | ok home => simp [hwalk, eq_comm]

/-- A path leads where it led before. -/
theorem KeepsDirs.locate (h : KeepsDirs before after) (hlocate : before.locate path = .ok (place, name)) :
    after.locate path = .ok (place, name) := by
  rw [locate_eq_ok_iff] at hlocate ⊢
  exact ⟨hlocate.1, h.walk hlocate.2.1, hlocate.2.2⟩

/-- An empty name at the end leads nowhere else. -/
theorem walk_concat_empty (names : List String) : disk.walk place (names ++ [""]) = disk.walk place names := by
  induction names generalizing place with
  | nil => rfl
  | cons name rest ih =>
    rw [List.cons_append, walk, walk]
    split
    · exact ih
    · rfl

/-- A place is that of a name in the directory to which a path leads. -/
def IsAt (disk : Disk) (dir name : String) (place : Place) : Prop :=
  ∃ home, disk.walk [] (names dir) = .ok home ∧ place = home ++ [name]

theorem IsAt.getLast? {dir : String} (h : disk.IsAt dir name place) : place.getLast? = some name := by
  obtain ⟨home, -, rfl⟩ := h
  simp

theorem KeepsDirs.isAt (h : KeepsDirs before after) {dir : String} (hat : before.IsAt dir name place) :
    after.IsAt dir name place := by
  obtain ⟨home, hwalk, rfl⟩ := hat
  exact ⟨home, h.walk hwalk, rfl⟩

/-! ## Files -/

/-- Writing well puts a file where the path leads, in place of no directory. -/
theorem write_ok (h : disk.write path data = (disk', .ok ())) :
    ∃ place name, disk.locate path = .ok (place, name) ∧
    isSpecial name = false ∧ name.utf8ByteSize ≤ maxName ∧ disk.entry? (place ++ [name]) ≠ some .dir ∧
    disk' = disk.put (place ++ [name]) (.file data) := by
  unfold write at h
  split at h
  · cases h
  · rename_i place name hlocate
    split_ifs at h with hspecial hlong
    · cases h
    · cases h
    split at h
    · cases h
    · rename_i hdir
      obtain ⟨rfl, -⟩ := Prod.mk.inj h
      exact ⟨place, name, hlocate, by simpa using hspecial, by omega, hdir, rfl⟩

/-- Renaming well moves a file, in place of no directory. -/
theorem rename_ok {source target : String} (h : disk.rename source target = (disk', .ok ())) :
    ∃ place name place' name' data,
      disk.locate source = .ok (place, name) ∧ disk.locate target = .ok (place', name') ∧
      disk.entry? (place ++ [name]) = some (.file data) ∧ disk.entry? (place' ++ [name']) ≠ some .dir ∧
      disk' = (disk.erase (place ++ [name])).put (place' ++ [name']) (.file data) := by
  unfold rename at h
  split at h
  · cases h
  · cases h
  · rename_i place name place' name' hsource htarget
    split at h
    · cases h
    · rename_i data hfile hdir
      obtain ⟨rfl, -⟩ := Prod.mk.inj h
      exact ⟨place, name, place', name', data, hsource, htarget, hfile, hdir, rfl⟩
    · cases h

/-- Writing or renaming in vain changes nothing. -/
theorem write_error {e : FileError} (h : disk.write path data = (disk', .error e)) : disk' = disk := by
  unfold write at h
  repeat' split at h
  all_goals
    cases h
    try rfl

theorem rename_error {source target : String} {e : FileError} (h : disk.rename source target = (disk', .error e)) :
    disk' = disk := by
  unfold rename at h
  repeat' split at h
  all_goals
    cases h
    try rfl

/-- Reading well gives what the file holds to which the path leads. -/
theorem read_eq_ok_iff : disk.read path = .ok data ↔ ∃ place name, disk.locate path = .ok (place, name) ∧
    isSpecial name = false ∧ name.utf8ByteSize ≤ maxName ∧ disk.file? (place ++ [name]) = some data := by
  unfold read file?
  cases hlocate : disk.locate path with
  | error e => simp
  | ok found =>
    obtain ⟨place, name⟩ := found
    simp only [Except.ok.injEq, Prod.mk.injEq, ↓existsAndEq, and_true, true_and]
    by_cases hspecial : isSpecial name = true
    · simp [hspecial]
    by_cases hlong : maxName < name.utf8ByteSize
    · simp [hspecial, hlong, Nat.not_le.mpr hlong]
    · have hshort : name.utf8ByteSize ≤ maxName := by omega
      cases disk.entry? (place ++ [name]) with
      | none => simp [hspecial, hlong]
      | some entry => cases entry <;> simp [hspecial, hlong, hshort]

theorem read_eq_notFound (hlocate : disk.locate path = .ok (place, name)) (hspecial : isSpecial name = false)
    (hshort : name.utf8ByteSize ≤ maxName) (hnone : disk.entry? (place ++ [name]) = none) :
    disk.read path = .error .notFound := by
  have hlong : ¬ maxName < name.utf8ByteSize := by omega
  simp [read, hlocate, hspecial, hlong, hnone]

/-- What is read stays what it was, as long as no file of that name is touched. -/
theorem Alters.read {places : Place → Prop} (h : Alters places before after) (hread : before.read path = .ok data)
    (hname : ∀ place, ¬ places (place ++ [(names path).getLast?.getD ""])) : after.read path = .ok data := by
  obtain ⟨place, name, hlocate, hspecial, hshort, hfile⟩ := read_eq_ok_iff.mp hread
  have hlast : name = (names path).getLast?.getD "" := (locate_eq_ok_iff.mp hlocate).2.2
  refine read_eq_ok_iff.mpr ⟨place, name, h.dirs.locate hlocate, hspecial, hshort, ?_⟩
  rw [h.files _ (hlast ▸ hname place), hfile]

end Reflash.Disk
