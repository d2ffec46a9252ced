import Reflash.Proofs.Actions
import Reflash.Proofs.Disk

/-!
# Reflash.Proofs.Drive — hosts that keep their files on a disk

A `DiskView` says that the files of an environment are on a `Disk`.  An operation that goes well does to the
disk what `Disk` says.  One that fails may fail for any reason; creating directories may then have made some of
them, writing may have left any part of the data in the file, and renaming has done nothing.  A `Drive` is such
a host: its disk takes a limited number of bytes, and a write that goes beyond leaves what there is room for.
-/

namespace Reflash

open Program Disk

/-- The calls that change files. -/
def ChangesFiles : (cameras.sum host).Call → Prop
  | .inr (.createDirs _) | .inr (.writeFile _ _) | .inr (.rename _ _) => True
  | _ => False

/-- What is on the disk of an environment that nobody else writes to. -/
structure DiskView {σ : Type} (env : Environment (cameras.sum host) σ) where
  disk : σ → Disk
  created : ∀ s path, (env (.inr (.createDirs path)) s).1 = some (.ok ()) →
    (disk s).createDirs path = (disk (env (.inr (.createDirs path)) s).2, .ok ())
  notCreated : ∀ s path e, (env (.inr (.createDirs path)) s).1 = some (.error e) →
    AddsDirs (disk s) (disk (env (.inr (.createDirs path)) s).2)
  written : ∀ s path data, (env (.inr (.writeFile path data)) s).1 = some (.ok ()) →
    (disk s).write path data = (disk (env (.inr (.writeFile path data)) s).2, .ok ())
  notWritten : ∀ s path data e, (env (.inr (.writeFile path data)) s).1 = some (.error e) →
    disk (env (.inr (.writeFile path data)) s).2 = disk s ∨
      ∃ n, (disk s).write path (data.take n) = (disk (env (.inr (.writeFile path data)) s).2, .ok ())
  renamed : ∀ s source target, (env (.inr (.rename source target)) s).1 = some (.ok ()) →
    (disk s).rename source target = (disk (env (.inr (.rename source target)) s).2, .ok ())
  notRenamed : ∀ s source target e, (env (.inr (.rename source target)) s).1 = some (.error e) →
    disk (env (.inr (.rename source target)) s).2 = disk s
  kept : ∀ c s, ¬ ChangesFiles c → disk (env c s).2 = disk s

/-- A host with a clock that stands still and a disk with room for so many bytes. -/
structure Drive where
  disk : Disk := {}
  room : Nat := 0
  seconds : Nat := 0

namespace Drive

/-- The drive so many seconds later. -/
def later (d : Drive) (seconds : Nat) : Drive := { d with seconds := d.seconds + seconds }

/-- Why a write fails for want of room. -/
def full : FileError := .other "No space left on device (os error 28)"

/-- Writes what there is room for. -/
def write (d : Drive) (path : String) (data : Bytes) : Except FileError Unit × Drive :=
  let (disk, result) := d.disk.write path (data.take d.room)
  (if d.room < data.length then result.bind fun _ => .error full else result,
    { d with disk, room := d.room - data.length })

/-- The drive as an environment: it answers the calls about files and takes records of the log. -/
def world : Environment (cameras.sum host) Drive
  | .inr (.createDirs path), d => (some (d.disk.createDirs path).2, { d with disk := (d.disk.createDirs path).1 })
  | .inr (.writeFile path data), d => (some (d.write path data).1, (d.write path data).2)
  | .inr (.rename source target), d =>
    (some (d.disk.rename source target).2, { d with disk := (d.disk.rename source target).1 })
  | .inr (.readFile path), d => (some (d.disk.read path), d)
  | .inr .localTime, d => (some d.seconds, d)
  | .inr (.log _), d => (some (), d)
  | _, d => (none, d)

end Drive

/-- A drive keeps its files on its disk. -/
def Drive.view : DiskView Drive.world where
  disk := Drive.disk
  created d path h := by
    have hok : (d.disk.createDirs path).2 = .ok () := Option.some.inj h
    exact Prod.ext rfl hok
  notCreated d path e _ := addsDirs_createDirs d.disk path
  written d path data h := by
    have hok : (d.write path data).1 = .ok () := Option.some.inj h
    have hroom : ¬ d.room < data.length := by
      intro hfull
      cases hwrite : (d.disk.write path (data.take d.room)).2 <;>
        simp [Drive.write, hfull, hwrite, Except.bind] at hok
    have hall : data.take d.room = data := List.take_of_length_le (by omega)
    simp only [Drive.write, hroom, if_false, hall] at hok
    refine Prod.ext ?_ hok
    show _ = (d.disk.write path (data.take d.room)).1
    rw [hall]
  notWritten d path data e h := by
    show (d.disk.write path (data.take d.room)).1 = d.disk ∨ ∃ n, d.disk.write path (data.take n) =
      ((d.disk.write path (data.take d.room)).1, .ok ())
    cases hwrite : (d.disk.write path (data.take d.room)).2 with
    | error e' => exact .inl (write_error (Prod.ext rfl hwrite))
    | ok u => exact .inr ⟨d.room, Prod.ext rfl hwrite⟩
  renamed d source target h := by
    have hok : (d.disk.rename source target).2 = .ok () := Option.some.inj h
    exact Prod.ext rfl hok
  notRenamed d source target e h := by
    have herror : (d.disk.rename source target).2 = .error e := Option.some.inj h
    exact rename_error (Prod.ext rfl herror)
  kept c d hc := by
    rcases c with c | c
    · rfl
    · cases c with
      | createDirs path => exact absurd trivial hc
      | writeFile path data => exact absurd trivial hc
      | rename source target => exact absurd trivial hc
      | _ => rfl

end Reflash
