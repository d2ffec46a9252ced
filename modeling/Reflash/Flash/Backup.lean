import Reflash.Calendar
import Reflash.Flash.Dump

/-!
# Reflash.Flash.Backup — keeping a flash dump in a file

A backup is named after the identity of its unit and the time, and lies directly in the backup directory.  It is
written under a name ending in `.part` and renamed once it is complete.
-/

namespace Reflash.Flash

/-- What a character of an identity becomes in a file name. -/
def fileNameChar (c : Char) : Char :=
  if c.isAlphanum || c = '-' || c = '_' then c else '_'

/-- The file name of a backup of `identity` that is taken at a time. -/
def backupFileName (identity : String) (time : CalendarTime) : String :=
  String.ofList (identity.toList.map fileNameChar) ++ "." ++ time.stamp ++ ".bin"

/-- The path of `name` in the directory `dir`. -/
def joinPath (dir name : String) : String :=
  if dir = "" then name
  else if dir.toList.getLast? = some '/' then dir ++ name
  else dir ++ "/" ++ name

/-- A path to a file with another extension: what comes after the last dot of its last name, unless that is the
first character of the name. -/
def withExtension (path extension : String) : String :=
  match Text.splitOnce '.' path.toList.reverse with
  | some (old, stem) =>
    if '/' ∈ old ∨ stem = [] ∨ stem.head? = some '/' then path ++ "." ++ extension
    else String.ofList stem.reverse ++ "." ++ extension
  | none => path ++ "." ++ extension

/-- Where a dump is written before it is complete. -/
def partPath (path : String) : String := withExtension path "bin.part"

/-- Fails with the path of the step that failed. -/
def atPath {α : Type} (path : String) (x : Action (Except FileError α)) : Attempt BackupError α :=
  Attempt.of (.file path) x

/-- Writes a dump to a new file in `dir` and returns the path of the file. -/
def persist (dir identity : String) (flash : Bytes) : Attempt BackupError String := do
  atPath dir (tell (.createDirs dir))
  let seconds ← (tell .localTime : Action Nat)
  let path := joinPath dir (backupFileName identity (CalendarTime.ofSeconds seconds))
  atPath (partPath path) (tell (.writeFile (partPath path) flash))
  atPath path (tell (.rename (partPath path) path))
  report .info ("flash backup saved to " ++ path)
  return path

end Reflash.Flash
