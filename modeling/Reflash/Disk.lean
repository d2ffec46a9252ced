import Reflash.Bytes
import Reflash.FileError
import Reflash.Text.Digits

/-!
# Reflash.Disk — a tree of files

A disk maps places to directories and files; a place is the list of names on the way from the root.  A path
is a text with the names between slashes, where an empty name and `.` stay and `..` goes up.  The
operations are those of a host (`createDirs`, `write`, `rename`, `read`), with the errors that a host gives
and in the same order: every name on the way is looked up before the last one, and a name that is too long
is refused where it is met.
-/

namespace Reflash

/-- The names on the way from the root. -/
abbrev Place := List String

/-- What there is at a place. -/
inductive DiskEntry where
  | dir
  | file (data : Bytes)
  deriving DecidableEq

/-- A tree of files.  The root is always there. -/
structure Disk where
  entries : List (Place × DiskEntry) := []

namespace Disk

def maxName : Nat := 255

def maxPath : Nat := 4095

/-- What there is at a place. -/
def entry? (disk : Disk) (place : Place) : Option DiskEntry :=
  if place = [] then some .dir else disk.entries.lookup place

/-- Puts an entry at a place, over what was there. -/
def put (disk : Disk) (place : Place) (entry : DiskEntry) : Disk :=
  ⟨(place, entry) :: disk.entries.filter fun e => e.1 ≠ place⟩

/-- Takes away what is at a place. -/
def erase (disk : Disk) (place : Place) : Disk := ⟨disk.entries.filter fun e => e.1 ≠ place⟩

def files (disk : Disk) : List (Place × Bytes) :=
  disk.entries.filterMap fun
    | (place, .file data) => some (place, data)
    | (_, .dir) => none

/-! ### Paths -/

/-- The names of a path, with empty ones. -/
def names (path : String) : List String := (Text.fields '/' path.toList).map String.ofList

/-- Goes from a directory by one name that must lead to a directory. -/
def enter (disk : Disk) (place : Place) (name : String) : Except FileError Place :=
  if name = "" ∨ name = "." then .ok place
  else if name = ".." then .ok place.dropLast
  else if maxName < name.utf8ByteSize then .error .nameTooLong
  else match disk.entry? (place ++ [name]) with
    | none => .error .notFound
    | some (.file _) => .error .notDirectory
    | some .dir => .ok (place ++ [name])

/-- Goes from a directory by several names. -/
def walk (disk : Disk) : Place → List String → Except FileError Place
  | place, [] => .ok place
  | place, name :: rest =>
    match disk.enter place name with
    | .ok next => disk.walk next rest
    | .error e => .error e

/-- Refuses a path that no host takes: an empty one, one with a NUL, one that is too long. -/
def checkPath (path : String) : Except FileError Unit :=
  if '\x00' ∈ path.toList then .error .nulInName
  else if path = "" then .error .notFound
  else if maxPath < path.utf8ByteSize then .error .nameTooLong
  else .ok ()

/-- The directory that holds the end of a path, and the last name. -/
def locate (disk : Disk) (path : String) : Except FileError (Place × String) :=
  match checkPath path with
  | .error e => .error e
  | .ok () =>
    let all := names path
    match disk.walk [] all.dropLast with
    | .ok place => .ok (place, all.getLast?.getD "")
    | .error e => .error e

/-- Whether a last name stands for a directory by itself. -/
def isSpecial (name : String) : Bool := name = "" || name = "." || name = ".."

/-! ### Operations -/

/-- Whether a path leads to a directory. -/
def isDir (disk : Disk) (path : String) : Bool :=
  match checkPath path with
  | .error _ => false
  | .ok () => (disk.walk [] (names path)).toBool

/-- A path without the slashes at its end. -/
def dropSlashes (path : String) : String :=
  String.ofList (path.toList.reverse.dropWhile (· = '/')).reverse

def createDir (disk : Disk) (path : String) : Disk × Except FileError Unit :=
  match checkPath path with
  | .error e => (disk, .error e)
  | .ok () =>
    if dropSlashes path = "" then (disk, .error .alreadyExists)
    else match disk.locate (dropSlashes path) with
      | .error e => (disk, .error e)
      | .ok (place, name) =>
        if isSpecial name then (disk, .error .alreadyExists)
        else if maxName < name.utf8ByteSize then (disk, .error .nameTooLong)
        else match disk.entry? (place ++ [name]) with
          | some _ => (disk, .error .alreadyExists)
          | none => (disk.put (place ++ [name]) .dir, .ok ())

/-- The directories above a path, nearest first: empty names and `.` do not count, except a `.` in front. -/
def parents (path : String) : List String :=
  let all := names path
  let front := all.headD ""
  let kept := all.tail.filter fun name => name ≠ "" ∧ name ≠ "."
  let parts := if front = "" then kept else front :: kept
  let lead := if front = "" ∧ path ≠ "" then "/" else ""
  ((List.range parts.length).drop 1).reverse.map fun n => lead ++ String.intercalate "/" (parts.take n)

/-- Creates one directory, content if it is there already. -/
def createDirOnce (disk : Disk) (path : String) : Disk × Except FileError Unit :=
  match disk.createDir path with
  | (disk', .error .alreadyExists) => (disk', if disk'.isDir path then .ok () else .error .alreadyExists)
  | result => result

/-- Creates a directory and, where that fails for want of a parent, the parents first. -/
def createWithin (disk : Disk) (path : String) : List String → Disk × Except FileError Unit
  | [] => disk.createDirOnce path
  | parent :: rest =>
    match disk.createDirOnce path with
    | (_, .error .notFound) =>
      match disk.createWithin parent rest with
      | (disk', .ok ()) => disk'.createDirOnce path
      | result => result
    | result => result

/-- Creates a directory with all that is missing above it. -/
def createDirs (disk : Disk) (path : String) : Disk × Except FileError Unit :=
  if path = "" then (disk, .ok ()) else disk.createWithin path (parents path)

/-- Writes a file, over the old one if there is one. -/
def write (disk : Disk) (path : String) (data : Bytes) : Disk × Except FileError Unit :=
  match disk.locate path with
  | .error e => (disk, .error e)
  | .ok (place, name) =>
    if isSpecial name then (disk, .error .isDirectory)
    else if maxName < name.utf8ByteSize then (disk, .error .nameTooLong)
    else match disk.entry? (place ++ [name]) with
      | some .dir => (disk, .error .isDirectory)
      | _ => (disk.put (place ++ [name]) (.file data), .ok ())

def read (disk : Disk) (path : String) : Except FileError Bytes :=
  match disk.locate path with
  | .error e => .error e
  | .ok (place, name) =>
    if isSpecial name then .error .isDirectory
    else if maxName < name.utf8ByteSize then .error .nameTooLong
    else match disk.entry? (place ++ [name]) with
      | none => .error .notFound
      | some .dir => .error .isDirectory
      | some (.file data) => .ok data

/-- Moves a file, over the file at the target if there is one. -/
def rename (disk : Disk) (source target : String) : Disk × Except FileError Unit :=
  match disk.locate source, disk.locate target with
  | .error e, _ => (disk, .error e)
  | _, .error e => (disk, .error e)
  | .ok (place, name), .ok (place', name') =>
    match disk.entry? (place ++ [name]), disk.entry? (place' ++ [name']) with
    | some (.file _), some .dir => (disk, .error .isDirectory)
    | some (.file data), _ => ((disk.erase (place ++ [name])).put (place' ++ [name']) (.file data), .ok ())
    | _, _ => (disk, .error .notFound)

end Disk

end Reflash
