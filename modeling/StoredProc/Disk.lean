import StoredProc.Text.Utf8

/-!
Files, directories and devices, and the paths that name them. A disk is a
value: to write is to make the next disk. Paths are followed name by
name, and every name but the last has to be a directory, so each way in
which a path can fail to lead anywhere has a fault of its own.
-/

namespace StoredProc

inductive Fault where
  | notFound
  | notDirectory
  | isDirectory
  | nameTooLong
  | noDevice
  | notPermitted
  | noSpace
  | notText
  deriving DecidableEq, Repr

def Fault.reason : Fault → Text
  | notFound => "No such file or directory (os error 2)".toList
  | notDirectory => "Not a directory (os error 20)".toList
  | isDirectory => "Is a directory (os error 21)".toList
  | nameTooLong => "File name too long (os error 36)".toList
  | noDevice => "No such device or address (os error 6)".toList
  | notPermitted => "Permission denied (os error 13)".toList
  | noSpace => "No space left on device (os error 28)".toList
  | notText => "stream did not contain valid UTF-8".toList

/-! ### Paths -/

/-- A path, cut at its slashes. Slashes side by side count as one, and a
slash at the end says that a directory is meant. -/
structure Path where
  absolute : Bool
  names : List Text
  slashed : Bool
  deriving DecidableEq, Repr

namespace Path

def ofText (text : Text) : Path where
  absolute := text.head? = some '/'
  names := (Text.split '/' text).filter (· ≠ [])
  slashed := text.getLast? = some '/'

/-- The longest name, and the longest path, in bytes. -/
def maxName : Nat := 255

def maxPath : Nat := 4095

/-- The directory a name stands in, seen from itself and from within. -/
def here : Text := ".".toList

def parent : Text := "..".toList

end Path

/-! ### Disks -/

/-- A place on a disk: the names on the way from the root. -/
abbrev Location := List Text

/-- What can be written to without being a file. Nothing can be read from
any of them. -/
inductive Device where
  /-- Takes everything and keeps nothing. -/
  | null
  /-- Has no room for anything. -/
  | full
  /-- What the command prints. -/
  | output
  /-- What the command reports. -/
  | errors
  deriving DecidableEq, Repr

inductive Entry where
  /-- A directory. If it has a fault, nothing can be made in it. -/
  | directory (fault : Option Fault)
  | file (bytes : List UInt8)
  | device (device : Device)
  /-- Another name for a place, which is not a link itself. -/
  | link (place : Location)
  /-- Something of which nothing can be had. -/
  | barred (fault : Fault)
  deriving DecidableEq, Repr

/-- A disk, seen from a working directory. The root is a directory and
needs no entry. -/
structure Disk where
  home : Location
  entries : List (Location × Entry)
  deriving DecidableEq, Repr

inductive Outlet where
  | file (place : Location)
  | device (device : Device)
  deriving DecidableEq, Repr

namespace Disk

def entry? (disk : Disk) (place : Location) : Option Entry :=
  if place = [] then some (.directory none) else disk.entries.lookup place

def put (disk : Disk) (place : Location) (entry : Entry) : Disk :=
  { disk with entries := (place, entry) :: disk.entries.filter (·.1 ≠ place) }

def homeFiles (disk : Disk) : List (Text × List UInt8) :=
  disk.entries.filterMap fun (place, entry) =>
    match entry, place.getLast? with
    | .file bytes, some name =>
        if place.dropLast = disk.home then some (name, bytes) else none
    | _, _ => none

/-- The place that a place is another name for, or else itself. -/
def follow (disk : Disk) (place : Location) : Location :=
  match disk.entry? place with
  | some (.link target) => target
  | _ => place

def enter (disk : Disk) (place : Location) (name : Text) : Except Fault Location :=
  match disk.entry? place with
  | none => .error .notFound
  | some (.directory _) =>
      if name = Path.here then .ok place
      else if name = Path.parent then .ok place.dropLast
      else if Path.maxName < Text.Utf8.size name then .error .nameTooLong
      else .ok (disk.follow (place ++ [name]))
  | some _ => .error .notDirectory

def walk (disk : Disk) (path : Path) (names : List Text) : Except Fault Location :=
  names.foldlM disk.enter (if path.absolute then [] else disk.home)

def path (text : Text) : Except Fault Path :=
  if text = [] then .error .notFound
  else if Path.maxPath < Text.Utf8.size text then .error .nameTooLong
  else .ok (.ofText text)

def contents : Option Entry → Except Fault (List UInt8)
  | none => .error .notFound
  | some (.directory _) => .error .isDirectory
  | some (.file bytes) => .ok bytes
  | some (.device _) => .ok []
  | some (.link _) => .error .notFound
  | some (.barred fault) => .error fault

def isLeaf : Option Entry → Bool
  | none => false
  | some (.directory _) => false
  | some _ => true

def read (disk : Disk) (text : Text) : Except Fault (List UInt8) := do
  let path ← path text
  let place ← disk.walk path path.names
  let entry := disk.entry? place
  if path.slashed && isLeaf entry then .error .notDirectory else contents entry

/-- What is open for writing at a place. The fault is that of its
directory. -/
def opened (disk : Disk) (fault : Option Fault) (place : Location) : Except Fault Outlet :=
  match disk.entry? place with
  | none =>
      match fault with
      | none => .ok (.file place)
      | some fault => .error fault
  | some (.directory _) => .error .isDirectory
  | some (.file _) => .ok (.file place)
  | some (.device device) => .ok (.device device)
  | some (.link _) => .error .notFound
  | some (.barred fault) => .error fault

def target (disk : Disk) (directory : Location) (name : Text) (slashed : Bool) :
    Except Fault Outlet :=
  match disk.entry? directory with
  | none => .error .notFound
  | some (.directory fault) =>
      if slashed then .error .isDirectory
      else do disk.opened fault (← disk.enter directory name)
  | some _ => .error .notDirectory

/-- What is open for writing where a path leads. A file there need not
exist yet. -/
def targetOf (disk : Disk) (text : Text) : Except Fault Outlet := do
  let path ← path text
  match path.names.getLast? with
  | none => .error .isDirectory
  | some name =>
      let directory ← disk.walk path path.names.dropLast
      disk.target directory name path.slashed

def fill (disk : Disk) (outlet : Outlet) (bytes : List UInt8) : Disk :=
  match outlet with
  | .file place => disk.put place (.file bytes)
  | .device _ => disk

/-- Open where a path leads for writing: an empty file, in place of any
file there, or a device. -/
def create (disk : Disk) (text : Text) : Except Fault (Disk × Outlet) := do
  let outlet ← disk.targetOf text
  return (disk.fill outlet [], outlet)

end Disk

end StoredProc
