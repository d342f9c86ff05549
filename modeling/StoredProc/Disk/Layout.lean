import StoredProc.Disk

/-!
A disk as a system sets it up, on which the command finds what it finds
everywhere: the directories at the root, the devices, the names under
which a process finds its own streams, and a working directory with
nothing in it.
-/

namespace StoredProc.Disk

def locate (path : String) : Location := (Path.ofText path.toList).names

/-- Where a temporary working directory stands. Nobody knows its name, so
it has the empty one, which no path can spell. -/
def temporary : Location := ["tmp".toList, []]

/-- Directories in which files can be made. -/
def directories : List String :=
  ["bin", "boot", "dev", "dev/shm", "etc", "home", "lib", "lib64", "media", "mnt", "opt", "root",
    "run", "sbin", "srv", "tmp", "usr", "usr/bin", "usr/lib", "usr/local", "usr/sbin",
    "usr/share", "var", "var/lib", "var/log", "var/tmp"]

/-- Directories in which they cannot, and what is said instead. -/
def fixtures : List (String × Fault) :=
  [("dev/pts", .notPermitted), ("proc", .notFound), ("proc/self", .notFound),
    ("proc/self/fd", .notFound), ("sys", .notPermitted)]

/-- Files, as far as they are the same everywhere: the first of the
accounts is that of the superuser. -/
def files : List (String × String) := [("etc/passwd", "root:x:0:0:root:/root:/bin/sh\n")]

/-- What cannot be read: a terminal, since none belongs to the process,
and programs, which are no text. -/
def bars : List (String × Fault) :=
  [("dev/tty", .noDevice), ("bin/sh", .notText), ("proc/self/exe", .notText)]

/-- Devices, the three streams of a process among them. The stream that it
reads from has nothing on it. -/
def devices : List (String × Device) :=
  [("dev/full", .full), ("dev/null", .null), ("dev/random", .null), ("dev/urandom", .null),
    ("dev/zero", .null), ("proc/self/fd/0", .null), ("proc/self/fd/1", .output),
    ("proc/self/fd/2", .errors)]

def links : List (String × Location) :=
  [("dev/fd", locate "proc/self/fd"), ("dev/stdin", locate "proc/self/fd/0"),
    ("dev/stdout", locate "proc/self/fd/1"), ("dev/stderr", locate "proc/self/fd/2"),
    ("proc/self/cwd", temporary), ("proc/self/root", [])]

def fresh : Disk where
  home := temporary
  entries := (temporary, .directory none) ::
    (directories.map fun path => (locate path, .directory none)) ++
    (fixtures.map fun (path, fault) => (locate path, .directory (some fault))) ++
    (files.map fun (path, text) => (locate path, .file (Text.Utf8.encode text.toList))) ++
    (devices.map fun (path, device) => (locate path, .device device)) ++
    (links.map fun (path, place) => (locate path, .link place)) ++
    (bars.map fun (path, fault) => (locate path, .barred fault))

end StoredProc.Disk
