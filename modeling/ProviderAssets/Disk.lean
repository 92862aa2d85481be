import ProviderAssets.Storage

/-!
# Disks

A disk holds files and directories by their locations: the names on the way from the working
directory. Files are kept in the order in which they were made. `Disk.storage` is the storage that
reads and changes a disk.
-/

namespace ProviderAssets

/-- What there is at a location. -/
inductive DiskEntry where
  | file (bytes : List UInt8)
  | directory
  deriving DecidableEq

/-- The names on the way to a file or a directory. -/
abbrev Location := List String

/-- Files and directories by their locations. The working directory is always there. -/
structure Disk where
  /-- What there is, with its location. -/
  entries : List (Location × DiskEntry) := []
  deriving DecidableEq

namespace Disk

/-- What there is at a location. -/
def at? (d : Disk) (l : Location) : Option DiskEntry :=
  if l.isEmpty then some .directory else d.entries.lookup l

/-- The disk with an entry at a location, in place of what was there. -/
def put (d : Disk) (l : Location) (e : DiskEntry) : Disk :=
  if d.entries.any (·.1 = l) then
    ⟨d.entries.map fun (k, old) => (k, if k = l then e else old)⟩
  else ⟨d.entries ++ [(l, e)]⟩

/-- The names in a path, in order. An empty name comes after a slash at the end. -/
def names (p : Path) : List String := go [] p.text.toList
where
  /-- The names in `cs`, the first one of which begins with `name`, which is held in reverse. -/
  go (name : List Char) : List Char → List String
    | [] => [String.ofList name.reverse]
    | c :: cs =>
      if c = '/' then String.ofList name.reverse :: go [] cs else go (c :: name) cs

/-- Whether something is a directory, and what is wrong if not. -/
def needDirectory : Option DiskEntry → Except FileFault Unit
  | some .directory => pure ()
  | some (.file _) => throw .notDirectory
  | none => throw .notFound

/-- Goes on from a location by the names of a path. All but the last one must lead to
directories. -/
def walk (d : Disk) (l : Location) : List String → Except FileFault Location
  | [] => pure l
  | name :: rest => do
    needDirectory (d.at? l)
    if name.utf8ByteSize > 255 then throw .nameTooLong
    if name.isEmpty || name = "." then d.walk l rest
    else if name = ".." then d.walk l.dropLast rest
    else d.walk (l ++ [name]) rest

/-- The location of a path. -/
def locate (d : Disk) (p : Path) : Except FileFault Location :=
  if p.text.isEmpty then throw .notFound
  else if p.text.toList.contains '\x00' then throw .invalidName
  else d.walk [] (names p)

/-- Whether a path can only lead to a directory. -/
def namesDirectory (p : Path) : Bool :=
  match (names p).getLast? with
  | some name => name.isEmpty || name = "." || name = ".."
  | none => true

/-- The bytes of a file. -/
def read (d : Disk) (p : Path) : Except FileFault (List UInt8) := do
  match d.at? (← d.locate p) with
  | some (.file bytes) => pure bytes
  | some .directory => throw .isDirectory
  | none => throw .notFound

/-- Makes a directory and those above it, by the names that are left to go. -/
def makeDirsFrom (d : Disk) (l : Location) : List String → Except FileFault Disk
  | [] => pure d
  | name :: rest =>
    if name.utf8ByteSize > 255 then throw .nameTooLong
    else if name.isEmpty || name = "." then d.makeDirsFrom l rest
    else if name = ".." then d.makeDirsFrom l.dropLast rest
    else
      let l := l ++ [name]
      match d.at? l with
      | some .directory => d.makeDirsFrom l rest
      | some (.file _) => throw (if rest.isEmpty then .alreadyExists else .notDirectory)
      | none => (d.put l .directory).makeDirsFrom l rest

/-- Makes a directory and those above it. -/
def makeDirs (d : Disk) (p : Path) : Except FileFault Disk :=
  if p.text.toList.contains '\x00' then throw .invalidName else d.makeDirsFrom [] (names p)

/-- Writes bytes to a file. -/
def write (d : Disk) (p : Path) (bytes : List UInt8) : Except FileFault Disk := do
  let l ← d.locate p
  match d.at? l with
  | some .directory => throw .isDirectory
  | some (.file _) =>
    if namesDirectory p then throw .notDirectory else pure (d.put l (.file bytes))
  | none =>
    needDirectory (d.at? l.dropLast)
    if namesDirectory p then throw .isDirectory else pure (d.put l (.file bytes))

/-- Changes the disk, unless that fails. -/
def change (f : Disk → Except FileFault Disk) : StateM Disk (Except FileFault Unit) := fun d =>
  match f d with
  | .ok d => (.ok (), d)
  | .error fault => (.error fault, d)

/-- The storage that reads and changes a disk. -/
def storage : Storage (StateM Disk) where
  read p := fun d => (d.read p, d)
  makeDirs p := change (·.makeDirs p)
  write p s := change (·.write p s.toUTF8.toList)

end Disk

end ProviderAssets
