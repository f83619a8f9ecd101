import Std.Data.TreeMap
import LevelLink.Attempt
import LevelLink.Bytes
import LevelLink.Files.Path

/-!
# A store of files

A tree of directories and files below one directory.  A name leads to a file, and the file has its content:
a file that is open can be written after its name is gone.  A path is walked component by component, so `..`
is the directory above the one that the walk has reached, and what is walked through has to be a directory.
The operations fail as those of a Unix system do.
-/

namespace LevelLink.Files

/-! ### Content -/

/-- The content of a file: bytes, and then zeros up to its end. -/
structure Content where
  stored : ByteArray := .empty
  zeros : Nat := 0

namespace Content

/-- The content with these bytes. -/
def ofBytes (bs : Bytes) : Content := { stored := bs.toByteArray }

variable (c : Content)

def length : Nat := c.stored.size + c.zeros

/-- The first `n` bytes, or all if there are fewer. -/
def take (n : Nat) : Bytes :=
  (c.stored.extract 0 n).data.toList ++ List.replicate (min c.zeros (n - c.stored.size)) 0

/-- All bytes. -/
def all : Bytes := c.stored.data.toList ++ List.replicate c.zeros 0

/-- The content after `bs` is written at `position`.  What lies between is zeros. -/
def writeAt (position : Nat) (bs : Bytes) : Content :=
  if bs.isEmpty then
    c
  else
    let gap := List.replicate (position - c.stored.size) 0
    let before := c.stored.extract 0 position ++ gap.toByteArray
    let behind := c.stored.extract (position + bs.length) c.stored.size
    ⟨before ++ bs.toByteArray ++ behind, c.length - max c.stored.size (position + bs.length)⟩

@[simp] theorem all_ofBytes (bs : Bytes) : (ofBytes bs).all = bs := by simp [ofBytes, all]

@[simp] theorem length_all : c.all.length = c.length := by simp [all, length]

theorem take_eq (n : Nat) : c.take n = c.all.take n := by
  simp [take, all, List.take_append, List.extract_eq_take_drop]
  omega

end Content

/-! ### The store -/

/-- What a name leads to. -/
inductive Node where
  | directory
  | file (id : Nat)
  deriving DecidableEq, Repr

/-- Where a walk stands: at a way of names from the directory of the store, or outside of the store. -/
inductive Place where
  | inside (way : List String)
  | outside
  deriving DecidableEq, Repr

/-- The directory above. -/
def Place.up : Place → Place
  | inside [] | outside => outside
  | inside way => inside way.dropLast

/-- Where a walk stands, and what is there. -/
structure Spot where
  place : Place := .inside []
  node : Node := .directory
  deriving DecidableEq, Repr

/-- Directories and files below one directory. -/
structure Store where
  /-- What the names on a way lead to. -/
  nodes : Std.TreeMap (List String) Node := ∅
  contents : Std.TreeMap Nat Content := ∅
  /-- The next file that is created. -/
  nextFile : Nat := 0
  /-- How many more bytes can be written, where that is limited. -/
  space : Option Nat := none
  /-- The number of bytes in front of a relative path when the system is asked: the path of the directory of the
  store, and a slash. -/
  lead : Nat := 0

namespace Store

variable (s : Store)

/-- The largest number of bytes in one name. -/
def maxName : Nat := 255

/-- The number of bytes that a path has to stay below. -/
def maxPath : Nat := 4096

/-- The size that a directory shows. -/
def directorySize : Nat := 4096

/-- What a name in a directory leads to.  Outside of the store there is nothing. -/
def lookup (place : Place) (name : String) : Except SystemError Spot :=
  if maxName < name.utf8ByteSize then .error .nameTooLong
  else match place with
    | .outside => .error .noEntry
    | .inside dir =>
      match s.nodes[dir ++ [name]]? with
      | some node => .ok ⟨.inside (dir ++ [name]), node⟩
      | none => .error .noEntry

/-- One step of a walk.  Only a directory has something behind it. -/
def next (spot : Spot) (c : Component) : Except SystemError Spot :=
  match spot.node, c with
  | .file _, _ => .error .notADirectory
  | .directory, .root => .ok { place := .outside }
  | .directory, .current => .ok spot
  | .directory, .parent => .ok { place := spot.place.up }
  | .directory, .normal name => s.lookup spot.place name

/-- Walks from the directory of the store. -/
def walk (components : List Component) : Except SystemError Spot := components.foldlM s.next {}

/-- The number of bytes of a path when the system is asked. -/
def pathLength (path : String) : Nat :=
  if Path.isAbsolute path then path.utf8ByteSize else s.lead + path.utf8ByteSize

/-- Refuses a path that the system cannot be asked for. -/
def checkPath (path : String) : Except IoError Unit :=
  if path.toList.contains '\x00' then .error .nulInName
  else if maxPath ≤ s.pathLength path then .error (.system .nameTooLong)
  else .ok ()

/-- What a path leads to.  Behind a slash or a `.` at its end there has to be a directory. -/
def spot (path : String) : Except IoError Spot := do
  s.checkPath path
  let last := if Path.ending path = .name then [] else [.current]
  (s.walk (Path.components path ++ last)).mapError .system

/-- The node that a path leads to. -/
def find (path : String) : Except IoError Node := Spot.node <$> s.spot path

def content (id : Nat) : Content := s.contents.getD id {}

def setContent (id : Nat) (c : Content) : Store := { s with contents := s.contents.insert id c }

/-- Writes into a file, as far as there is space. -/
def write (id position : Nat) (bs : Bytes) : Attempt SystemError Store Unit :=
  .of fun s =>
    let fit := match s.space with
      | some n => bs.take n
      | none => bs
    let written := s.setContent id ((s.content id).writeAt position fit)
    (if fit.length < bs.length then .error .noSpace else .ok (),
      { written with space := s.space.map (· - fit.length) })

/-- The size of what a path leads to. -/
def size (path : String) : Except IoError Nat := do
  match ← s.find path with
  | .directory => return directorySize
  | .file id => return (s.content id).length

/-- The content of the file that a path leads to. -/
def read (path : String) : Except IoError Bytes := do
  match ← s.find path with
  | .directory => throw (.system .isADirectory)
  | .file id => return (s.content id).all

/-- Makes the directories that are missing on a walk from the directory at `place`, with the store as far as
this went. -/
def createDirsFrom (place : Place) : List Component → Store → Except SystemError Unit × Store
  | [], s => (.ok (), s)
  | c :: rest, s =>
    match s.next { place } c, place, c with
    | .ok ⟨place, .directory⟩, _, _ => createDirsFrom place rest s
    | .ok ⟨_, .file _⟩, _, _ => (.error (if rest.isEmpty then .fileExists else .notADirectory), s)
    | .error .noEntry, .inside dir, .normal name =>
      createDirsFrom (.inside (dir ++ [name])) rest
        { s with nodes := s.nodes.insert (dir ++ [name]) .directory }
    | .error e, _, _ => (.error e, s)

/-- Makes the directories that are missing on a path. -/
def createDirs (path : String) : Except IoError Unit × Store :=
  match s.checkPath path with
  | .error e => (.error e, s)
  | .ok () =>
    let (r, s) := createDirsFrom (.inside []) (Path.components path) s
    (r.mapError .system, s)

/-- Where the file of a path can be created, and the file that is there. -/
def findForCreate (path : String) : Except IoError (List String × Option Nat) := do
  s.checkPath path
  let components := Path.components path
  let directory (components : List Component) : Except IoError Place :=
    (Spot.place <$> s.walk (components ++ [.current])).mapError .system
  match components.getLast?, Path.ending path with
  | some (.normal name), .name =>
    let place ← directory components.dropLast
    match s.lookup place name, place with
    | .ok ⟨.inside way, .file id⟩, _ => return (way, some id)
    | .ok _, _ => throw (.system .isADirectory)
    | .error .noEntry, .inside dir => return (dir ++ [name], none)
    | .error e, _ => throw (.system e)
  | some (.normal _), .slash =>
    let _ ← directory components.dropLast
    throw (.system .isADirectory)
  | _, _ =>
    let _ ← directory components
    throw (.system .isADirectory)

/-- Makes the file of a path, or empties the one that is there. -/
def create (path : String) : Except IoError (Nat × Store) := do
  match ← s.findForCreate path with
  | (_, some id) => return (id, s.setContent id {})
  | (way, none) =>
    let made := { s with nodes := s.nodes.insert way (.file s.nextFile)
                         nextFile := s.nextFile + 1 }
    return (s.nextFile, made.setContent s.nextFile {})

/-- The store without the name of a file. -/
def remove (path : String) : Store :=
  match s.spot path with
  | .ok ⟨.inside way, .file _⟩ => { s with nodes := s.nodes.erase way }
  | _ => s

/-- The store with `c` as the content of the file of a path, whose directories are made. -/
def put (path : String) (c : Content) : Except IoError Store := do
  let (r, s) := s.createDirs (Path.parent path)
  r
  let (id, s) ← s.create path
  return s.setContent id c

/-- All ways and what they lead to, in order. -/
def toList : List (List String × Node) := s.nodes.toList

end Store
end LevelLink.Files
