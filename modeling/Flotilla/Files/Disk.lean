import Flotilla.Fault
import Flotilla.Files.Path
import Flotilla.Files.Tree

/-! The files of this machine, with the directory the program works in, the homes of its users, and
the directory for temporary files. A path is followed name by name; whatever it goes through has to be
a directory. Names and paths may only be so long, and no path holds a NUL character. -/
namespace Flotilla.Files

structure Disk where
  root : Entry
  /-- The home of the user who runs the program. -/
  home : String
  working : String
  temporary : String
  /-- The homes of the users that are known by name. -/
  homes : List (String × String) := []
  deriving Repr

namespace Disk

def names (path : String) : List String := Text.splitOn '/' path

def plain (path : String) : List String := (names path).filter fun n => n != "" && n != "."

inductive Unreachable
  | missing
  | notDirectory
  | nameTooLong
  | nul
  deriving DecidableEq, Repr

def Unreachable.fault (path : String) : Unreachable → FileFault
  | missing => .missing path
  | notDirectory => .notDirectory path
  | nameTooLong => .nameTooLong path
  | nul => .nul

def nameLimit : Nat := 255

def pathLimit : Nat := 4096

def hasNul (path : String) : Bool := path.toList.contains '\x00'

def checkPath (path : String) : Except Unreachable Unit :=
  if hasNul path then .error .nul
  else if path.isEmpty then .error .missing
  else if path.utf8ByteSize ≥ pathLimit then .error .nameTooLong
  else .ok ()

def isTooLong (name : String) : Bool := name.utf8ByteSize > nameLimit

def follow (root : Entry) : List String → List String → Except Unreachable (List String)
  | here, [] => .ok here
  | here, name :: r => match root.at? here with
    | none => .error .missing
    | some e =>
      if !e.isDirectory then .error .notDirectory
      else if name == "" || name == "." then follow root here r
      else if name == ".." then follow root here.dropLast r
      else if isTooLong name then .error .nameTooLong
      else if (e.child? name).isSome then follow root (here ++ [name]) r
      else .error .missing

def start (d : Disk) (path : String) : List String :=
  if path.startsWith "/" then [] else plain d.working

def locate (d : Disk) (path : String) : Except Unreachable (List String) := do
  checkPath path
  follow d.root (d.start path) (names path)

def entry? (d : Disk) (path : String) : Option Entry :=
  match d.locate path with
  | .ok location => d.root.at? location
  | .error _ => none

def isPresent (d : Disk) (path : String) : Bool := (d.entry? path).isSome

def isDirectory (d : Disk) (path : String) : Bool := (d.entry? path).any Entry.isDirectory

def isFile (d : Disk) (path : String) : Bool := (d.entry? path).any fun e => !e.isDirectory

def isClosed (d : Disk) (path : String) : Bool := (d.entry? path).any Entry.isClosed

/-- The location of a new or present entry: its parent has to be there. Dots and trailing slashes
at the end are told apart by the flags. -/
structure Target where
  location : List String
  isDots : Bool
  hasSlash : Bool

def target (d : Disk) (path : String) : Except Unreachable Target := do
  checkPath path
  let bare := Text.dropTrailing '/' path
  let ns := names bare
  let last := ns.getLast?.getD ""
  let parent ← follow d.root (d.start path) ns.dropLast
  match d.root.at? parent with
  | some e =>
    if !e.isDirectory then throw .notDirectory
    if isTooLong last then throw .nameTooLong
    let isDots := last == "" || last == "." || last == ".."
    return ⟨if isDots then parent else parent ++ [last], isDots, bare != path⟩
  | none => throw .missing

def put (d : Disk) (location : List String) (e : Entry) : Disk :=
  { d with root := d.root.put location e }

def fileTarget (d : Disk) (path : String) : Except FileFault (List String) :=
  match d.target path with
  | .error why => .error (why.fault path)
  | .ok t =>
    if t.isDots || t.hasSlash then .error (.isDirectory path)
    else if (d.root.at? t.location).any Entry.isDirectory then .error (.isDirectory path)
    else if (d.root.at? t.location).any Entry.isClosed then .error (.notPermitted path)
    else .ok t.location

def write (d : Disk) (path : String) (e : Entry) : Except FileFault Disk :=
  (d.fileTarget path).map fun location => d.put location e

def makeDirectory (d : Disk) (path : String) : Except FileFault Disk :=
  match d.target path with
  | .error why => .error (why.fault path)
  | .ok t =>
    if t.isDots || (d.root.at? t.location).isSome then .error (.present path)
    else .ok (d.put t.location .empty)

/-- The part of a path above its last name, and that name; slashes at the end do not count. -/
def splitAbove (path : String) : String × String :=
  if baseName path == "" then
    let head := directoryName path
    (directoryName head, baseName head)
  else (directoryName path, baseName path)

def makeLast (hasMadeHead : Bool) (tail : String) (d : Disk) (path : String) :
    Except FileFault Unit × Disk :=
  if hasMadeHead && tail == "." then (.ok (), d)
  else match d.makeDirectory path with
    | .ok d => (.ok (), d)
    | .error why => if d.isDirectory path then (.ok (), d) else (.error why, d)

def isPresentFault : FileFault → Bool
  | .present _ => true
  | _ => false

/-- Makes a directory and those above it. What has been made stays if a later one cannot be made. -/
def makeDirectoriesFrom : Nat → Disk → String → Except FileFault Unit × Disk
  | 0, d, path => (.error (.missing path), d)
  | fuel + 1, d, path =>
    let (head,tail) := splitAbove path
    let needsHead := head != "" && tail != "" && !d.isPresent head
    let (above,d) := if needsHead then makeDirectoriesFrom fuel d head else (.ok (), d)
    match above with
    | .error why =>
      if isPresentFault why then makeLast needsHead tail d path else (.error why, d)
    | .ok () => makeLast needsHead tail d path

def makeDirectories (d : Disk) (path : String) : Except FileFault Unit × Disk :=
  makeDirectoriesFrom (path.length + 1) d path

def remove (d : Disk) (path : String) : Except FileFault Disk :=
  match d.locate path with
  | .ok location => .ok { d with root := d.root.remove location }
  | .error why => .error (why.fault path)

/-- Writes a file after making the directories above it. What has been made stays if it cannot be
written. -/
def writeDeep (d : Disk) (path : String) (e : Entry) : Except FileFault Unit × Disk :=
  let above := directoryName path
  let (made,d) := if above.isEmpty then (.ok (), d) else d.makeDirectories above
  match made with
  | .error why => (.error why, d)
  | .ok () => match d.write path e with
    | .ok d => (.ok (), d)
    | .error why => (.error why, d)

def absolute (d : Disk) (path : String) : String := join d.working path

def read (d : Disk) (path : String) : Except FileFault String :=
  match d.locate path with
  | .error why => .error (why.fault path)
  | .ok location => match d.root.at? location with
    | some (.file text) => .ok text
    | some .closed => .error (.notPermitted path)
    | some (.archive _) | some (.torn _) => .ok ""
    | some (.directory _) => .error (.isDirectory path)
    | none => .error (.missing path)

/-- A machine with nothing but a home directory, where the program works, and an empty one for
temporary files in it. -/
def new (home : String) : Disk :=
  let d : Disk := { root := .empty, home, working := home, temporary := join home "tmp" }
  (d.makeDirectories d.temporary).2

def pathOf : Value → Except Fault String
  | .text p => .ok p
  | v => .error (.type (.path v.kindName))

def home? (d : Disk) (user : String) : Option String :=
  if user.isEmpty then some d.home else d.homes.lookup user

def expand (d : Disk) (given : Value) : Except Fault String := do
  let p ← pathOf given
  if (homeUser? p).any hasNul then throw (.file .nul)
  return expandHome d.home? p

def checkReadable (d : Disk) (use : String) (path : Value) : Except Fault Unit :=
  match path with
  | .text p =>
    if hasNul p then .error (.file .nul)
    else if !d.isPresent p || d.isClosed p then .error (.file (.notReadable use p))
    else if d.isFile p then .ok () else .error (.file (.notFile p))
  | _ => .error (.value .pathKind)

end Disk
end Flotilla.Files
