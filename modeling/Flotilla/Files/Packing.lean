import Flotilla.Files.Disk

namespace Flotilla.Files

structure Packing where
  members : List Member
  outcome : Except FileFault Unit

namespace Packing

def whole (members : List Member) : Packing := ⟨members, .ok ()⟩

def broken (why : FileFault) : Packing := ⟨[], .error why⟩

def andThen (x y : Packing) : Packing :=
  match x.outcome with
  | .ok () => ⟨x.members ++ y.members, y.outcome⟩
  | .error _ => x

def all (xs : List Packing) : Packing := xs.foldr andThen (whole [])

def entry (x : Packing) : Entry :=
  match x.outcome with
  | .ok () => .archive x.members
  | .error _ => .torn x.members

end Packing

namespace Entry

/-- Leaves out what lies at the location `skip`. Nothing can be packed whose path is too long. -/
def reach (skip location : List String) (path : String) (x : Packing) : Packing :=
  if location = skip then .whole []
  else if path.utf8ByteSize ≥ Disk.pathLimit then .broken (.nameTooLong path)
  else x

mutual

/-- An entry and all below it, each directory before what it holds and the entries of a directory by
name. Files lose what they are but for their text. -/
def pack (skip location : List String) (path name : String) : Entry → Packing
  | file text => reach skip location path (.whole [⟨name, false, some text⟩])
  | closed => reach skip location path (.broken (.notPermitted path))
  | archive _ => reach skip location path (.whole [⟨name, false, none⟩])
  | torn _ => reach skip location path (.whole [⟨name, false, none⟩])
  | directory es => reach skip location path ((Packing.whole [⟨name, true, none⟩]).andThen
      (.all ((sortByName (packs skip location path name es)).map (·.2))))

def packs (skip location : List String) (path name : String) :
    List (String × Entry) → List (String × Packing)
  | [] => []
  | (n, e) :: r =>
    (n, pack skip (location ++ [n]) (path ++ "/" ++ n) (name ++ "/" ++ n) e) ::
      packs skip location path name r

end

end Entry

def Disk.pack (d : Disk) (archive : List String) (path name : String) : Packing :=
  match d.locate path with
  | .error why => .broken (why.fault path)
  | .ok location => match d.root.at? location with
    | some e => e.pack archive location path name
    | none => .broken (.missing path)

end Flotilla.Files
