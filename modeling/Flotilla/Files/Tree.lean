namespace Flotilla.Files

/-- An entry of an archive; directories have no text. -/
structure Member where
  name : String
  isDirectory : Bool
  text : Option String
  deriving DecidableEq, Repr

inductive Entry
  | file (text : String)
  /-- A file that may be neither read nor written. -/
  | closed
  | archive (members : List Member)
  /-- An archive that was begun, up to where it broke off. -/
  | torn (members : List Member)
  | directory (entries : List (String × Entry))
  deriving Repr

namespace Entry

def empty : Entry := directory []

instance : Inhabited Entry := ⟨empty⟩

def isDirectory : Entry → Bool
  | directory _ => true
  | _ => false

def isClosed : Entry → Bool
  | closed => true
  | _ => false

def entries : Entry → List (String × Entry)
  | directory es => es
  | _ => []

def child? (e : Entry) (name : String) : Option Entry := e.entries.lookup name

/-- The entry at a location, which is a list of names from the top down. -/
def at? (e : Entry) : List String → Option Entry
  | [] => some e
  | name :: r => match e.child? name with
    | some c => c.at? r
    | none => none

def putChild (name : String) (c : Entry) : List (String × Entry) → List (String × Entry)
  | [] => [(name, c)]
  | (n, e) :: r => if n = name then (n, c) :: r else (n, e) :: putChild name c r

def put (e : Entry) (location : List String) (c : Entry) : Entry :=
  match location with
  | [] => c
  | name :: r => match r with
    | [] => directory (putChild name c e.entries)
    | _ => match e.child? name with
      | some inner => directory (putChild name (inner.put r c) e.entries)
      | none => e

def remove (e : Entry) (location : List String) : Entry :=
  match location with
  | [] => e
  | name :: r => match r with
    | [] => directory (e.entries.filter (·.1 != name))
    | _ => match e.child? name with
      | some inner => directory (putChild name (inner.remove r) e.entries)
      | none => e

def sortByName (xs : List (String × α)) : List (String × α) :=
  xs.mergeSort fun a b => decide (a.1 ≤ b.1)

mutual

def descendants (path : String) : Entry → List String
  | directory es => descendantsOf path es
  | _ => []

def descendantsOf (path : String) : List (String × Entry) → List String
  | [] => []
  | (n, e) :: r =>
    let p := if path.isEmpty then n else path ++ "/" ++ n
    (p :: descendants p e) ++ descendantsOf path r

end

end Entry
end Flotilla.Files
