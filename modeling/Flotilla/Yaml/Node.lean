import Flotilla.Value

namespace Flotilla.Yaml

inductive Scalar
  | null
  | bool (b : Bool)
  | num (n : Number)
  | text (s : String)
  deriving DecidableEq, Repr

inductive Node
  | scalar (s : Scalar)
  | list (items : List Node)
  | map (fields : List (Scalar × Node))
  deriving Repr

namespace Scalar

instance : Inhabited Scalar := ⟨null⟩

def value : Scalar → Value
  | null => .null
  | bool b => .bool b
  | num n => .num n
  | text s => .text s

/-- Only scalars can be keys. -/
def ofValue? : Value → Option Scalar
  | .null => some null
  | .bool b => some (bool b)
  | .num n => some (num n)
  | .text s => some (text s)
  | _ => none

/-- Whether two keys are one. Numbers and truth values are compared as numbers. -/
def isSameKey (k j : Scalar) : Bool :=
  match k.value.number?, j.value.number? with
  | some m, some n => m.equals n
  | _, _ => k = j

end Scalar

namespace Node

instance : Inhabited Node := ⟨scalar .null⟩

/-- Puts a field. A key that is there keeps its place and its form, and gets the new value. -/
def putField (k : Scalar) (n : Node) : List (Scalar × Node) → List (Scalar × Node)
  | [] => [(k, n)]
  | (j, m) :: r => if k.isSameKey j then (j, n) :: r else (j, m) :: putField k n r

def ofFields (fields : List (Scalar × Node)) : Node :=
  map (fields.foldl (fun fs f => putField f.1 f.2 fs) [])

mutual

def ofValue : Value → Node
  | .null => scalar .null
  | .bool b => scalar (.bool b)
  | .num n => scalar (.num n)
  | .text s => scalar (.text s)
  | .list vs => list (ofValues vs)
  | .map fs => map (ofValueFields fs)

def ofValues : List Value → List Node
  | [] => []
  | v :: r => ofValue v :: ofValues r

def ofValueFields : List (String × Value) → List (Scalar × Node)
  | [] => []
  | (k, v) :: r => (.text k, ofValue v) :: ofValueFields r

end

end Node
end Flotilla.Yaml
