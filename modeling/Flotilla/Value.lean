import Flotilla.Number.Basic
import Flotilla.Number.Integer
import Flotilla.Text.Blank

/-! Values of unknown kind, as settings and documents hold them. `shown` writes a value into a
text; `literal` writes it so that its kind can be seen. -/
namespace Flotilla

inductive Value
  | null
  | bool (b : Bool)
  | num (n : Number)
  | text (s : String)
  | list (vs : List Value)
  | map (fields : List (String × Value))
  deriving Repr

namespace Value

instance : Inhabited Value := ⟨null⟩

mutual

def decideEq (v w : Value) : Decidable (v = w) :=
  match v, w with
  | null, null => isTrue rfl
  | bool a, bool b => decidable_of_iff (a = b) (by simp)
  | num a, num b => decidable_of_iff (a = b) (by simp)
  | text a, text b => decidable_of_iff (a = b) (by simp)
  | list a, list b => have := decideItemsEq a b; decidable_of_iff (a = b) (by simp)
  | map a, map b => have := decideFieldsEq a b; decidable_of_iff (a = b) (by simp)
  | null, bool _ | null, num _ | null, text _ | null, list _ | null, map _ => isFalse nofun
  | bool _, null | bool _, num _ | bool _, text _ | bool _, list _ | bool _, map _ => isFalse nofun
  | num _, null | num _, bool _ | num _, text _ | num _, list _ | num _, map _ => isFalse nofun
  | text _, null | text _, bool _ | text _, num _ | text _, list _ | text _, map _ => isFalse nofun
  | list _, null | list _, bool _ | list _, num _ | list _, text _ | list _, map _ => isFalse nofun
  | map _, null | map _, bool _ | map _, num _ | map _, text _ | map _, list _ => isFalse nofun

def decideItemsEq (vs ws : List Value) : Decidable (vs = ws) :=
  match vs, ws with
  | [], [] => isTrue rfl
  | v :: r, w :: r' =>
    have := decideEq v w
    have := decideItemsEq r r'
    decidable_of_iff (v = w ∧ r = r') (by simp)
  | [], _ :: _ | _ :: _, [] => isFalse nofun

def decideFieldsEq (fs gs : List (String × Value)) : Decidable (fs = gs) :=
  match fs, gs with
  | [], [] => isTrue rfl
  | (k, v) :: r, (j, w) :: r' =>
    have := decideEq v w
    have := decideFieldsEq r r'
    decidable_of_iff (k = j ∧ v = w ∧ r = r') (by simp [and_assoc])
  | [], _ :: _ | _ :: _, [] => isFalse nofun

end

instance : DecidableEq Value := decideEq

mutual

def literal : Value → String
  | null => "None"
  | bool b => if b then "True" else "False"
  | num n => n.text
  | text s => Text.literal s
  | list vs => "[" ++ Text.joinWith ", " (literals vs) ++ "]"
  | map fs => "\x7b" ++ Text.joinWith ", " (fieldLiterals fs) ++ "\x7d"

def literals : List Value → List String
  | [] => []
  | v :: r => v.literal :: literals r

def fieldLiterals : List (String × Value) → List String
  | [] => []
  | (k, v) :: r => (Text.literal k ++ ": " ++ v.literal) :: fieldLiterals r

end

def shown : Value → String
  | text s => s
  | v => v.literal

mutual

def isWritable : Value → Bool
  | num (.int i) => Number.fits i
  | list vs => areWritable vs
  | map fs => fieldsAreWritable fs
  | _ => true

def areWritable : List Value → Bool
  | [] => true
  | v :: r => v.isWritable && areWritable r

def fieldsAreWritable : List (String × Value) → Bool
  | [] => true
  | (_, v) :: r => v.isWritable && fieldsAreWritable r

end

def kindName : Value → String
  | null => "NoneType"
  | bool _ => "bool"
  | num (.int _) => "int"
  | num (.real _) => "float"
  | text _ => "str"
  | list _ => "list"
  | map _ => "dict"

/-- Nothing, zero, and whatever is empty count as absent. -/
def isTruthy : Value → Bool
  | null => false
  | bool b => b
  | num n => !n.isZero
  | text s => !s.isEmpty
  | list vs => !vs.isEmpty
  | map fs => !fs.isEmpty

def given? : Value → Option Value
  | null => none
  | v => some v

def field? (v : Value) (name : String) : Option Value :=
  match v with
  | map fs => fs.lookup name
  | _ => none

mutual

def mapText (f : String → String) : Value → Value
  | text s => text (f s)
  | list vs => list (mapItems f vs)
  | map fs => map (mapFields f fs)
  | v => v

def mapItems (f : String → String) : List Value → List Value
  | [] => []
  | v :: r => mapText f v :: mapItems f r

def mapFields (f : String → String) : List (String × Value) → List (String × Value)
  | [] => []
  | (k, v) :: r => (k, mapText f v) :: mapFields f r

end

/-- The number a value counts as; truth values count as one and zero. -/
def number? : Value → Option Number
  | bool b => some (.int (if b then 1 else 0))
  | num n => some n
  | _ => none

def equalsInt (v : Value) (i : Int) : Bool :=
  match v.number? with
  | some n => n.equals (.int i)
  | none => false

inductive NotInteger
  | kind (name : String)
  | unreadable (why : Number.Unreadable)
  | infinite
  | undefined
  deriving DecidableEq, Repr

def NotInteger.message : NotInteger → String
  | .kind name => "int() argument must be a string, a bytes-like object or a real number, not " ++
      s!"'{name}'"
  | .unreadable why => why.message
  | .infinite => "cannot convert float infinity to integer"
  | .undefined => "cannot convert float NaN to integer"

/-- Reads a value as an integer: doubles lose their fraction, texts are read as written integers. -/
def toInt : Value → Except NotInteger Int
  | bool b => .ok (if b then 1 else 0)
  | num (.int i) => .ok i
  | num (.real x) => match x.truncate? with
    | some i => .ok i
    | none => .error (if x = .nan then .undefined else .infinite)
  | text s => match Number.read s with
    | .ok i => .ok i
    | .error why => .error (.unreadable why)
  | v => .error (.kind v.kindName)

end Value
end Flotilla
