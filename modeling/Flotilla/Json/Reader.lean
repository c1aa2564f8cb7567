import Flotilla.Json.Quoted
import Flotilla.Table
import Flotilla.Value

/-! Values read from JSON. A number with a point or an exponent is a double, any other an integer of
any size; doubles that are no finite numbers are written out as words. The fields of an object keep their order, and a repeated field its last value. Each level
uses up a character, so the length of the input bounds the depth. -/
namespace Flotilla.Json

def isSpace (c : Char) : Bool := c == ' ' || c == '\n' || c == '\r' || c == '\t'

def skip (cs : List Char) : List Char := cs.dropWhile isSpace

def isAsciiDigit (c : Char) : Bool := '0' ≤ c && c ≤ '9'

def ofAsciiDigits (cs : List Char) : Nat := cs.foldl (fun n c => 10 * n + (c.toNat - 48)) 0

def takeFraction : List Char → List Char × List Char
  | '.' :: r =>
    let ds := r.takeWhile isAsciiDigit
    if ds.isEmpty then ([], '.' :: r) else (ds, r.drop ds.length)
  | cs => ([], cs)

def takeSigned : List Char → Bool × List Char
  | '-' :: r => (true, r)
  | '+' :: r => (false, r)
  | cs => (false, cs)

def takeExponent (cs : List Char) : Option Int × List Char :=
  match cs with
  | c :: r =>
    if c == 'e' || c == 'E' then
      let (negative,r) := takeSigned r
      let ds := r.takeWhile isAsciiDigit
      if ds.isEmpty then (none, cs)
      else
        let n : Int := ofAsciiDigits ds
        (some (if negative then -n else n), r.drop ds.length)
    else (none, cs)
  | [] => (none, [])

def readUnsigned (negative : Bool) (cs : List Char) : Option (Number × List Char) :=
  let whole := cs.takeWhile isAsciiDigit
  if whole.isEmpty || (whole.length > 1 && whole.head? == some '0') then none else
  let (fraction,r) := takeFraction (cs.drop whole.length)
  let (exponent,r) := takeExponent r
  if fraction.isEmpty && exponent.isNone then
    let n : Int := ofAsciiDigits whole
    some (.int (if negative then -n else n), r)
  else
    let n := ofAsciiDigits (whole ++ fraction)
    some (.real (Number.Binary64.ofDecimal negative n (exponent.getD 0 - fraction.length)), r)

def readNumber : List Char → Option (Number × List Char)
  | '-' :: r => readUnsigned true r
  | cs => readUnsigned false cs

def takeWord (word : List Char) (v : Value) (cs : List Char) : Option (Value × List Char) :=
  if word.isPrefixOf cs then some (v, cs.drop word.length) else none

mutual

def readValue : Nat → List Char → Option (Value × List Char)
  | 0, _ => none
  | fuel + 1, cs =>
    match skip cs with
    | [] => none
    | '"' :: r => (decode r).map fun (s,rest) => (.text s, rest)
    | '[' :: r => match skip r with
      | ']' :: rest => some (.list [], rest)
      | r => (readItems fuel [] r).map fun (vs,rest) => (.list vs, rest)
    | '{' :: r => match skip r with
      | '}' :: rest => some (.map [], rest)
      | r => (readFields fuel [] r).map fun (fs,rest) => (.map fs, rest)
    | c :: r =>
      if c == 'n' then takeWord "null".toList .null (c :: r)
      else if c == 't' then takeWord "true".toList (.bool true) (c :: r)
      else if c == 'f' then takeWord "false".toList (.bool false) (c :: r)
      else if c == 'N' then takeWord "NaN".toList (.num (.real .nan)) (c :: r)
      else if c == 'I' then takeWord "Infinity".toList (.num (.real (.infinite false))) (c :: r)
      else if c == '-' && r.head? == some 'I' then
        takeWord "-Infinity".toList (.num (.real (.infinite true))) (c :: r)
      else (readNumber (c :: r)).map fun (n,rest) => (.num n, rest)

/-- Items up to the closing bracket; the ones read so far come in reverse. -/
def readItems : Nat → List Value → List Char → Option (List Value × List Char)
  | 0, _, _ => none
  | fuel + 1, seen, cs => do
    let (v,r) ← readValue fuel cs
    match skip r with
    | ',' :: r => readItems fuel (v :: seen) r
    | ']' :: r => some ((v :: seen).reverse, r)
    | _ => none

def readFields : Nat → List (String × Value) → List Char → Option (List (String × Value) × List Char)
  | 0, _, _ => none
  | fuel + 1, seen, cs => do
    match skip cs with
    | '"' :: r =>
      let (k,r) ← decode r
      match skip r with
      | ':' :: r =>
        let (v,r) ← readValue fuel r
        match skip r with
        | ',' :: r => readFields fuel (Table.putEntry k v seen) r
        | '}' :: r => some (Table.putEntry k v seen, r)
        | _ => none
      | _ => none
    | _ => none

end

def read (s : String) : Option Value := do
  let cs := s.toList
  let (v,rest) ← readValue (cs.length + 1) cs
  if (skip rest).isEmpty then some v else none

end Flotilla.Json
