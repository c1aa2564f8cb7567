/-! Doubles as exact dyadic numbers. A finite double is a mantissa below 2^53 times a power of two
not below 2^-1074, normalised, so that equal doubles other than the two zeros are equal terms.
Every operation is exact arithmetic followed by one rounding to nearest, ties to even. -/
namespace Flotilla.Number

inductive Binary64
  | finite (negative : Bool) (m : Nat) (e : Int)
  | infinite (negative : Bool)
  | nan
  deriving DecidableEq, Repr

namespace Binary64

def leastExponent : Int := -1074
def greatestExponent : Int := 971

def zero (negative : Bool) : Binary64 := .finite negative 0 leastExponent

/-- The quotient rounded to the nearest integer, a half to the even neighbour. -/
def roundDiv (num den : Nat) : Nat :=
  let q := num / den
  let r := num % den
  if 2 * r < den then q else if den < 2 * r then q + 1 else q + q % 2

def scaleUp (n : Nat) (e : Int) : Nat := n * Nat.pow 2 e.toNat

def round (negative : Bool) (num den : Nat) : Binary64 :=
  if num = 0 then zero negative else
  let k : Int := (Nat.log2 num : Int) - Nat.log2 den
  let below := scaleUp num (-k) < scaleUp den k
  let e := max (if below then k - 53 else k - 52) leastExponent
  let m := roundDiv (scaleUp num (-e)) (scaleUp den e)
  let (m,e) := if m = Nat.pow 2 53 then (Nat.pow 2 52, e + 1) else (m,e)
  if e > greatestExponent then .infinite negative else .finite negative m e

/-- The double nearest to `n * 10 ^ e`. Exponents far outside the range are decided at once. -/
def ofDecimal (negative : Bool) (n : Nat) (e : Int) : Binary64 :=
  let size := (Nat.log2 n : Int) / 3 + e
  if n = 0 then zero negative
  else if size > 700 then .infinite negative
  else if size < -1200 then zero negative
  else round negative (n * Nat.pow 10 e.toNat) (Nat.pow 10 (-e).toNat)

def ofInt (i : Int) : Binary64 := round (i < 0) i.natAbs 1

def signedFraction (negative : Bool) (m : Nat) (e : Int) : Int × Nat :=
  let n : Int := scaleUp m e
  (if negative then -n else n, Nat.pow 2 (-e).toNat)

def addInt (x : Binary64) (i : Int) : Binary64 :=
  match x with
  | .finite s m e =>
    let (n,d) := signedFraction s m e
    let sum := n + i * d
    if sum = 0 then zero false else round (sum < 0) sum.natAbs d
  | other => other

def truncate? : Binary64 → Option Int
  | .finite s m e =>
    let n : Int := (scaleUp m e / Nat.pow 2 (-e).toNat : Nat)
    some (if s then -n else n)
  | _ => none

def equalsInt (x : Binary64) (i : Int) : Bool :=
  match x with
  | .finite s m e => let (n,d) := signedFraction s m e; n == i * d
  | _ => false

def isZero : Binary64 → Bool
  | .finite _ m _ => m == 0
  | _ => false

def thousandfold : Binary64 → Binary64
  | .finite s m e => round s (scaleUp m e * 1000) (Nat.pow 2 (-e).toNat)
  | x => x

def ceiling? : Binary64 → Option Nat
  | .finite s m e =>
    let unit := Nat.pow 2 (-e).toNat
    some (if s then 0 else (scaleUp m e + (unit - 1)) / unit)
  | .infinite s => if s then some 0 else none
  | .nan => none

/-- Numeric equality: the two zeros are equal, and nothing equals a value that is no number. -/
def equals (x y : Binary64) : Bool :=
  match x, y with
  | .nan, _ => false
  | _, .nan => false
  | _, _ => x == y || (x.isZero && y.isZero)

/-- The power of ten at or below `num / den`, found by counting from a bound below it. -/
def decimalExponent (num den : Nat) : Int :=
  let start : Int := ((Nat.log2 num : Int) - Nat.log2 den - 1) * 3 / 10 - 2
  let rec up : Nat → Int → Int
    | 0, p => p
    | k + 1, p =>
      let next := p + 1
      if den * Nat.pow 10 next.toNat ≤ num * Nat.pow 10 (-next).toNat then up k next else p
  up 40 start

def dropZeros : Nat → Nat → Int → Nat × Int
  | 0, n, e => (n,e)
  | k + 1, n, e => if n % 10 = 0 && n != 0 then dropZeros k (n / 10) (e + 1) else (n,e)

/-- A numeral `n * 10 ^ e` of the fewest digits that rounds to the given double, the nearest of those. -/
def shortest (m : Nat) (e : Int) : Nat × Int :=
  let num := scaleUp m e
  let den := Nat.pow 2 (-e).toNat
  let p := decimalExponent num den
  let reads (n : Nat) (u : Int) : Bool := ofDecimal false n u == .finite false m e
  let rec search : Nat → Nat → Nat × Int
    | 0, _ => (m, e)
    | k + 1, digits =>
      let u := p - digits + 1
      let top := num * Nat.pow 10 (-u).toNat
      let unit := den * Nat.pow 10 u.toNat
      let q := top / unit
      let r := top % unit
      let nearest := if 2 * r < unit || (2 * r == unit && q % 2 == 0) then q else q + 1
      let other := if nearest == q then q + 1 else q
      if reads nearest u then dropZeros 20 nearest u
      else if reads other u then dropZeros 20 other u
      else search k (digits + 1)
  search 17 1

def padTwo (n : Nat) : String := if n < 10 then "0" ++ toString n else toString n

/-- Positional for magnitudes from 10^-4 up to 10^16, always with a point; otherwise scientific with
a signed exponent of two digits or more. -/
def magnitudeText (n : Nat) (e : Int) : String :=
  let digits := (toString n).toList
  let point : Int := digits.length + e
  if -4 < point && point ≤ 16 then
    if point ≤ 0 then "0." ++ String.ofList (List.replicate (-point).toNat '0' ++ digits)
    else if e ≥ 0 then String.ofList (digits ++ List.replicate e.toNat '0') ++ ".0"
    else String.ofList (digits.take point.toNat) ++ "." ++ String.ofList (digits.drop point.toNat)
  else
    let exponent := point - 1
    let mantissa := match digits with
      | d :: (c :: r) => String.ofList (d :: '.' :: c :: r)
      | ds => String.ofList ds
    mantissa ++ "e" ++ (if exponent < 0 then "-" else "+") ++ padTwo exponent.natAbs

def text : Binary64 → String
  | .finite s m e =>
    let sign := if s then "-" else ""
    if m = 0 then sign ++ "0.0" else
    let (n,x) := shortest m e
    sign ++ magnitudeText n x
  | .infinite s => if s then "-inf" else "inf"
  | .nan => "nan"

end Binary64
end Flotilla.Number
