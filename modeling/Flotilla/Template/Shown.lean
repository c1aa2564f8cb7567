import Flotilla.Template.Directive

/-! Values under a directive. A number is laid out as sign, marker, digits and the rest, and only
the digits are grouped; zeros that fill the inside count as digits, so they are grouped too. -/
namespace Flotilla.Template

def paddings (align : Char) (n : Nat) : Nat × Nat × Nat :=
  if align == '<' then (0, 0, n)
  else if align == '^' then (n / 2, 0, n - n / 2)
  else if align == '=' then (0, n, 0)
  else (n, 0, 0)

/-- Groups digits from the right, last digit first, with zeros added until `least` characters
are there. The first argument counts down the room left in the present group. -/
def groupFrom (size : Nat) (separator : Char) : Nat → Nat → List Char → List Char
  | _, 0, [] => []
  | 0, least, [] =>
    separator :: (if least ≤ 1 then ['0'] else '0' :: groupFrom size separator (size - 1) (least - 2) [])
  | room + 1, least + 1, [] => '0' :: groupFrom size separator room least []
  | 0, least, c :: r => separator :: c :: groupFrom size separator (size - 1) (least - 2) r
  | room + 1, least, c :: r => c :: groupFrom size separator room (least - 1) r
termination_by _ least digits => least + digits.length

def grouped (size : Nat) (separator : Option Char) (least : Nat) (digits : List Char) : List Char :=
  match separator with
  | none => List.replicate (least - digits.length) '0' ++ digits
  | some s => (groupFrom size s size least digits.reverse).reverse

structure Numeral where
  marker : List Char
  digits : List Char
  rest : List Char
  deriving DecidableEq, Repr

def Numeral.lay (n : Numeral) (d : Directive) (groupSize : Nat) : List Char :=
  let sign := match d.sign with
    | some '+' => ['+']
    | some ' ' => [' ']
    | _ => []
  let around := sign.length + n.marker.length + n.rest.length
  let width := d.width.getD 0
  let least := if d.fill == '0' && d.align == '=' then width - around else 0
  let digits := if n.digits.isEmpty then [] else grouped groupSize d.grouping least n.digits
  let (left,inner,right) := paddings d.align (width - (around + digits.length))
  List.replicate left d.fill ++ sign ++ n.marker ++ List.replicate inner d.fill ++ digits ++
    n.rest ++ List.replicate right d.fill

def upperAll (cs : List Char) : List Char := cs.map Char.toUpper

/-- Digits of `n * 10 ^ places`, the last `places` of them set apart. -/
def fixedDigits (n places : Nat) : List Char × List Char :=
  ((toString n).toList, List.replicate places '0')

def pointed (alternate : Bool) (fraction : List Char) : List Char :=
  if fraction.isEmpty && !alternate then [] else '.' :: fraction

def exponentText (e : Nat) : List Char :=
  'e' :: '+' :: (if e < 10 then '0' :: (toString e).toList else (toString e).toList)

/-- The leading `count` digits of `n`, a half rounded to the even neighbour, and the power of ten
of the first of them. -/
def leadingDigits (n count : Nat) : List Char × Nat :=
  let digits := (toString n).toList
  let e := digits.length - 1
  if digits.length ≤ count then (digits ++ List.replicate (count - digits.length) '0', e) else
    let unit := Nat.pow 10 (digits.length - count)
    let q := n / unit
    let r := n % unit
    let q := if 2 * r < unit then q else if unit < 2 * r then q + 1 else q + q % 2
    let rounded := (toString q).toList
    if rounded.length > count then (rounded.take count, e + 1) else (rounded, e)

def dropZeros (cs : List Char) : List Char := (cs.reverse.dropWhile (· == '0')).reverse

def scientific (alternate : Bool) (digits : List Char) (e : Nat) : Numeral :=
  ⟨[], digits.take 1, pointed alternate (digits.drop 1) ++ exponentText e⟩

/-- Fixed notation while the exponent is below the number of digits, scientific after that; zeros
at the end are dropped unless the alternate form is asked for. -/
def general (alternate : Bool) (n precision : Nat) : Numeral :=
  let count := max precision 1
  let (digits,e) := leadingDigits n count
  if e < count then
    let fraction := digits.drop (e + 1)
    let fraction := if alternate then fraction else dropZeros fraction
    ⟨[], digits.take (e + 1), pointed alternate fraction⟩
  else
    let digits := if alternate then digits else digits.take 1 ++ dropZeros (digits.drop 1)
    scientific alternate digits e

def pointCodes : List Char := ['e', 'E', 'f', 'F', 'g', 'G', '%']

def pointNumeral (d : Directive) (n : Nat) : Numeral :=
  let precision := d.precision.getD 6
  let fixed (n : Nat) (tail : List Char) : Numeral :=
    let (whole,fraction) := fixedDigits n precision
    ⟨[], whole, pointed d.alternate fraction ++ tail⟩
  let exponential :=
    -- one digit more than the greatest precision is more than can be counted
    let places := if precision = greatestPrecision then 0 else precision
    let (digits,e) := leadingDigits n (places + 1)
    scientific d.alternate digits e
  match d.code with
  | 'f' | 'F' => fixed n []
  | '%' => fixed (100 * n) ['%']
  | 'e' => exponential
  | 'E' => { exponential with rest := upperAll exponential.rest }
  | 'g' => general d.alternate n precision
  | _ => let g := general d.alternate n precision
    { g with rest := upperAll g.rest }

def baseNumeral (d : Directive) (n : Nat) : Option Numeral :=
  let marked (marker : List Char) : List Char := if d.alternate then marker else []
  match d.code with
  | 'd' => some ⟨[], Nat.toDigits 10 n, []⟩
  | 'n' => some ⟨[], Nat.toDigits 10 n, []⟩
  | 'b' => some ⟨marked ['0', 'b'], Nat.toDigits 2 n, []⟩
  | 'o' => some ⟨marked ['0', 'o'], Nat.toDigits 8 n, []⟩
  | 'x' => some ⟨marked ['0', 'x'], Nat.toDigits 16 n, []⟩
  | 'X' => some ⟨marked ['0', 'X'], upperAll (Nat.toDigits 16 n), []⟩
  | _ => none

def integerKind : String := "int"
def textKind : String := "str"

def characterNumeral (d : Directive) (n : Nat) : Except Fault Numeral :=
  if d.sign.isSome then .error (.malformed .signOfCharacter)
  else if d.alternate then .error (.malformed .alternateOfCharacter)
  else if n > 0x10FFFF then .error .notCharacter
  else .ok ⟨[], [], [Char.ofNat n]⟩

def showInteger (cs : List Char) (n : Nat) : Except Fault (List Char) :=
  if cs.isEmpty then .ok (Nat.toDigits 10 n) else do
  let d ← Directive.read integerKind 'd' '>' cs
  if pointCodes.contains d.code then
    if d.precision.any (· > greatestPrecision) then .error (.malformed .tooPrecise)
    else .ok ((pointNumeral d n).lay d 3)
  else
    let known := d.code == 'c' || (baseNumeral d n).isSome
    if !known then .error (.malformed (.code d.code integerKind))
    else if d.precision.isSome then .error (.malformed .precisionOfInteger)
    else if d.negativeZero then .error (.malformed .negativeZeroOfInteger)
    else match baseNumeral d n with
      | some m => .ok (m.lay d (if d.code == 'd' || d.code == 'n' then 3 else 4))
      | none => (characterNumeral d n).map fun m => m.lay d 3

def showText (cs text : List Char) : Except Fault (List Char) :=
  if cs.isEmpty then .ok text else do
  let d ← Directive.read textKind 's' '<' cs
  if d.code != 's' then .error (.malformed (.code d.code textKind))
  else if d.sign == some ' ' then .error (.malformed .spaceOfText)
  else if d.sign.isSome then .error (.malformed .signOfText)
  else if d.negativeZero then .error (.malformed .negativeZeroOfText)
  else if d.alternate then .error (.malformed .alternateOfText)
  else if d.align == '=' then .error (.malformed .innerPaddingOfText)
  else
    let shown := match d.precision with
      | some p => text.take p
      | none => text
    let (left,_,right) := paddings d.align (d.width.getD 0 - shown.length)
    .ok (List.replicate left d.fill ++ shown ++ List.replicate right d.fill)

end Flotilla.Template
