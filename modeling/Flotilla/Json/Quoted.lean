import Flotilla.Text.Literal

namespace Flotilla.Json

def quote : Char := '"'

def units (c : Char) : List Nat :=
  let n := c.toNat
  if n < 0x10000 then [n] else [0xD800 + (n - 0x10000) / 0x400, 0xDC00 + (n - 0x10000) % 0x400]

def escapeUnit (u : Nat) : List Char := '\\' :: 'u' :: Text.hexDigits 4 u

def shortEscape? (c : Char) : Option Char :=
  if c == '"' then some '"'
  else if c == '\\' then some '\\'
  else if c == '\n' then some 'n'
  else if c == '\r' then some 'r'
  else if c == '\t' then some 't'
  else if c.toNat == 12 then some 'f'
  else if c.toNat == 8 then some 'b'
  else none

def isPlain (c : Char) : Bool := 32 ≤ c.toNat && c.toNat ≤ 126

def encodeChar (c : Char) : List Char :=
  match shortEscape? c with
  | some e => ['\\', e]
  | none => if isPlain c then [c] else (units c).flatMap escapeUnit

def encode (s : String) : List Char := quote :: (s.toList.flatMap encodeChar ++ [quote])

def hexValue? (c : Char) : Option Nat :=
  let n := c.toNat
  if 48 ≤ n && n ≤ 57 then some (n - 48)
  else if 97 ≤ n && n ≤ 102 then some (n - 87)
  else if 65 ≤ n && n ≤ 70 then some (n - 55)
  else none

def unit? (a b c d : Char) : Option Nat := do
  return (((← hexValue? a) * 16 + (← hexValue? b)) * 16 + (← hexValue? c)) * 16 + (← hexValue? d)

def shortMeaning? (e : Char) : Option Char :=
  if e == '"' || e == '\\' || e == '/' then some e
  else if e == 'n' then some '\n'
  else if e == 'r' then some '\r'
  else if e == 't' then some '\t'
  else if e == 'f' then some (Char.ofNat 12)
  else if e == 'b' then some (Char.ofNat 8)
  else none

def decodeUnits : List Char → Option (List Nat × List Char)
  | [] => none
  | '\\' :: e :: r =>
    if e == 'u' then
      match r with
      | a :: b :: c :: d :: r => do
        let u ← unit? a b c d
        (decodeUnits r).map fun (us,rest) => (u :: us, rest)
      | _ => none
    else do
      let c ← shortMeaning? e
      (decodeUnits r).map fun (us,rest) => (c.toNat :: us, rest)
  | c :: r =>
    if c == quote then some ([], r)
    else if c == '\\' || c.toNat < 32 then none
    else (decodeUnits r).map fun (us,rest) => (c.toNat :: us, rest)

def isHigh (u : Nat) : Bool := 0xD800 ≤ u && u < 0xDC00
def isLow (u : Nat) : Bool := 0xDC00 ≤ u && u < 0xE000

def joinUnits : List Nat → Option (List Char)
  | [] => some []
  | [u] => if isHigh u || isLow u then none else some [Char.ofNat u]
  | u :: v :: r =>
    if isHigh u && isLow v then
      (joinUnits r).map (Char.ofNat (0x10000 + (u - 0xD800) * 0x400 + (v - 0xDC00)) :: ·)
    else if isHigh u || isLow u then none
    else (joinUnits (v :: r)).map (Char.ofNat u :: ·)

def decode (cs : List Char) : Option (String × List Char) := do
  let (us,rest) ← decodeUnits cs
  return (String.ofList (← joinUnits us), rest)

end Flotilla.Json
