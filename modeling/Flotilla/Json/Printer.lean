import Flotilla.Value
import Flotilla.Json.Quoted

namespace Flotilla.Json

def numberText : Number → String
  | .real .nan => "NaN"
  | .real (.infinite negative) => if negative then "-Infinity" else "Infinity"
  | n => n.text

mutual

def line : Value → List Char
  | .null => "null".toList
  | .bool b => (if b then "true" else "false").toList
  | .num n => (numberText n).toList
  | .text s => encode s
  | .list vs => '[' :: (lineItems vs ++ [']'])
  | .map fs => '{' :: (lineFields fs ++ ['}'])

def lineItems : List Value → List Char
  | [] => []
  | [v] => line v
  | v :: r => line v ++ ',' :: ' ' :: lineItems r

def lineFields : List (String × Value) → List Char
  | [] => []
  | [(k, v)] => encode k ++ ':' :: ' ' :: line v
  | (k, v) :: r => encode k ++ ':' :: ' ' :: (line v ++ ',' :: ' ' :: lineFields r)

end

def indentWidth : Nat := 2

def newline (depth : Nat) : List Char := '\n' :: List.replicate (indentWidth * depth) ' '

mutual

/-- A value whose own items stand at the given depth less one. -/
def block (depth : Nat) : Value → List Char
  | .list [] => ['[', ']']
  | .list (v :: r) => '[' :: (newline (depth + 1) ++ block (depth + 1) v ++
      blockItems (depth + 1) r ++ newline depth ++ [']'])
  | .map [] => ['{', '}']
  | .map ((k, v) :: r) => '{' :: (newline (depth + 1) ++ encode k ++ ':' :: ' ' ::
      (block (depth + 1) v ++ blockFields (depth + 1) r ++ newline depth ++ ['}']))
  | .null => line .null
  | .bool b => line (.bool b)
  | .num n => line (.num n)
  | .text s => line (.text s)

def blockItems (depth : Nat) : List Value → List Char
  | [] => []
  | v :: r => ',' :: (newline depth ++ block depth v ++ blockItems depth r)

def blockFields (depth : Nat) : List (String × Value) → List Char
  | [] => []
  | (k, v) :: r => ',' :: (newline depth ++ encode k ++ ':' :: ' ' ::
      (block depth v ++ blockFields depth r))

end

def print (v : Value) : String := String.ofList (line v)

def printBlock (v : Value) : String := String.ofList (block 0 v)

end Flotilla.Json
