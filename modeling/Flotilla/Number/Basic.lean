import Flotilla.Number.Binary64

namespace Flotilla

inductive Number
  | int (i : Int)
  | real (x : Number.Binary64)
  deriving DecidableEq, Repr

namespace Number

def text : Number → String
  | .int i => toString i
  | .real x => x.text

def equals : Number → Number → Bool
  | .int i, .int j => i == j
  | .int i, .real x => x.equalsInt i
  | .real x, .int i => x.equalsInt i
  | .real x, .real y => x.equals y

def isZero : Number → Bool
  | .int i => i == 0
  | .real x => x.isZero

def addInt : Number → Int → Number
  | .int i, j => .int (i + j)
  | .real x, j => .real (x.addInt j)

end Number
end Flotilla
