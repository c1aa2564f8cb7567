import Flotilla.Text.Pattern

namespace Flotilla.Yaml
open Text Pattern

def sign : Pattern := optional (chars "+-")
def digits : Pattern := many (alt digit (char '_'))
def exponent : Pattern := optional (row [chars "eE", chars "+-", some digit])
def sixties : Pattern := some (row [char ':', optional (range '0' '5'), digit])
def gap : Pattern := some (chars " \t")
def gapOrNone : Pattern := many (chars " \t")
def twoDigits : Pattern := seq digit digit
def shortNumber : Pattern := seq digit (optional digit)
def year : Pattern := seq twoDigits twoDigits

def truthValue : Pattern :=
  words ["yes", "Yes", "YES", "no", "No", "NO", "true", "True", "TRUE", "false", "False", "FALSE",
    "on", "On", "ON", "off", "Off", "OFF"]

def nullValue : Pattern := words ["", "~", "null", "Null", "NULL"]

def mergeKey : Pattern := word "<<"

def valueKey : Pattern := word "="

def integer : Pattern :=
  oneOf
    [row [sign, word "0b", some (chars "01_")],
     row [sign, char '0', some (alt (range '0' '7') (char '_'))],
     row [sign, alt (char '0') (seq (range '1' '9') digits)],
     row [sign, word "0x", some (oneOf [digit, range 'a' 'f', range 'A' 'F', char '_'])],
     row [sign, range '1' '9', digits, sixties]]

def double : Pattern :=
  oneOf
    [row [sign, digit, digits, char '.', digits, exponent],
     row [char '.', digit, digits, exponent],
     row [sign, digit, digits, sixties, char '.', digits],
     row [sign, char '.', words ["inf", "Inf", "INF"]],
     row [char '.', words ["nan", "NaN", "NAN"]]]

def zone : Pattern :=
  alt (char 'Z') (row [chars "+-", shortNumber, optional (row [char ':', twoDigits])])

def timestamp : Pattern :=
  oneOf
    [row [year, char '-', twoDigits, char '-', twoDigits],
     row [year, char '-', shortNumber, char '-', shortNumber, alt (chars "Tt") gap, shortNumber,
       char ':', twoDigits, char ':', twoDigits, optional (seq (char '.') (many digit)),
       optional (seq gapOrNone zone)]]

/-- What a plain text is read as, if it is not read as a text. -/
inductive Kind
  | truthValue
  | null
  | merge
  | value
  | integer
  | double
  | timestamp
  deriving DecidableEq, Repr

def kinds : List (Kind × Pattern) :=
  [(.truthValue, truthValue), (.null, nullValue), (.merge, mergeKey), (.value, valueKey),
   (.integer, integer), (.double, double), (.timestamp, timestamp)]

def kind? (cs : List Char) : Option Kind :=
  (kinds.find? fun k => k.2.matchesAll cs).map (·.1)

end Flotilla.Yaml
