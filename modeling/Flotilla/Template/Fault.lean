import Flotilla.Text.Literal

namespace Flotilla.Template

inductive Malformed
  | loneOpen
  | loneClose
  | openInName
  | unclosedField
  | unclosedSpec
  | missingConversion
  | afterConversion
  | conversion (c : Char)
  | tooNested
  | indexTooLong
  | manualToAutomatic
  | automaticToManual
  | afterItem
  | unclosedItem
  | emptyMember
  | commaAndUnderscore
  | missingPrecision
  | tooPrecise
  | directive (text kind : String)
  | grouping (separator code : Char)
  | code (c : Char) (kind : String)
  | precisionOfInteger
  | negativeZeroOfInteger
  | signOfCharacter
  | alternateOfCharacter
  | spaceOfText
  | signOfText
  | negativeZeroOfText
  | alternateOfText
  | innerPaddingOfText
  deriving DecidableEq, Repr

/-- A code is shown as itself if it can be seen, otherwise by its code point. -/
def shownCode (limit : Nat) (c : Char) : String :=
  if 32 < c.toNat && c.toNat < limit then String.singleton c
  else "\\x" ++ String.ofList (Nat.toDigits 16 c.toNat)

def Malformed.message : Malformed → String
  | .loneOpen => "Single '\x7b' encountered in format string"
  | .loneClose => "Single '\x7d' encountered in format string"
  | .openInName => "unexpected '\x7b' in field name"
  | .unclosedField => "expected '\x7d' before end of string"
  | .unclosedSpec => "unmatched '\x7b' in format spec"
  | .missingConversion => "end of string while looking for conversion specifier"
  | .afterConversion => "expected ':' after conversion specifier"
  | .conversion c => "Unknown conversion specifier " ++ shownCode 127 c
  | .tooNested => "Max string recursion exceeded"
  | .indexTooLong => "Too many decimal digits in format string"
  | .manualToAutomatic =>
    "cannot switch from manual field specification to automatic field numbering"
  | .automaticToManual =>
    "cannot switch from automatic field numbering to manual field specification"
  | .afterItem => "Only '.' or '[' may follow ']' in format field specifier"
  | .unclosedItem => "Missing ']' in format string"
  | .emptyMember => "Empty attribute in format string"
  | .commaAndUnderscore => "Cannot specify both ',' and '_'."
  | .missingPrecision => "Format specifier missing precision"
  | .tooPrecise => "precision too big"
  | .directive text kind => s!"Invalid format specifier '{text}' for object of type '{kind}'"
  | .grouping separator c =>
    "Cannot specify '" ++ String.singleton separator ++ "' with '" ++ shownCode 128 c ++ "'."
  | .code c kind => "Unknown format code '" ++ shownCode 128 c ++ s!"' for object of type '{kind}'"
  | .precisionOfInteger => "Precision not allowed in integer format specifier"
  | .negativeZeroOfInteger =>
    "Negative zero coercion (z) not allowed in integer format specifier"
  | .signOfCharacter => "Sign not allowed with integer format specifier 'c'"
  | .alternateOfCharacter => "Alternate form (#) not allowed with integer format specifier 'c'"
  | .spaceOfText => "Space not allowed in string format specifier"
  | .signOfText => "Sign not allowed in string format specifier"
  | .negativeZeroOfText => "Negative zero coercion (z) not allowed in string format specifier"
  | .alternateOfText => "Alternate form (#) not allowed in string format specifier"
  | .innerPaddingOfText => "'=' alignment not allowed in string format specifier"

/-- Faults by the place they come from: the template's text, the argument it asks for, a member
of that argument, or a value that a directive cannot show. Objects may raise what they like. -/
inductive Fault
  | malformed (why : Malformed)
  | argumentIndex (n : Nat)
  | itemIndex
  | argumentName (name : String)
  | noMember (owner name : String)
  | noItems (owner : String)
  | itemByName
  | noDirectives (kind : String)
  | notCharacter
  | raised (kind message : String)
  deriving DecidableEq, Repr

def Fault.message : Fault → String
  | .malformed why => why.message
  | .argumentIndex n => s!"Replacement index {n} out of range for positional args tuple"
  | .itemIndex => "string index out of range"
  | .argumentName name => Text.literal name
  | .noMember owner name => s!"{owner} has no attribute '{name}'"
  | .noItems owner => s!"{owner} is not subscriptable"
  | .itemByName => "string indices must be integers, not 'str'"
  | .noDirectives kind => s!"unsupported format string passed to {kind}.__format__"
  | .notCharacter => "%c arg not in range(0x110000)"
  | .raised _ message => message

end Flotilla.Template
