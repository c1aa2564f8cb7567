import Flotilla.Template.Fault
import Flotilla.Text.Blank
import Flotilla.Value

namespace Flotilla

inductive Quantity
  | staking
  | elevatedStaking
  | networkSize
  deriving DecidableEq, Repr

def Quantity.name : Quantity → String
  | .staking => "Staking"
  | .elevatedStaking => "Elevated staking"
  | .networkSize => "Network size"

/-- Settings that describe no fleet, no scenario or no run. -/
inductive Misconfigured
  | sizeNotInteger (given : Value)
  | sizeNotPositive (size : Int)
  | hostCount (size : Int) (hosts : Nat)
  | emptyAddress
  | addressesNotDistinct (given : String)
  | noNodes
  | ordinals
  | sharedAddress
  | unknownVariant (given : Value) (known : List String)
  | notInteger (what : Quantity) (given : Value)
  | notPositive (what : Quantity) (n : Int)
  | networkTooSmall (size : Int) (instances : Nat)
  | emptyInputFolder
  | manifestSize (given : Value)
  | failurePolicy (given : Value)
  | repeatedStage (name : String)
  | dependency (stage dependency : String)
  | noSources (path : String)
  | noPackageFile (directory : String)
  | noInputs (path : String)
  | combinedVariants
  | noSuchNode (ordinal : Int) (size : Nat)
  | executor (why : String)
  deriving DecidableEq, Repr

def Misconfigured.message : Misconfigured → String
  | .sizeNotInteger given => "Fleet size must be an integer, got " ++ given.literal
  | .sizeNotPositive size => s!"Fleet size must be greater than 0, got {size}"
  | .hostCount size hosts => s!"Fleet size is {size} but {hosts} hosts were given"
  | .emptyAddress => "Node addresses must not be empty"
  | .addressesNotDistinct given => "Node addresses must be distinct: " ++ given
  | .noNodes => "Fleet must contain at least one node"
  | .ordinals => "Node ordinals must be contiguous from 0"
  | .sharedAddress => "Node addresses must be distinct"
  | .unknownVariant given known =>
    s!"Unknown scenario variant {given.literal}. Expected one of: " ++ Text.joinWith ", " known
  | .notInteger what given => what.name ++ " must be an integer, got " ++ given.literal
  | .notPositive what n => what.name ++ s!" must be positive, got {n}"
  | .networkTooSmall size instances =>
    s!"Network size {size} is smaller than the {instances} instances to be started"
  | .emptyInputFolder => "Input folder must not be empty"
  | .manifestSize given => "Network size must be greater than 0, got " ++ given.shown
  | .failurePolicy given => "Unknown failure policy " ++ given.literal
  | .repeatedStage name => "Duplicate stage " ++ name
  | .dependency stage wanted =>
    s!"Stage {stage} depends on {wanted}, which does not run before it"
  | .noSources path => s!"Source directory {path} does not exist"
  | .noPackageFile directory => "No Cargo.toml in " ++ directory
  | .noInputs path => s!"Inputs directory {path} does not exist"
  | .combinedVariants => "--10 and --unfair select different scenarios and cannot be combined"
  | .noSuchNode ordinal size => s!"--node {ordinal} is not an ordinal of a {size} node fleet"
  | .executor why => why

/-- Whether what was given is told in full; there may be too many digits for that. -/
def Misconfigured.isWritable : Misconfigured → Bool
  | .sizeNotInteger given | .unknownVariant given _ | .notInteger _ given => given.isWritable
  | .manifestSize given | .failurePolicy given => given.isWritable
  | .sizeNotPositive n | .notPositive _ n => Number.fits n
  | .hostCount n m | .networkTooSmall n m | .noSuchNode n m => Number.fits n && Number.fits m
  | _ => true

/-- Lifecycle steps asked for at the wrong time. -/
inductive Disorder
  | move (target current : String)
  | helpersNotIssued
  deriving DecidableEq, Repr

def Disorder.message : Disorder → String
  | .move target current => s!"Cannot move to {target} from {current}"
  | .helpersNotIssued => "Daemons may only be started once every helper has been issued"

/-- Files that cannot be used as asked. -/
inductive FileFault
  | missing (path : String)
  | present (path : String)
  | notDirectory (path : String)
  | isDirectory (path : String)
  | nameTooLong (path : String)
  | notPermitted (path : String)
  | notReadable (use path : String)
  | notFile (path : String)
  /-- No path holds a NUL character. -/
  | nul
  deriving DecidableEq, Repr

def FileFault.message : FileFault → String
  | .missing path => "[Errno 2] No such file or directory: " ++ Text.literal path
  | .present path => "[Errno 17] File exists: " ++ Text.literal path
  | .notDirectory path => "[Errno 20] Not a directory: " ++ Text.literal path
  | .isDirectory path => "[Errno 21] Is a directory: " ++ Text.literal path
  | .notPermitted path => "[Errno 13] Permission denied: " ++ Text.literal path
  | .nameTooLong path => "[Errno 36] File name too long: " ++ Text.literal path
  | .notReadable use path => s!"Unable to access the file (not readable) -- {use} -- '{path}'"
  | .notFile path => s!"Path is not to a file -- '{path}'"
  | .nul => "embedded null byte"

/-- Values that cannot be used as asked. -/
inductive ValueFault
  | unreadable (why : Number.Unreadable)
  | unwritable
  | undefinedInteger
  | template (why : Template.Malformed)
  | command
  | pathKind
  | uploadSource (remote : String)
  | noPort
  | userTwice
  | openQuote
  | openEscape
  deriving DecidableEq, Repr

def ValueFault.message : ValueFault → String
  | .unreadable why => why.message
  | .unwritable => Number.unwritable
  | .undefinedInteger => Value.NotInteger.undefined.message
  | .template why => why.message
  | .command => "command must be a string or a RemoteCommand"
  | .pathKind => "path to file must be a string"
  | .uploadSource remote => s!"upload to {remote} has neither a local path nor content"
  | .userTwice => "You supplied the user via both shorthand and kwarg! Please pick one."
  | .noPort => "not enough values to unpack (expected 2, got 1)"
  | .openQuote => "No closing quotation"
  | .openEscape => "No escaped character"

inductive TypeFault
  | integer (kind : String)
  | notIterable (kind : String)
  | addition (left right : String)
  | comparison (left right : String)
  | path (kind : String)
  | fileOrPath (kind : String)
  | unhashable (kind : String)
  | index (kind : String)
  | template (why : String)
  deriving DecidableEq, Repr

def TypeFault.message : TypeFault → String
  | .integer kind => (Value.NotInteger.kind kind).message
  | .notIterable kind => s!"'{kind}' object is not iterable"
  | .addition left right =>
    if left = "str" then s!"can only concatenate str (not \"{right}\") to str"
    else if left = "list" then s!"can only concatenate list (not \"{right}\") to list"
    else s!"unsupported operand type(s) for +: '{left}' and '{right}'"
  | .comparison left right =>
    s!"'<=' not supported between instances of '{left}' and '{right}'"
  | .path kind => s!"expected str, bytes or os.PathLike object, not {kind}"
  | .fileOrPath kind => s!"stat: path should be string, bytes, os.PathLike or integer, not {kind}"
  | .unhashable kind => s!"unhashable type: '{kind}'"
  | .index kind => s!"tuple indices must be integers or slices, not {kind}"
  | .template why => why

/-- Connection settings that cannot be read. -/
inductive SettingsFault
  | line (text : String)
  | patterns (text : String)
  | noParameter (criterion : String)
  | allMixed
  | allFirst
  deriving DecidableEq, Repr

def SettingsFault.message : SettingsFault → String
  | .line text => "Unparsable line " ++ text
  | .patterns text => "Unparsable host " ++ text
  | .noParameter criterion => s!"Missing parameter to Match '{criterion}' keyword"
  | .allMixed => "Match does not allow 'all' mixed with anything but 'canonical'"
  | .allFirst => "Match does not allow 'all' before 'canonical'"

/-- A single host that gave no result. -/
inductive RunFault
  | overtime
  | noResult
  deriving DecidableEq, Repr

def RunFault.message : RunFault → String
  | .overtime => "Remote execution has exceeded timeout"
  | .noResult => "Remote execution did not provide results"

inductive Fault
  | misconfigured (why : Misconfigured)
  | disorder (why : Disorder)
  | file (why : FileFault)
  | value (why : ValueFault)
  | type (why : TypeFault)
  | settings (why : SettingsFault)
  | run (why : RunFault)
  | unknownKey (key : String)
  | noMember (owner name : String)
  | outOfRange (why : String)
  | overflow (why : String)
  | authentication (why : String)
  | argument (why : String)
  /-- What an object raises. -/
  | raised (kind message : String)
  /-- What is waited for never comes, so nothing is told of it either. -/
  | endless
  deriving DecidableEq, Repr

namespace Fault

def message : Fault → String
  | misconfigured why => why.message
  | disorder why => why.message
  | file why => why.message
  | value why => why.message
  | type why => why.message
  | settings why => why.message
  | run why => why.message
  | unknownKey key => Text.literal key
  | noMember owner name => s!"{owner} has no attribute '{name}'"
  | outOfRange why => why
  | overflow why => why
  | authentication why => why
  | argument why => why
  | raised _ why => why
  | endless => ""

def ofMisconfigured (why : Misconfigured) : Fault :=
  if why.isWritable then misconfigured why else value .unwritable

def noMemberOf (kind name : String) : Fault := noMember s!"'{kind}' object" name

def ofNotInteger : Value.NotInteger → Fault
  | .kind name => type (.integer name)
  | .unreadable why => value (.unreadable why)
  | .infinite => overflow Value.NotInteger.infinite.message
  | .undefined => value .undefinedInteger

def ofTemplate : Template.Fault → Fault
  | .malformed why => value (.template why)
  | .argumentIndex n => outOfRange (Template.Fault.argumentIndex n).message
  | .itemIndex => outOfRange Template.Fault.itemIndex.message
  | .argumentName name => unknownKey name
  | .noMember owner name => noMember owner name
  | .noItems owner => type (.template (Template.Fault.noItems owner).message)
  | .itemByName => type (.template Template.Fault.itemByName.message)
  | .noDirectives kind => type (.template (Template.Fault.noDirectives kind).message)
  | .notCharacter => overflow Template.Fault.notCharacter.message
  | .raised kind why => raised kind why

end Fault

def Value.write (v : Value) : Except Fault String :=
  if v.isWritable then .ok v.shown else .error (.value .unwritable)

end Flotilla
