import Flotilla.CommandLine.Grammar
import Flotilla.Defaults
import Flotilla.Fault
import Flotilla.Log

namespace Flotilla.CommandLine

inductive Action
  | deploy
  | start
  | stop
  | status
  | compose
  deriving DecidableEq, Repr

namespace Action

def all : List Action := [deploy, start, stop, status, compose]

def name : Action → String
  | deploy => "deploy"
  | start => "start"
  | stop => "stop"
  | status => "status"
  | compose => "compose"

end Action

inductive Setting
  | help
  | fleetSize
  | hosts
  | hostTemplate
  | tenNodes
  | unfair
  | partialDeployment
  | skipFailed
  | noReload
  | detach
  | node
  | bootstrapHost
  | staking
  | elevatedStaking
  | inputFolder
  | sourceDirectory
  | remoteDirectory
  | sshConfigFile
  | user
  | identityFile
  | output
  | report
  | jobId
  | bucket
  | cleanUp
  | logLevel
  | logFile
  deriving DecidableEq, Repr

namespace Setting

def all : List Setting :=
  [help, fleetSize, hosts, hostTemplate, tenNodes, unfair, partialDeployment, skipFailed, noReload,
   detach, node, bootstrapHost, staking, elevatedStaking, inputFolder, sourceDirectory,
   remoteDirectory, sshConfigFile, user, identityFile, output, report, jobId, bucket, cleanUp,
   logLevel, logFile]

def names : Setting → List String
  | help => ["-h", "--help"]
  | fleetSize => ["-n", "--fleet-size"]
  | hosts => ["--hosts"]
  | hostTemplate => ["--host-template"]
  | tenNodes => ["--10"]
  | unfair => ["--unfair"]
  | partialDeployment => ["--partial"]
  | skipFailed => ["--skip-failed"]
  | noReload => ["--no-reload"]
  | detach => ["--detach"]
  | node => ["--node"]
  | bootstrapHost => ["--bootstrap-host"]
  | staking => ["--staking"]
  | elevatedStaking => ["--elevated-staking"]
  | inputFolder => ["--input-folder"]
  | sourceDirectory => ["--source-dir"]
  | remoteDirectory => ["--remote-dir"]
  | sshConfigFile => ["--ssh-config-file"]
  | user => ["--user"]
  | identityFile => ["--identity-file"]
  | output => ["--output"]
  | report => ["--report"]
  | jobId => ["--job-id"]
  | bucket => ["--s3bucket"]
  | cleanUp => ["-c", "--cleanup"]
  | logLevel => ["-l", "--log-level"]
  | logFile => ["--log-file"]

def arity : Setting → Arity
  | help => .none
  | tenNodes => .none
  | unfair => .none
  | partialDeployment => .none
  | skipFailed => .none
  | noReload => .none
  | detach => .none
  | bucket => .atMostOne
  | cleanUp => .atMostOne
  | logLevel => .atMostOne
  | _ => .one

def title (s : Setting) : String := Text.joinWith "/" s.names

end Setting

def grammar : Grammar Setting := ⟨Setting.all, Setting.names, Setting.arity⟩

/-- What the command line asks for. The settings that a flag gives an argument to are values: a text
or an integer as read, nothing at all, or an empty list if the flag was given without its argument. -/
structure Options where
  action : Option Action := none
  fleetSize : Value := .num (.int Defaults.fleetSize)
  hosts : Option (List String) := none
  hostTemplate : Value := .text Defaults.hostTemplate
  tenNodes : Bool := false
  unfair : Bool := false
  partialDeployment : Bool := false
  skipFailed : Bool := false
  reloadsUnits : Bool := true
  detach : Bool := false
  node : Value := .null
  bootstrapHost : Value := .null
  staking : Value := .num (.int Defaults.staking)
  elevatedStaking : Value := .num (.int Defaults.elevatedStaking)
  inputFolder : Value := .null
  sourceDirectory : Value := .text "."
  remoteDirectory : Value := .text Defaults.remoteDirectory
  sshConfigFile : Value := .text Defaults.sshConfigFile
  user : Value := .null
  identityFile : Value := .null
  output : Value := .null
  report : Value := .null
  jobId : Value := .text "blockchat"
  bucket : Option String := none
  cleanUp : Bool := true
  logLevel : Log.Threshold := .info
  logFile : Value := .null
  deriving DecidableEq, Repr

def trueWords : List String := ["true", "1", "t", "y", "yes"]
def falseWords : List String := ["false", "0", "f", "n", "no"]

def readTruth (s : String) : Except String Bool :=
  if trueWords.contains s.toLower then .ok true
  else if falseWords.contains s.toLower then .ok false
  else .error "Boolean value (yes, no, true, false, y, n, 1, or 0) expected."

def readLevel (s : String) : Except String Log.Threshold :=
  match Log.Threshold.all.find? fun t => t.name == s.toLower with
  | some t => .ok t
  | none => .error ("Expected one of the following: " ++
      Text.joinWith ", " (Log.Threshold.all.map (·.name)) ++ ".")

def readHosts (s : String) : Except String (List String) :=
  let hosts := (Text.splitOn ',' s).map Text.trim
  if hosts.any (·.isEmpty) then
    .error s!"Invalid host list {Text.literal s}. Expected comma separated host aliases."
  else .ok hosts

def readInteger (s : String) : Except String Int :=
  match Number.read s with
  | .ok n => .ok n
  | .error _ => .error ("invalid int value: " ++ Text.literal s)

def readAction (s : String) : Except String Action :=
  match Action.all.find? fun a => a.name == s with
  | some a => .ok a
  | none => .error (s!"invalid choice: {Text.literal s} (choose from " ++
      Text.joinWith ", " (Action.all.map fun a => Text.literal a.name) ++ ")")

inductive Reading
  | options (o : Options)
  | help
  | refused (why : String)
  deriving DecidableEq, Repr

namespace Options

def textOf : Option String → Value
  | some s => .text s
  | none => .list []

def integerOf : Option String → Except String Value
  | some s => (readInteger s).map fun n => .num (.int n)
  | none => .ok (.list [])

def hostsOf : Option String → Except String (List String)
  | some s => readHosts s
  | none => .ok []

def levelOf : Option String → Except String Log.Threshold
  | some s => readLevel s
  | none => .ok .info

def set (o : Options) (given : Option String) : Setting → Except String Options
  | .help => .ok o
  | .fleetSize => do return { o with fleetSize := ← integerOf given }
  | .hosts => do return { o with hosts := some (← hostsOf given) }
  | .hostTemplate => .ok { o with hostTemplate := textOf given }
  | .tenNodes => .ok { o with tenNodes := true }
  | .unfair => .ok { o with unfair := true }
  | .partialDeployment => .ok { o with partialDeployment := true }
  | .skipFailed => .ok { o with skipFailed := true }
  | .noReload => .ok { o with reloadsUnits := false }
  | .detach => .ok { o with detach := true }
  | .node => do return { o with node := ← integerOf given }
  | .bootstrapHost => .ok { o with bootstrapHost := textOf given }
  | .staking => do return { o with staking := ← integerOf given }
  | .elevatedStaking => do return { o with elevatedStaking := ← integerOf given }
  | .inputFolder => .ok { o with inputFolder := textOf given }
  | .sourceDirectory => .ok { o with sourceDirectory := textOf given }
  | .remoteDirectory => .ok { o with remoteDirectory := textOf given }
  | .sshConfigFile => .ok { o with sshConfigFile := textOf given }
  | .user => .ok { o with user := textOf given }
  | .identityFile => .ok { o with identityFile := textOf given }
  | .output => .ok { o with output := textOf given }
  | .report => .ok { o with report := textOf given }
  | .jobId => .ok { o with jobId := textOf given }
  | .bucket => .ok { o with bucket := given }
  | .cleanUp => do return { o with cleanUp := ← readTruth (given.getD "Y") }
  | .logLevel => do return { o with logLevel := ← levelOf given }
  | .logFile => .ok { o with logFile := textOf given }

def refuse (title why : String) : Reading := .refused s!"argument {title}: {why}"

def misuseText : Misuse → String
  | .expectedOne => "expected one argument"
  | .ignored given => "ignored explicit argument " ++ Text.literal given

def take (p : Parsed Setting) : Options → List (Use Setting) → Reading
  | o, [] => match p.misuse with
    | some (s, m) => refuse s.title (misuseText m)
    | none =>
      if p.extras.isEmpty then .options o
      else .refused ("unrecognized arguments: " ++ Text.joinWith " " p.extras)
  | _, .flag .help _ :: _ => .help
  | o, .flag s arguments :: r => match o.set arguments.head? s with
    | .ok o => take p o r
    | .error why => refuse s.title why
  | o, .word arguments :: r => match arguments.head? with
    | none => take p o r
    | some s => match readAction s with
      | .ok a => take p { o with action := some a } r
      | .error why => refuse "action" why

def ambiguityText (a : Ambiguity) : String :=
  s!"ambiguous option: {a.argument} could match " ++ Text.joinWith ", " a.candidates

def read (arguments : List String) : Reading :=
  match grammar.parse arguments with
  | .error a => .refused (ambiguityText a)
  | .ok p => take p {} p.uses

end Options
end Flotilla.CommandLine
