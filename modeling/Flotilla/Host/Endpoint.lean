import Flotilla.Host.Exchange
import Flotilla.Host.SshConfig

/-! Where a connection goes, as whom, and how, by the text that names the host and by the settings
for it. What the caller asks for goes before the settings. -/
namespace Flotilla.Host

structure Endpoint where
  host : Option String
  user : Value
  port : Int
  connectTimeout : Option Int
  identities : List String
  deriving DecidableEq, Repr

/-- A host as it is written, `user@host:port`, taken apart. -/
structure Shorthand where
  user : Option String
  host : Option String
  port : Option Int
  deriving DecidableEq, Repr

namespace Endpoint

def defaultPort : Int := 22

def nonEmpty (s : String) : Option String := if s.isEmpty then none else some s

def readInteger (s : String) : Except Fault Int :=
  match Number.read s with
  | .ok n => .ok n
  | .error why => .error (.value (.unreadable why))

/-- With more than one colon there is no port. -/
def shorthand (s : String) : Except Fault Shorthand := do
  let (user,rest) := match Text.splitLast '@' s with
    | some (user, rest) => (nonEmpty user, rest)
    | none => (none, s)
  if rest.toList.count ':' > 1 then return ⟨user, some rest, none⟩
  match Text.splitLast ':' rest with
  | none => return ⟨user, nonEmpty rest, none⟩
  | some (host, port) =>
    if port.isEmpty then return ⟨user, nonEmpty host, none⟩
    return ⟨user, nonEmpty host, some (← readInteger port)⟩

def settingsOf (config : SshConfig) (home : String) : Option String → Except Fault Settings
  | some host => .ok (config.lookUp home host)
  | none => if config.isEmpty then .ok .empty else .error (.type (.path Value.null.kindName))

/-- A port of zero counts as not given. -/
def choosePort (asked : Option Int) (found : Settings) : Except Fault Int :=
  match asked.filter (· != 0) with
  | some n => .ok n
  | none => match SshConfig.first? found "port" with
    | some p => readInteger p
    | none => .ok defaultPort

def checkForwarding (found : Settings) : Except Fault Unit :=
  match SshConfig.first? found "forwardagent" with
  | none => .ok ()
  | some answer => if answer == "yes" || answer == "no" then .ok () else .error (.unknownKey answer)

def chooseTimeout (asked : Option Value) (found : Settings) : Except Fault (Option Int) :=
  match asked, SshConfig.first? found "connecttimeout" with
  | some v, _ => match v.toInt with
    | .ok n => .ok (some n)
    | .error why => .error (Fault.ofNotInteger why)
  | none, some s => (readInteger s).map some
  | none, none => .ok none

/-- Where a host leads under the settings. A user is named in one place at most; one without a name
counts as not given. -/
def resolve (config : SshConfig) (home : String) (access : Access) (given : Value) :
    Except Fault Endpoint := do
  let text ← match given with
    | .text s => pure s
    | v => throw (.noMemberOf v.kindName "rsplit")
  let s ← shorthand text
  if s.user.isSome && access.user.isSome then throw (.value .userTwice)
  let found ← settingsOf config home s.host
  let port ← choosePort s.port found
  checkForwarding found
  let connectTimeout ← chooseTimeout access.connectTimeout found
  let asked := (s.user.map Value.text).orElse fun _ => access.user.filter Value.isTruthy
  return {
    host := (SshConfig.first? found "hostname").orElse fun _ => s.host
    user := asked.getD (.text ((SshConfig.first? found "user").getD localUser))
    port, connectTimeout
    identities := access.identity.toList ++ (found.get? "identityfile").getD [] }

end Endpoint
end Flotilla.Host
