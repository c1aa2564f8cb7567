import Flotilla.Command
import Flotilla.Files.Path
import Flotilla.Fleet.Basic
import Flotilla.Shell.Quote

namespace Flotilla.Unit

def homeMarker : String := "@HOME@"
def userMarker : String := "@USER@"

def loginArguments : String := " sh \"$HOME\" \"$(id -un)\""

def start (unit : String) : Command := { line := "systemctl start " ++ unit, asSudo := true }

/-- Status 5 says that the unit was never installed, which is as good as stopped. -/
def stop (unit : String) : Command :=
  { line := s!"sh -c 'systemctl stop {unit} || test $? -eq 5'", asSudo := true }

def reload : Command := { line := "systemctl daemon-reload", asSudo := true }

def isActive (unit : String) : Command :=
  { line := "systemctl is-active " ++ unit, asSudo := true }

def path (unit : String) : String := Files.join Defaults.unitDirectory (unit ++ ".service")

def overrideDirectory (unit : String) : String :=
  Files.join Defaults.unitDirectory (unit ++ ".service.d")

/-- A directory on the hosts, as given, without slashes at its end. -/
def readDirectory : Value → Except Fault String
  | .text s => .ok (Text.dropTrailing '/' s)
  | v => .error (.noMemberOf v.kindName "rstrip")

def readWorkingDirectory : Value → Except Fault String
  | .text s => .ok s
  | v => .error (.noMemberOf v.kindName "startswith")

/-- The directory as a unit file names it: the home directory stands as its marker. -/
def workingDirectory (remote : String) : String :=
  match remote.toList with
  | ['~'] => homeMarker
  | '~' :: '/' :: r => homeMarker ++ "/" ++ String.ofList r
  | _ => remote

def fileLines (role : Role) (directory : String) : List String :=
  ["[Unit]",
   s!"Description=block_chat daemon ({role.name})",
   "After=network-online.target",
   "Wants=network-online.target",
   "",
   "[Service]",
   "Type=simple",
   "User=" ++ userMarker,
   "WorkingDirectory=" ++ directory,
   s!"ExecStart={directory}/target/release/daemon",
   "Restart=no",
   "",
   "[Install]",
   "WantedBy=multi-user.target"]

def unlines (ls : List String) : String := String.join (ls.map (· ++ "\n"))

def file (i : Instance) (remote : String) : String :=
  unlines (fileLines i.role (workingDirectory remote))

def installScript (source target : String) : String :=
  s!"sed -e \"s|{homeMarker}|$1|g\" -e \"s|{userMarker}|$2|g\" {source} > {target}"

def overrideFile (i : Instance) : String :=
  unlines ("[Service]" :: (Shell.sortByName i.bindings.daemonEnvironment).map fun v =>
    s!"Environment=\"{v.1}={v.2}\"")

/-- The helper of an instance, run in the foreground with its bindings exported. -/
def helper (i : Instance) (remote : String) : Command :=
  { line := s!"cd {remote} && " ++
      Shell.exportLine (i.bindings.helperEnvironment.map fun v => (v.1, v.2.shown)) ++
      " && ./target/release/helper" }

end Flotilla.Unit
