import Flotilla.CommandLine.Program

/-! The program on this machine. A run takes over the files that its options name, and what it left
in them is written back. There is no transport here: hosts, ports and the store are out of reach,
so a run that needs them reports every host as failed. -/
namespace Flotilla.CommandLine

def outOfReach : String := "No transport to this host"

def unreachableHosts : Host.Script := [⟨none, none, none, { connectError := some outOfReach }⟩]

def Options.inputs (o : Options) (d : Files.Disk) : List String :=
  [o.sshConfigFile, o.identityFile, .text Defaults.sshConfigFile].filterMap fun p =>
    (d.expand p).toOption

def Options.outputs (o : Options) : List String :=
  [o.output, o.report, o.logFile].filterMap Program.file?

def Reading.options? : Reading → Option Options
  | .options o => some o
  | _ => none

def withDirectories (d : Files.Disk) (paths : List String) : Files.Disk :=
  paths.foldl (fun d p => (d.makeDirectories p).2) d

def takeOver (d : Files.Disk) (path : String) : IO Files.Disk := do
  try
    let text ← IO.FS.readFile path
    let d := withDirectories d [Files.directoryName (d.absolute path)]
    return (d.write path (.file text)).toOption.getD d
  catch _ => return d

def writeBack (d : Files.Disk) (path : String) : IO Unit :=
  match d.read path with
  | .ok text => IO.FS.writeFile path text
  | .error _ => pure ()

def machine : IO Files.Disk := do
  let working := toString (← IO.currentDir)
  let home := (← IO.getEnv "HOME").getD working
  let temporary := (← IO.getEnv "TMPDIR").getD "/tmp"
  return withDirectories { root := .empty, home, working, temporary } [home, working, temporary]

def runHere (name stamp : String) (arguments : List String) : IO UInt32 := do
  let o := (Options.read arguments).options?.getD {}
  let d ← machine
  let d ← (o.inputs d).foldlM takeOver d
  let d := withDirectories d (o.outputs.map fun p => Files.directoryName (d.absolute p))
  let job := (Program.jobDirectory d stamp arguments).getD ""
  let start := { Session.new unreachableHosts d stamp with
    holds := o.detach, unreachable := some outOfReach, storeRefusal := some "No store to upload to" }
  let (result,ran) := (ExceptT.run (Program.run name stamp arguments)).run start
  let (_,left) := (ExceptT.run (Program.atExit job)).run ran
  IO.print left.printed
  left.visibleLog.forM fun r => IO.eprintln s!"{r.2.level.name}: {r.2.text}"
  o.outputs.forM (writeBack left.disk)
  if left.disk.isPresent job then
    IO.FS.createDirAll job
    writeBack left.disk (Files.join job Program.reportFile)
  match result with
  | .ok e =>
    if !e.complaint.isEmpty then IO.eprintln e.complaint
    return e.code.toUInt32
  | .error f =>
    IO.eprintln f.message
    return 1

end Flotilla.CommandLine

def main (arguments : List String) : IO UInt32 := do
  let name := Flotilla.Files.baseName (toString (← IO.appPath))
  Flotilla.CommandLine.runHere name (toString (← IO.monoNanosNow)) arguments
