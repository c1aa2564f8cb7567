import Flotilla.Deploy.Stage
import Flotilla.Unit

namespace Flotilla.Deploy

inductive Step
  | clean
  | distributeSource
  | build
  | distributeInputs
  | installUnits
  | installOverrides
  | reload
  deriving DecidableEq, Repr

namespace Step

def all : List Step :=
  [clean, distributeSource, build, distributeInputs, installUnits, installOverrides, reload]

def name : Step → String
  | clean => "clean"
  | distributeSource => "distribute-source"
  | build => "build"
  | distributeInputs => "distribute-inputs"
  | installUnits => "install-units"
  | installOverrides => "install-overrides"
  | reload => "reload"

def needs : Step → Option Step
  | clean => none
  | distributeSource => some clean
  | build => some distributeSource
  | distributeInputs => some clean
  | installUnits => some clean
  | installOverrides => some installUnits
  | reload => some installOverrides

/-- Unit files seldom change, so the steps that install them can be left out. -/
def isSkippable : Step → Bool
  | installUnits => true
  | installOverrides => true
  | reload => true
  | _ => false

def stage (s : Step) : Stage := ⟨s.name, s.needs.toList.map name, s.isSkippable⟩

theorem check_all : Stage.check (all.map stage) = .ok () := by rfl

end Step

def sourceArchive : String := "source.tar.gz"
def inputsArchive : String := "inputs.tar.gz"

/-- A compound line run as a whole with privileges, by a shell of its own. -/
def privileged (line arguments : String) : Command :=
  { line := s!"sh -c {Shell.quote line}{arguments}", asSudo := true }

def unpack (directory archive : String) : String :=
  let path := s!"{directory}/{archive}"
  s!"tar -xzf {path} -C {directory} && rm {path}"

/-- The archives built so far, by their paths here. -/
structure Archives where
  source : Option String
  inputs : Option String
  deriving DecidableEq, Repr

/-- What a deployment's commands depend on. The directory is the one on the hosts. -/
structure Plan where
  fleet : Fleet
  directory : String
  timeout : Option Value
  deriving DecidableEq, Repr

namespace Plan

/-- The directory as privileged commands name it: they run where the login starts. -/
def loginDirectory (p : Plan) : String := Command.remotePath p.directory

def cleanCommand (p : Plan) : Command :=
  { line := s!"rm -rf {p.directory} && mkdir {p.directory}", timeout := p.timeout }

def shipCommand (p : Plan) (archive : String) (file : Option String) : Command :=
  { line := unpack p.directory archive
    uploads := [⟨s!"{p.directory}/{archive}", file, none⟩], timeout := p.timeout }

def buildCommand (p : Plan) : Command :=
  { line := s!". ~/.cargo/env && cd {p.directory} && cargo build --release", timeout := p.timeout }

def installCommand (p : Plan) (instances : List Instance) (fileName : Instance → String)
    (content : Instance → String) (line : Instance → String) (arguments : String) : Option Command :=
  if instances.isEmpty then none
  else some
    { privileged (Text.joinWith " && " (instances.map line)) arguments with
      uploads := instances.map fun i => ⟨s!"{p.directory}/{fileName i}", none, some (content i)⟩
      timeout := p.timeout }

def unitFileName (i : Instance) : String := i.name ++ ".service"

def overrideFileName (i : Instance) : String := i.name ++ ".override.conf"

def installUnits (p : Plan) (n : Node) : Option Command :=
  p.installCommand (p.fleet.instancesOn n) unitFileName (Unit.file · p.directory)
    (fun i => Unit.installScript s!"{p.loginDirectory}/{unitFileName i}" (Unit.path i.name))
    Unit.loginArguments

def overrideLine (p : Plan) (i : Instance) : String :=
  let target := Unit.overrideDirectory i.name
  s!"mkdir -p {target} && cp {p.loginDirectory}/{overrideFileName i} {target}/override.conf"

def installOverrides (p : Plan) (n : Node) : Option Command :=
  p.installCommand (p.fleet.instancesOn n) overrideFileName Unit.overrideFile p.overrideLine ""

def command (p : Plan) (built : Archives) (n : Node) : Step → Option Command
  | .clean => some p.cleanCommand
  | .distributeSource => some (p.shipCommand sourceArchive built.source)
  | .build => some p.buildCommand
  | .distributeInputs => some (p.shipCommand inputsArchive built.inputs)
  | .installUnits => p.installUnits n
  | .installOverrides => p.installOverrides n
  | .reload => some { Unit.reload with timeout := p.timeout }

end Plan
end Flotilla.Deploy
