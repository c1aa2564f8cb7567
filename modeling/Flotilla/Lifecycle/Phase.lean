namespace Flotilla.Lifecycle

inductive Phase
  | idle
  | stopping
  | stopped
  | reloadingUnits
  | unitsReloaded
  | startingHelpers
  | helpersStarted
  | startingDaemons
  | running
  deriving DecidableEq, Repr

def Phase.name : Phase → String
  | idle => "IDLE"
  | stopping => "STOPPING"
  | stopped => "STOPPED"
  | reloadingUnits => "RELOADING_UNITS"
  | unitsReloaded => "UNITS_RELOADED"
  | startingHelpers => "STARTING_HELPERS"
  | helpersStarted => "HELPERS_STARTED"
  | startingDaemons => "STARTING_DAEMONS"
  | running => "RUNNING"

end Flotilla.Lifecycle
