import Flotilla.Session

namespace Flotilla.Scratch

def path (s : Session) : String := s!"{s.disk.temporary}/blockchat_fleet.{s.process}"

def make : Run String := do
  let p := path (← get)
  Run.changeDisk fun d => d.makeDirectories p
  return p

/-- Removes the directory with all that is in it, unless the system refuses to. -/
def remove (cleanUp : Bool) (refusal : Option String) : Run Bool := do
  let p ← make
  if !cleanUp then
    Run.log (Log.info s!"Skip removal of {p}.")
    return true
  let disk := (← get).disk
  let removed : Except String Files.Disk := match refusal with
    | some why => .error why
    | none => (disk.remove p).mapError FileFault.message
  match removed with
  | .ok disk =>
    modify fun s => { s with disk := disk }
    return true
  | .error why =>
    Run.log (Log.error s!"Failed to recursively delete the contents of {p}")
    Run.log (Log.error why)
    return false

end Flotilla.Scratch
