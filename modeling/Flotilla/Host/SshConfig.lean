import Flotilla.Files.Glob
import Flotilla.Shell.Words
import Flotilla.Table
import Flotilla.Text.Letter
import Flotilla.Text.Lines

/-! Connection settings by host: blocks of settings for the hosts that match a pattern, or that meet
some criteria. The first setting of a name that applies to a host counts, but key files add up. -/
namespace Flotilla.Host

def localUser : String := "root"

/-- A condition on a connection, met if the parameter fits, or if it does not. -/
structure Criterion where
  name : String
  isNegated : Bool
  parameter : String
  deriving DecidableEq, Repr

inductive Guard
  | hosts (patterns : List String)
  | criteria (cs : List Criterion)
  deriving DecidableEq, Repr

/-- Settings by their names. Most have one text; those that may be given again have one for each time. -/
abbrev Settings := Table String (List String)

structure Block where
  guard : Guard
  settings : Settings := .empty
  deriving DecidableEq, Repr

/-- The blocks in order. The first holds what stands before any other, and is there for every file. -/
abbrev SshConfig := List Block

namespace SshConfig

inductive Line
  | blank
  | setting (name value : String)
  deriving DecidableEq, Repr

def isComment (line : String) : Bool := line.isEmpty || line.startsWith "#"

/-- A name in lower case and its value. An equals sign may stand between them, or else blanks; one
that nothing follows is a value itself. -/
def readSetting (line : String) : Except Fault Line :=
  let cs := line.toList
  let name := cs.takeWhile Text.isLetter
  let rest := cs.drop name.length
  let value := rest.dropWhile Text.isBlank
  let joined := match value with
    | '=' :: r => r.dropWhile Text.isBlank
    | _ => []
  let found := if !joined.isEmpty then joined else if value.length < rest.length then value else []
  if name.isEmpty || found.isEmpty then .error (.settings (.line line))
  else .ok (.setting (String.ofList name).toLower (String.ofList found))

def readLine (line : String) : Except Fault Line :=
  let line := Text.trim line
  if isComment line then .ok .blank else readSetting line

def readPatterns (text : String) : Except Fault (List String) :=
  match Shell.words text with
  | .ok patterns => .ok patterns
  | .error _ => .error (.settings (.patterns text))

def bareCriteria : List String := ["all", "canonical", "final"]

def readCriteriaFrom : List String → Except Fault (List Criterion)
  | [] => .ok []
  | word :: r => do
    let isNegated := word.startsWith "!"
    let name := if isNegated then String.ofList (word.toList.drop 1) else word
    if bareCriteria.contains name then return ⟨name, isNegated, ""⟩ :: (← readCriteriaFrom r)
    match r with
    | [] => throw (.settings (.noParameter name))
    | parameter :: r => return ⟨name, isNegated, parameter⟩ :: (← readCriteriaFrom r)

def checkCriteria (cs : List Criterion) : Except Fault Unit :=
  let names := cs.map (·.name)
  if !names.contains "all" then .ok ()
  else if names.any fun n => n != "all" && n != "canonical" && !n.isEmpty then
    .error (.settings .allMixed)
  else if names.contains "canonical" && names.idxOf "canonical" > names.idxOf "all" then
    .error (.settings .allFirst)
  else .ok ()

def readCriteria (text : String) : Except Fault (List Criterion) :=
  match Shell.words text with
  | .error why => .error (.value why)
  | .ok words => do
    let cs ← readCriteriaFrom words
    checkCriteria cs
    return cs

def unquote (value : String) : String :=
  if value.startsWith "\"" && value.endsWith "\"" then String.ofList (value.toList.drop 1).dropLast
  else value

def repeatable : List String := ["identityfile", "localforward", "remoteforward"]

def Block.add (b : Block) (name value : String) : Block :=
  if repeatable.contains name then
    { b with settings := b.settings.put name ((b.settings.get? name).getD [] ++ [value]) }
  else { b with settings := b.settings.putNew name [value] }

/-- The blocks begun so far, latest first, with one more line, which belongs to the latest of them. -/
def addLine (blocks : SshConfig) (line : String) : Except Fault SshConfig := do
  match ← readLine line with
  | .blank => return blocks
  | .setting "host" value => return { guard := .hosts (← readPatterns value) } :: blocks
  | .setting "match" value => return { guard := .criteria (← readCriteria value) } :: blocks
  | .setting name value => match blocks with
    | b :: r => return Block.add b name (unquote value) :: r
    | [] => return []

def read (text : String) : Except Fault SshConfig := do
  let blocks ← (Text.lines Text.endsFileLine text).foldlM addLine [{ guard := .hosts ["*"] }]
  return blocks.reverse

def matchesPattern (text pattern : String) : Bool :=
  Files.matchesWildcards (Files.wildcards pattern.toList) text.toList

/-- A text matches if some pattern has it and none has it excluded. -/
def matchesAny (patterns : List String) (text : String) : Bool :=
  patterns.any (matchesPattern text) &&
  patterns.all fun p => !(p.startsWith "!" && matchesPattern text (String.ofList (p.toList.drop 1)))

def first? (found : Settings) (name : String) : Option String := (found.get? name).bind List.head?

def firstOr (found : Settings) (name fallback : String) : String :=
  match first? found name with
  | some s => if s.isEmpty then fallback else s
  | none => fallback

/-- Whether a criterion is met by a host with the settings found so far. Hosts are not looked up, so
none is canonical, and no command is run to find out. A criterion of no known name is met. -/
def Criterion.isMet (host : String) (isFinal : Bool) (found : Settings) (c : Criterion) : Bool :=
  let fits (text : String) : Bool := matchesAny (Text.splitOn ',' c.parameter) text != c.isNegated
  match c.name with
  | "canonical" => c.isNegated
  | "final" => isFinal != c.isNegated
  | "host" => fits (firstOr found "hostname" host)
  | "originalhost" => fits host
  | "user" => fits (firstOr found "user" localUser)
  | "localuser" => fits localUser
  | "exec" => c.isNegated
  | _ => true

/-- All criteria up to one that everything meets have to be met. -/
def areMet (host : String) (isFinal : Bool) (found : Settings) (cs : List Criterion) : Bool :=
  (cs.takeWhile (·.name != "all")).all (Criterion.isMet host isFinal found)

def Block.applies (host : String) (isFinal : Bool) (found : Settings) (b : Block) : Bool :=
  match b.guard with
  | .hosts patterns => matchesAny patterns host
  | .criteria cs => areMet host isFinal found cs

def addNew (known : List String) (value : String) : List String :=
  if known.contains value then known else known ++ [value]

/-- Adds a setting that has not been found yet. Of key files, those that are new are added. -/
def addFound (found : Settings) (name : String) (values : List String) : Settings :=
  match found.get? name with
  | none => found.put name values
  | some known =>
    if name == "identityfile" then found.put name (values.foldl addNew known) else found

def collect (host : String) (isFinal : Bool) (found : Settings) (config : SshConfig) : Settings :=
  config.foldl (fun found b =>
    if Block.applies host isFinal found b then
      b.settings.entries.foldl (fun found s => addFound found s.1 s.2) found
    else found) found

def placeholders (home host : String) (found : Settings) : String → List (String × String)
  | "hostname" => [("%h", host)]
  | "identityfile" =>
    [("%d", home), ("%h", (first? found "hostname").getD host),
     ("%r", (first? found "user").getD localUser), ("%u", localUser), ("~", home)]
  | _ => []

def expand (home host : String) (found : Settings) : Settings :=
  found.entries.foldl (fun t s =>
    let filled := s.2.map fun v =>
      (placeholders home host t s.1).foldl (fun v p => v.replace p.1 p.2) v
    t.put s.1 filled) found

/-- All settings of a host. The blocks are gone through twice, as criteria may hang on settings that
come later; the host goes by its own name unless there is another. -/
def lookUp (config : SshConfig) (home host : String) : Settings :=
  let found := (collect host false .empty config).putNew "hostname" [host]
  expand home host (collect host true found config)

end SshConfig
end Flotilla.Host
