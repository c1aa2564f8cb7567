import Flotilla.Text.Blank

namespace Flotilla.Files

/-- The second path within the first; an absolute one stands alone. -/
def join (a b : String) : String :=
  if b.startsWith "/" then b
  else if a.isEmpty || a.endsWith "/" then a ++ b
  else a ++ "/" ++ b

def baseName (p : String) : String :=
  match Text.splitLast '/' p with
  | some (_, name) => name
  | none => p

/-- What stands before the last slash, with that slash, and with the slashes before it dropped
unless there is nothing else. -/
def directoryName (p : String) : String :=
  match Text.splitLast '/' p with
  | none => ""
  | some (head, _) =>
    let bare := Text.dropTrailing '/' head
    if bare.isEmpty then head ++ "/" else bare

/-- The names of a path with dots and double dots worked out, latest first. -/
def normalNames : List String → List String → List String
  | seen, [] => seen
  | seen, n :: r =>
    if n == "" || n == "." then normalNames seen r
    else if n == ".." then normalNames seen.tail r
    else normalNames (n :: seen) r

/-- An absolute path in its plainest form. Two slashes at the start, no more and no fewer, stay two. -/
def normalize (p : String) : String :=
  let start := if p.startsWith "//" && !p.startsWith "///" then "//" else "/"
  start ++ Text.joinWith "/" (normalNames [] (Text.splitOn '/' p)).reverse

/-- The user whose home a path starts from, if it starts with a tilde; a tilde alone stands for the
user with no name, who is the present one. -/
def homeUser? (p : String) : Option String :=
  match p.toList with
  | '~' :: r => some (String.ofList (r.takeWhile (· != '/')))
  | _ => none

def expandHome (home? : String → Option String) (p : String) : String :=
  match (homeUser? p).bind fun user => (home? user).map fun home => (user, home) with
  | none => p
  | some (user, home) =>
    let path := Text.dropTrailing '/' home ++ String.ofList (p.toList.drop (user.length + 1))
    if path.isEmpty then "/" else path

end Flotilla.Files
