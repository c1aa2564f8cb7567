import Flotilla.Proofs.Unit.Settings

namespace Flotilla.Unit

def environmentLine (v : String × String) : String := s!"Environment=\"{v.1}={v.2}\""

/-- What stands between a double quote at the start of a text and one at its end. -/
def unquote? (s : String) : Option String :=
  match s.toList with
  | '"' :: r => if r.getLast? = some '"' then some (String.ofList r.dropLast) else none
  | _ => none

def environment (file : String) : List (String × String) :=
  (settings file).filterMap fun s =>
    if s.1 = "Environment" then (unquote? s.2).bind (Text.splitFirst '=') else none

theorem unquote?_quoted (s : String) : unquote? ("\"" ++ s ++ "\"") = some s := by
  have chars : ("\"" ++ s ++ "\"").toList = '"' :: (s.toList ++ ['"']) := by simp
  rw [unquote?, chars]
  simp

theorem splitFirst_environmentLine (v : String × String) :
    Text.splitFirst '=' (environmentLine v) =
      some ("Environment", "\"" ++ (v.1 ++ "=" ++ v.2) ++ "\"") :=
  Text.splitFirst_eq (by simp [environmentLine, toString]) (by decide)

theorem sortByName_daemonEnvironment (b : Bindings) :
    Shell.sortByName b.daemonEnvironment = b.daemonEnvironment := by
  refine List.mergeSort_of_pairwise ?_
  simp [Bindings.daemonEnvironment]

theorem lines_overrideFile {i : Instance} (h : '\n' ∉ i.bindings.bootstrapSocket.toList) :
    Text.splitOn '\n' (overrideFile i) =
      "[Service]" :: (i.bindings.daemonEnvironment.map environmentLine ++ [""]) := by
  have number (n : Nat) : '\n' ∉ (toString n).toList := Text.notMem_toString (by decide) n
  have lines : ∀ l ∈ "[Service]" :: i.bindings.daemonEnvironment.map environmentLine,
      '\n' ∉ l.toList := by
    have fixed : ∀ v ∈ i.bindings.daemonEnvironment, '\n' ∉ v.1.toList ∧ '\n' ∉ v.2.toList := by
      simp only [Bindings.daemonEnvironment, List.forall_mem_cons]
      exact ⟨⟨by decide, h⟩, ⟨by decide, number _⟩, ⟨by decide, number _⟩, ⟨by decide, number _⟩,
        by simp⟩
    intro l hl
    obtain rfl | hl := List.mem_cons.mp hl
    · decide
    · obtain ⟨v, hv, rfl⟩ := List.mem_map.mp hl
      simp [environmentLine, toString, fixed v hv]
  rw [overrideFile, sortByName_daemonEnvironment]
  exact Text.splitOn_unlines lines

theorem environment_of_lines {file : String} {env : List (String × String)}
    (lines : Text.splitOn '\n' file = "[Service]" :: (env.map environmentLine ++ [""]))
    (names : ∀ v ∈ env, '=' ∉ v.1.toList) : environment file = env := by
  have header : Text.splitFirst '=' "[Service]" = none ∧ Text.splitFirst '=' "" = none := by decide
  have read : settings file =
      env.map fun v => ("Environment", "\"" ++ (v.1 ++ "=" ++ v.2) ++ "\"") := by
    rw [settings, lines]
    simp [header, List.filterMap_append, splitFirst_environmentLine]
  rw [environment, read, List.filterMap_map]
  have each : ∀ v ∈ env, Text.splitFirst '=' (v.1 ++ "=" ++ v.2) = some v := fun v hv =>
    Text.splitFirst_eq (by simp) (names v hv)
  rw [List.filterMap_congr (g := some) fun v hv => by simp [unquote?_quoted, each v hv]]
  exact List.filterMap_some

theorem environment_overrideFile {i : Instance} (h : '\n' ∉ i.bindings.bootstrapSocket.toList) :
    environment (overrideFile i) = i.bindings.daemonEnvironment :=
  environment_of_lines (lines_overrideFile h) (by simp [Bindings.daemonEnvironment])

end Flotilla.Unit
