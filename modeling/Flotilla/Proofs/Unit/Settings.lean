import Flotilla.Proofs.Shell.Login
import Flotilla.Proofs.Text.Filling
import Flotilla.Proofs.Text.Pieces
import Flotilla.Unit

namespace Flotilla

namespace Text

theorem splitOn_unlines {ls : List String} (h : ∀ l ∈ ls, '\n' ∉ l.toList) :
    splitOn '\n' (Unit.unlines ls) = ls ++ [""] := by
  induction ls with
  | nil => rfl
  | cons l r ih =>
    have chars : (Unit.unlines (l :: r)).toList = l.toList ++ '\n' :: (Unit.unlines r).toList := by
      simp [Unit.unlines]
    rw [splitOn, chars, splitChars_append, splitChars_of_notMem (h l List.mem_cons_self),
      List.map_append, ← splitOn, ih fun m hm => h m (List.mem_cons_of_mem l hm)]
    simp

end Text

namespace Unit

def settings (file : String) : List (String × String) :=
  (Text.splitOn '\n' file).filterMap (Text.splitFirst '=')

def setting? (name file : String) : Option String := (settings file).lookup name

def fillHome (home text : String) : String := Text.fill homeMarker home text

theorem settings_file (i : Instance) {remote : String} (h : '\n' ∉ (workingDirectory remote).toList) :
    settings (file i remote) =
      [("Description", s!"block_chat daemon ({i.role.name})"), ("After", "network-online.target"),
       ("Wants", "network-online.target"), ("Type", "simple"), ("User", userMarker),
       ("WorkingDirectory", workingDirectory remote),
       ("ExecStart", workingDirectory remote ++ "/target/release/daemon"), ("Restart", "no"),
       ("WantedBy", "multi-user.target")] := by
  have lines : ∀ l ∈ fileLines i.role (workingDirectory remote), '\n' ∉ l.toList := by
    cases i.role <;> simp [fileLines, Role.name, userMarker, toString, h]
  have description : Text.splitFirst '=' s!"Description=block_chat daemon ({i.role.name})" =
      some ("Description", s!"block_chat daemon ({i.role.name})") :=
    Text.splitFirst_eq (by simp [toString]) (by decide)
  have directory : Text.splitFirst '=' ("WorkingDirectory=" ++ workingDirectory remote) =
      some ("WorkingDirectory", workingDirectory remote) :=
    Text.splitFirst_eq (by simp) (by decide)
  have start : Text.splitFirst '=' s!"ExecStart={workingDirectory remote}/target/release/daemon" =
      some ("ExecStart", workingDirectory remote ++ "/target/release/daemon") :=
    Text.splitFirst_eq (by simp [toString]) (by decide)
  have plain : Text.splitFirst '=' "[Unit]" = none ∧ Text.splitFirst '=' "" = none ∧
      Text.splitFirst '=' "[Service]" = none ∧ Text.splitFirst '=' "[Install]" = none := by decide
  rw [settings, file, Text.splitOn_unlines lines]
  simp only [fileLines, List.cons_append, List.nil_append, List.filterMap_cons, List.filterMap_nil,
    description, directory, start, plain]
  rfl

theorem workingDirectory_file (i : Instance) {remote : String}
    (h : '\n' ∉ (workingDirectory remote).toList) :
    setting? "WorkingDirectory" (file i remote) = some (workingDirectory remote) := by
  rw [setting?, settings_file i h]
  rfl

theorem execStart_file (i : Instance) {remote : String}
    (h : '\n' ∉ (workingDirectory remote).toList) :
    setting? "ExecStart" (file i remote) =
      some (workingDirectory remote ++ "/target/release/daemon") := by
  rw [setting?, settings_file i h]
  rfl

open Shell Text

theorem workingDirectory_eq (d : String) : workingDirectory d = expandTilde homeMarker d := rfl

theorem notMem_workingDirectory {d : String} (h : IsPlainWord d) :
    '\n' ∉ (workingDirectory d).toList := by
  have oneLine : '\n' ∉ d.toList := fun mem =>
    absurd (List.all_eq_true.mp h.2.1 _ mem) (by decide)
  rw [workingDirectory_eq]
  by_cases named : Files.NamesHome d
  · obtain rfl | ⟨r, rfl⟩ := named
    · decide
    · rw [expandTilde_tilde]
      simpa [homeMarker] using oneLine
  · rwa [expandTilde_eq_self named]

theorem fillHome_workingDirectory {d : String} (h : ¬ IsMarked homeMarker d) (home : String) :
    fillHome home (workingDirectory d) = expandTilde home d := by
  rw [workingDirectory_eq, fillHome]
  by_cases named : Files.NamesHome d
  · obtain rfl | ⟨r, rfl⟩ := named
    · exact (fill_marker (by decide) home "").trans (by simp [fill, fillChars, expandTilde])
    · have later : ¬ IsMarked homeMarker ("/" ++ r) := fun marked =>
        h (marked.trans ⟨['~'], [], by simp⟩)
      rw [expandTilde_tilde, expandTilde_tilde, String.append_assoc, fill_marker (by decide),
        fill_eq_self later, String.append_assoc]
  · rw [expandTilde_eq_self named, expandTilde_eq_self named, fill_eq_self h]

theorem not_isMarked_below {d b : String} (h : ¬ IsMarked homeMarker d)
    (hb : ¬ IsMarked homeMarker b) : ¬ IsMarked homeMarker (d ++ "/" ++ b) := by
  intro marked
  have parts : homeMarker.toList <:+: d.toList ++ '/' :: b.toList := by
    simpa [IsMarked] using marked
  exact (infix_of_append_cons (by decide) parts).elim h hb

theorem fillHome_daemon {d : String} (h : ¬ IsMarked homeMarker d) (home : String) :
    fillHome home (workingDirectory d ++ "/target/release/daemon") =
      expandTilde home d ++ "/target/release/daemon" := by
  have below (start : String) : expandTilde start (d ++ "/" ++ "target/release/daemon") =
      expandTilde start d ++ "/target/release/daemon" := by
    rw [expandTilde_below, String.append_assoc]
    rfl
  rw [← below home, ← fillHome_workingDirectory (not_isMarked_below h (by decide))]
  exact congrArg (fillHome home) (below homeMarker).symm

theorem count_fillHome_lt {d : String} (h : IsMarked homeMarker d) :
    (fillHome "/" (workingDirectory d)).toList.count '@' < d.toList.count '@' := by
  rw [workingDirectory_eq, fillHome]
  by_cases named : Files.NamesHome d
  · obtain rfl | ⟨r, rfl⟩ := named
    · exact absurd h (by decide)
    · have later : IsMarked homeMarker ("/" ++ r) := by
        have chars : homeMarker.toList <:+: '~' :: ("/" ++ r).toList := by simpa [IsMarked] using h
        refine (List.infix_cons_iff.mp chars).resolve_left fun start => ?_
        simp [homeMarker] at start
      have less := count_fill_lt (by decide : '@' ∈ homeMarker.toList)
        (by decide : '@' ∉ "/".toList) later
      rw [expandTilde_tilde, String.append_assoc, fill_marker (by decide)]
      simpa using less
  · rw [expandTilde_eq_self named]
    exact count_fill_lt (by decide) (by decide) h

end Unit
end Flotilla
