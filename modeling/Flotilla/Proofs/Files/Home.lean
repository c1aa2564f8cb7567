import Flotilla.Command

namespace Flotilla

namespace Files

/-- The home directory, or a path from there. -/
def NamesHome (path : String) : Prop := path = "~" ∨ ∃ r, path = "~/" ++ r

theorem namesHome_below (d b : String) : NamesHome (d ++ "/" ++ b) ↔ NamesHome d := by
  constructor
  · intro h
    have chars : ∃ r, d.toList ++ '/' :: b.toList = '~' :: r ∧ (r = [] ∨ r.head? = some '/') := by
      rcases h with alone | ⟨r, path⟩
      · exact ⟨[], by simpa using congrArg String.toList alone, .inl rfl⟩
      · exact ⟨'/' :: r.toList, by simpa using congrArg String.toList path, .inr rfl⟩
    obtain ⟨r, whole, rest⟩ := chars
    cases start : d.toList with
    | nil => simp [start] at whole
    | cons c cs =>
      rw [start, List.cons_append, List.cons.injEq] at whole
      obtain ⟨rfl, rfl⟩ := whole
      cases cs with
      | nil => exact .inl (String.toList_inj.mp start)
      | cons e es =>
        obtain rfl : e = '/' := by simpa using rest
        exact .inr ⟨String.ofList es, by simp [← String.toList_inj, start]⟩
  · rintro (rfl | ⟨r, rfl⟩)
    · exact .inr ⟨b, rfl⟩
    · exact .inr ⟨r ++ "/" ++ b, by simp only [String.append_assoc]⟩

end Files

namespace Command
open Files

theorem remotePath_eq_self {path : String} (h : ¬ NamesHome path) : remotePath path = path := by
  unfold remotePath
  split
  · next r chars =>
    exact absurd (.inr ⟨String.ofList r, by simp [← String.toList_inj, chars]⟩) h
  · rfl

theorem remotePath_tilde (r : String) : remotePath ("~/" ++ r) = r := by simp [remotePath]

theorem remotePath_below {directory : String} (h : directory ≠ "~") (name : String) :
    remotePath (directory ++ "/" ++ name) = remotePath directory ++ "/" ++ name := by
  by_cases home : NamesHome directory
  · obtain ⟨r, rfl⟩ := home.resolve_left h
    rw [String.append_assoc, String.append_assoc, remotePath_tilde, remotePath_tilde,
      String.append_assoc]
  · rw [remotePath_eq_self home, remotePath_eq_self (by rwa [namesHome_below])]

end Command
end Flotilla
