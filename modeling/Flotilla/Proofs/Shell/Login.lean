import Flotilla.Files.Path
import Flotilla.Proofs.Files.Home
import Flotilla.Proofs.Shell.Line
import Flotilla.Proofs.Text.Pieces

/-! Lines in a login shell, which starts in the home directory. Their commands are joined so that each
runs if all before it have succeeded. A place is the names that lead to it from the root, the last one
first; what is found at a place, links among them, is left out of account. -/
namespace Flotilla.Shell

def commands : List Token → Option (List String × List (List String))
  | [] => some ([], [])
  | .word w :: r => (commands r).map fun (c, cs) => (w :: c, cs)
  | .operator "&&" :: r => (commands r).map fun (c, cs) => ([], c :: cs)
  | _ => none

def isAbsolute (path : String) : Bool := path.toList.head? = some '/'

/-- A tilde at the start of a word that had no quotes. Other users, named after it, are not looked up. -/
def expandTilde (home w : String) : String :=
  match w.toList with
  | ['~'] => home
  | '~' :: '/' :: r => home ++ "/" ++ String.ofList r
  | _ => w

def walk (here : List String) (path : String) : List String :=
  Files.normalNames (if isAbsolute path then [] else here) (Text.splitOn '/' path)

def find (home : String) (here : List String) (w : String) : List String :=
  walk here (expandTilde home w)

structure Invocation where
  words : List String
  here : List String
  deriving DecidableEq, Repr

def invoke (home : String) : List String → List (List String) → Option (List Invocation × List String)
  | here, [] => some ([], here)
  | _, [] :: _ => none
  | here, (name :: ws) :: r =>
    if name = "cd" then match ws with
      | [w] => if isOption w then none else invoke home (find home here w) r
      | _ => none
    else (invoke home here r).map fun (ran, last) => (⟨name :: ws, here⟩ :: ran, last)

def run (home line : String) : Option (List Invocation × List String) := do
  let (c, cs) ← commands (← tokens line)
  invoke home (walk [] home) (c :: cs)

def IsProper (n : String) : Prop := n ≠ "" ∧ n ≠ "." ∧ n ≠ ".."

instance (n : String) : Decidable (IsProper n) := inferInstanceAs (Decidable (_ ∧ _ ∧ _))

theorem normalNames_append (seen a b : List String) :
    Files.normalNames seen (a ++ b) = Files.normalNames (Files.normalNames seen a) b := by
  induction a generalizing seen with
  | nil => rfl
  | cons n r ih =>
    rw [List.cons_append, Files.normalNames, Files.normalNames]
    repeat' split
    all_goals exact ih _

theorem normalNames_proper {ns : List String} (h : ∀ n ∈ ns, IsProper n) (seen : List String) :
    Files.normalNames seen ns = ns.reverse ++ seen := by
  induction ns generalizing seen with
  | nil => rfl
  | cons n r ih =>
    obtain ⟨some, here, up⟩ := h n List.mem_cons_self
    simp [Files.normalNames, some, here, up, ih fun m hm => h m (List.mem_cons_of_mem n hm)]

theorem countIn_normalNames_le (x : Char) (seen ns : List String) :
    Text.countIn x (Files.normalNames seen ns) ≤ Text.countIn x seen + Text.countIn x ns := by
  induction ns generalizing seen with
  | nil => exact Nat.le_refl _
  | cons n r ih =>
    have fewer : Text.countIn x seen.tail ≤ Text.countIn x seen := by
      cases seen <;> simp [Text.countIn]
    have stays := ih seen
    have up := ih seen.tail
    have down := ih (n :: seen)
    simp only [Text.countIn, List.flatMap_cons, List.count_append] at stays up down fewer ⊢
    rw [Files.normalNames]
    repeat' split
    all_goals omega

theorem splitOn_below (a b : String) :
    Text.splitOn '/' (a ++ "/" ++ b) = Text.splitOn '/' a ++ Text.splitOn '/' b := by
  have chars : (a ++ "/" ++ b).toList = a.toList ++ '/' :: b.toList := by simp
  rw [Text.splitOn, chars, Text.splitChars_append, List.map_append]
  rfl

theorem ne_empty_of_isAbsolute {path : String} (h : isAbsolute path) : path ≠ "" := by
  rintro rfl
  cases h

theorem isAbsolute_below {a : String} (h : a ≠ "") (b : String) :
    isAbsolute (a ++ "/" ++ b) = isAbsolute a := by
  have begun : a.toList ≠ [] := fun none => h (String.toList_inj.mp none)
  obtain ⟨c, cs, chars⟩ := List.exists_cons_of_ne_nil begun
  simp [isAbsolute, chars]

theorem walk_below {a : String} (h : a ≠ "") (here : List String) (b : String) :
    walk here (a ++ "/" ++ b) = Files.normalNames (walk here a) (Text.splitOn '/' b) := by
  rw [walk, isAbsolute_below h, splitOn_below, normalNames_append]
  rfl

theorem walk_nil (path : String) : walk [] path = Files.normalNames [] (Text.splitOn '/' path) := by
  simp [walk]

theorem walk_absolute {path : String} (h : isAbsolute path) (here : List String) :
    walk here path = walk [] path := by
  simp [walk, h]

theorem expandTilde_tilde (home r : String) : expandTilde home ("~/" ++ r) = home ++ "/" ++ r := by
  simp [expandTilde]

theorem expandTilde_eq_self {w : String} (h : ¬ Files.NamesHome w) (home : String) :
    expandTilde home w = w := by
  unfold expandTilde
  split
  · next chars => exact absurd (.inl (String.toList_inj.mp chars)) h
  · next r chars => exact absurd (.inr ⟨String.ofList r, by simp [← String.toList_inj, chars]⟩) h
  · rfl

theorem expandTilde_below (home d b : String) :
    expandTilde home (d ++ "/" ++ b) = expandTilde home d ++ "/" ++ b := by
  by_cases h : Files.NamesHome d
  · obtain rfl | ⟨r, rfl⟩ := h
    · exact expandTilde_tilde home b
    · rw [String.append_assoc, String.append_assoc, expandTilde_tilde, expandTilde_tilde,
        ← String.append_assoc, ← String.append_assoc]
  · rw [expandTilde_eq_self h, expandTilde_eq_self (by rwa [Files.namesHome_below])]

theorem find_below {home d : String} (written : expandTilde home d ≠ "") (here : List String)
    {name : String} (single : '/' ∉ name.toList) (proper : IsProper name) :
    find home here (d ++ "/" ++ name) = name :: find home here d := by
  have alone : Text.splitOn '/' name = [name] := by simp [Text.splitOn, Text.splitChars_of_notMem single]
  rw [find, expandTilde_below, walk_below written, alone, normalNames_proper (by simpa using proper)]
  rfl

/-- Where a file is put for a path below the home directory is where a shell that starts there finds it. -/
theorem walk_remotePath {home w : String} (absolute : isAbsolute home) (other : w ≠ "~")
    (relative : ∀ r, w = "~/" ++ r → ¬ isAbsolute r) :
    walk (walk [] home) (Command.remotePath w) = find home (walk [] home) w := by
  by_cases h : Files.NamesHome w
  · obtain ⟨r, rfl⟩ := h.resolve_left other
    rw [Command.remotePath_tilde, find, expandTilde_tilde, walk_below (ne_empty_of_isAbsolute absolute),
      walk_absolute absolute (walk [] home), walk, if_neg (relative r rfl)]
  · rw [Command.remotePath_eq_self h, find, expandTilde_eq_self h]

end Flotilla.Shell
