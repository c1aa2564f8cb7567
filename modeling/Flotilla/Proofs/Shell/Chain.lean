import Flotilla.Proofs.Shell.Login
import Flotilla.Proofs.Shell.Plain
import Mathlib.Data.List.Basic

namespace Flotilla.Shell

/-- The tokens of a line, each as it is written and as it is read. -/
abbrev Spelling := List (String × Token)

namespace Spelling

def text (ps : Spelling) : String := Text.joinWith " " (ps.map (·.1))

def tokens (ps : Spelling) : List Token := ps.map (·.2)

def IsRight (ps : Spelling) : Prop := ∀ p ∈ ps, Spells p.1 p.2

/-- Commands of which each is run if all before it have succeeded. -/
def chain : List Spelling → Spelling
  | [] => []
  | [c] => c
  | c :: d :: r => c ++ ("&&", .operator "&&") :: chain (d :: r)

theorem tokens_text {ps : Spelling} (right : ps.IsRight) : Shell.tokens ps.text = some ps.tokens :=
  tokens_joinWith right

theorem text_append {a b : Spelling} (ha : a ≠ []) (hb : b ≠ []) :
    text (a ++ b) = a.text ++ " " ++ b.text := by
  obtain ⟨q, s, rfl⟩ := List.exists_cons_of_ne_nil hb
  induction a with
  | nil => exact absurd rfl ha
  | cons p r ih =>
    cases r with
    | nil => rfl
    | cons o r =>
      have step : text (p :: o :: r ++ q :: s) = p.1 ++ " " ++ text (o :: r ++ q :: s) := rfl
      have whole : text (p :: o :: r) = p.1 ++ " " ++ text (o :: r) := rfl
      rw [step, ih (List.cons_ne_nil o r), whole]
      simp only [String.append_assoc]

theorem chain_ne_nil {c : Spelling} (h : c ≠ []) (r : List Spelling) : chain (c :: r) ≠ [] := by
  cases r with
  | nil => exact h
  | cons d r => simp [chain]

theorem tokens_chain_cons (c d : Spelling) (r : List Spelling) :
    (chain (c :: d :: r)).tokens = c.tokens ++ .operator "&&" :: (chain (d :: r)).tokens := by
  simp [chain, tokens]

theorem isRight_chain {cs : List Spelling} (right : ∀ c ∈ cs, c.IsRight) : (chain cs).IsRight := by
  induction cs using chain.induct with
  | case1 => simp [chain, IsRight]
  | case2 c => exact right c List.mem_cons_self
  | case3 c d r ih =>
    have first := right c List.mem_cons_self
    have rest := ih fun e he => right e (List.mem_cons_of_mem c he)
    rw [chain, IsRight, List.forall_mem_append, List.forall_mem_cons]
    exact ⟨first, spells_and, rest⟩

theorem text_chain {cs : List Spelling} (begun : ∀ c ∈ cs, c ≠ []) :
    (chain cs).text = Text.joinWith " && " (cs.map text) := by
  induction cs using chain.induct with
  | case1 => rfl
  | case2 c => rfl
  | case3 c d r ih =>
    have second := begun d (List.mem_cons_of_mem c List.mem_cons_self)
    have rest := chain_ne_nil second r
    have linked : text (("&&", .operator "&&") :: chain (d :: r)) =
        "&& " ++ (chain (d :: r)).text := text_append (List.cons_ne_nil _ []) rest
    rw [chain, text_append (begun c List.mem_cons_self) (List.cons_ne_nil _ _), linked,
      ih fun e he => begun e (List.mem_cons_of_mem c he)]
    simp [Text.joinWith, ← String.toList_inj]

theorem tokens_chain {α : Type} {as : List α} {line : α → String} {f : α → Spelling}
    (spelled : ∀ a ∈ as, (f a).text = line a) (begun : ∀ a ∈ as, f a ≠ [])
    (right : ∀ a ∈ as, (f a).IsRight) :
    Shell.tokens (Text.joinWith " && " (as.map line)) = some (chain (as.map f)).tokens := by
  rw [← List.map_congr_left spelled]
  have lines := text_chain (List.forall_mem_map.mpr begun)
  rw [List.map_map] at lines
  exact lines ▸ tokens_text (isRight_chain (List.forall_mem_map.mpr right))

def words (ps : Spelling) : List String := ps.map (·.2.text)

def IsPlain (ps : Spelling) : Prop := ∀ p ∈ ps, p.2 = .word p.2.text

theorem commands_append {c : Spelling} (plain : c.IsPlain) (ts : List Token) :
    commands (c.tokens ++ ts) = (commands ts).map fun (d, ds) => (c.words ++ d, ds) := by
  induction c with
  | nil => simp [tokens, words]
  | cons p r ih =>
    obtain ⟨first, rest⟩ := List.forall_mem_cons.mp plain
    rw [tokens, List.map_cons, first, List.cons_append, commands]
    rw [tokens] at ih
    rw [ih rest, Option.map_map]
    rfl

theorem commands_chain {α : Type} {f : α → Spelling} {a : α} {r : List α}
    (plain : ∀ b ∈ a :: r, (f b).IsPlain) :
    commands (chain ((a :: r).map f)).tokens = some ((f a).words, r.map fun b => (f b).words) := by
  induction r generalizing a with
  | nil =>
    have alone := commands_append (plain a List.mem_cons_self) []
    simpa [commands, chain] using alone
  | cons b r ih =>
    obtain ⟨first, rest⟩ := List.forall_mem_cons.mp plain
    rw [List.map_cons, List.map_cons, tokens_chain_cons, ← List.map_cons, commands_append first, commands,
      ih rest]
    simp

end Spelling

/-- What the commands of a line do, each taken by itself, where it does anything of the kind. -/
def effects {β : Type} (effect? : List String → Option β) (line : String) : Option (List β) := do
  let (c, cs) ← commands (← tokens line)
  return (c :: cs).filterMap effect?

theorem effects_chain {α β : Type} {effect? : List String → Option β} (idle : effect? [] = none)
    {as : List α} {line : α → String} {f : α → Spelling} (spelled : ∀ a ∈ as, (f a).text = line a)
    (begun : ∀ a ∈ as, f a ≠ []) (right : ∀ a ∈ as, (f a).IsRight) (plain : ∀ a ∈ as, (f a).IsPlain) :
    effects effect? (Text.joinWith " && " (as.map line)) =
      some (as.filterMap fun a => effect? (f a).words) := by
  rw [effects, Spelling.tokens_chain spelled begun right]
  cases as with
  | nil => simp [Spelling.chain, Spelling.tokens, commands, idle]
  | cons a r =>
    simp only [Option.bind_eq_bind, Option.bind_some, Spelling.commands_chain plain]
    refine congrArg some ?_
    rw [← List.map_cons (f := fun b => (f b).words), List.filterMap_map]
    rfl

def export? : List String → Option (String × String)
  | ["export", w] => Text.splitFirst '=' w
  | _ => none

def exported (line : String) : Option (List (String × String)) := effects export? line

def IsName (name : String) : Prop := IsPlainWord (name ++ "=") ∧ '=' ∉ name.toList

instance (name : String) : Decidable (IsName name) := inferInstanceAs (Decidable (_ ∧ _))

def exporting (v : String × String) : List String := ["export", v.1 ++ "=" ++ v.2]

theorem export?_exporting {v : String × String} (h : IsName v.1) : export? (exporting v) = some v :=
  Text.splitFirst_eq (by simp) h.2

theorem filterMap_exporting {env : List (String × String)} (names : ∀ v ∈ env, IsName v.1) :
    (env.map exporting).filterMap export? = env := by
  have each : ∀ v ∈ env, (export? ∘ exporting) v = some v := fun v hv =>
    export?_exporting (names v hv)
  rw [List.filterMap_map, List.filterMap_congr each, List.filterMap_some]

def exportSpelling (v : String × String) : Spelling :=
  [("export", .word "export"), (v.1 ++ "=" ++ quote v.2, .word (v.1 ++ "=" ++ v.2))]

theorem text_exportSpelling (v : String × String) :
    (exportSpelling v).text = s!"export {v.1}={quote v.2}" := by
  simp [exportSpelling, Spelling.text, Text.joinWith, toString, ← String.toList_inj]

theorem isRight_exportSpelling {v : String × String} (name : IsPlainWord (v.1 ++ "=")) :
    (exportSpelling v).IsRight := by
  have word : Spells "export" (.word "export") := spells_word (by decide)
  simpa [exportSpelling, Spelling.IsRight] using ⟨word, spells_assignment name v.2⟩

theorem exported_joinWith {env : List (String × String)} (names : ∀ v ∈ env, IsName v.1) :
    exported (Text.joinWith " && " (env.map fun v => s!"export {v.1}={quote v.2}")) = some env := by
  have plain : ∀ v ∈ env, (exportSpelling v).IsPlain := fun v _ => by
    simp [exportSpelling, Spelling.IsPlain, Token.text]
  rw [exported, effects_chain rfl (fun v _ => text_exportSpelling v) (fun v _ => List.cons_ne_nil _ _)
    (fun v hv => isRight_exportSpelling (names v hv).1) plain]
  exact congrArg some (List.filterMap_map.symm.trans (filterMap_exporting names))

theorem exported_exportLine {env : List (String × String)} (names : ∀ v ∈ env, IsName v.1) :
    exported (exportLine env) = some (sortByName env) :=
  exported_joinWith fun v hv => names v ((List.mergeSort_perm env _).mem_iff.mp hv)

open Scan

def script? (line : String) : Option String :=
  match tokens line with
  | some (.word "sh" :: .word "-c" :: .word s :: _) => some s
  | _ => none

def redirected : List Token → List String
  | [] => []
  | .operator ">" :: .word path :: r => path :: redirected r
  | _ :: r => redirected r

def copy? : List String → Option String
  | ["cp", _, path] => some path
  | _ => none

def copied (line : String) : Option (List String) := effects copy? line

theorem spells_quote (s : String) : Spells (quote s) (.word s) := by
  by_cases safe : (!s.toList.isEmpty && s.toList.all isSafe) = true
  · have itself : quote s = s := by rw [quote, quoteChars, if_pos safe, String.ofList_toList]
    rw [Bool.and_eq_true, List.all_eq_true] at safe
    have start : s.toList.head? ≠ some '#' := fun hash =>
      absurd (safe.2 '#' (List.mem_of_head? hash)) (by decide)
    rw [itself]
    refine spells_word ⟨?_, ?_, start⟩
    · rintro rfl
      exact absurd safe.1 (by decide)
    · exact List.all_eq_true.mpr fun c hc => isPlain_of_isSafe (safe.2 c hc)
  · intro done
    refine ⟨.word false s.toList.reverse, ?_, by simp [Part.token?]⟩
    rw [quote, quoteChars, if_neg safe, String.toList_ofList, readAll_cons, readAll_append]
    have opened : next ⟨.bare, .nothing, done⟩ '\'' = ⟨.single, .word false [], done⟩ := rfl
    rw [opened, readAll_quotedChars, List.append_nil]
    rfl

theorem readAll_doubled {cs : List Char} (bare : ∀ c ∈ cs, c ≠ '"' ∧ c ≠ '\\') (e : Bool)
    (seen : List Char) (done : List Token) : readAll ⟨.double, .word e seen, done⟩ cs =
      ⟨.double, .word (e || cs.any expanding.contains) (cs.reverse ++ seen), done⟩ := by
  induction cs generalizing e seen with
  | nil => simp
  | cons c r ih =>
    obtain ⟨⟨quote, backslash⟩, rest⟩ := List.forall_mem_cons.mp bare
    have first : next ⟨.double, .word e seen, done⟩ c =
        ⟨.double, .word (e || expanding.contains c) (c :: seen), done⟩ := by
      simp [next, quote, backslash, add]
    rw [readAll_cons, first, ih rest]
    simp [Bool.or_assoc]

def doubled (s : String) : String × Token := ("\"" ++ s ++ "\"", .expanded s)

theorem spells_doubled {s : String} (bare : s.toList.all fun c => c != '"' && c != '\\')
    (works : s.toList.any expanding.contains) : Spells (doubled s).1 (doubled s).2 := by
  intro done
  have plain : ∀ c ∈ s.toList, c ≠ '"' ∧ c ≠ '\\' := by simpa [List.all_eq_true] using bare
  have chars : (doubled s).1.toList = '"' :: (s.toList ++ ['"']) := by simp [doubled]
  have opened : next ⟨.bare, .nothing, done⟩ '"' = ⟨.double, .word false [], done⟩ := rfl
  refine ⟨.word true s.toList.reverse, ?_, by simp [Part.token?, doubled]⟩
  rw [chars, readAll_cons, opened, readAll_append, readAll_doubled plain, works, List.append_nil]
  rfl

theorem script?_text (s : String) {arguments : Spelling} (right : arguments.IsRight) :
    script? (Spelling.text (("sh", .word "sh") :: ("-c", .word "-c") :: (quote s, .word s) ::
      arguments)) = some s := by
  have called : Spells "sh" (.word "sh") ∧ Spells "-c" (.word "-c") :=
    ⟨spells_word (by decide), spells_word (by decide)⟩
  rw [script?, Spelling.tokens_text]
  · rfl
  · simp only [Spelling.IsRight, List.forall_mem_cons]
    exact ⟨called.1, called.2, spells_quote s, right⟩

theorem redirected_chain {α : Type} {f : α → Spelling} {path : α → String}
    (each : ∀ a ts, redirected ((f a).tokens ++ ts) = path a :: redirected ts) (as : List α) :
    redirected (Spelling.chain (as.map f)).tokens = as.map path := by
  induction as with
  | nil => rfl
  | cons a r ih =>
    cases r with
    | nil =>
      have alone := each a []
      rwa [List.append_nil] at alone
    | cons b r =>
      have passed (ts : List Token) : redirected (.operator "&&" :: ts) = redirected ts := by
        simp [redirected]
      rw [List.map_cons, List.map_cons, Spelling.tokens_chain_cons, ← List.map_cons, each, passed, ih]
      rfl

end Flotilla.Shell
