import Flotilla.Proofs.Deploy.Directory
import Flotilla.Proofs.Deploy.Placement
import Flotilla.Proofs.Fleet.Turnover

/-! What stands outside of quotes in the lines that carry texts of the caller. A shell works out tildes,
patterns and braces there, which make no tokens of their own, so it is not enough that a line comes
apart as it should: no character of such a text may be met by the shell bare unless it means nothing. -/
namespace Flotilla.Shell
open Scan Deploy Fleet

/-- The characters that are met outside of quotes, among them the quotes that open. -/
def Scan.bare (s : Scan) : List Char → List Char
  | [] => []
  | c :: r => if s.mode = .bare then c :: (s.next c).bare r else (s.next c).bare r

def bare (line : String) : List Char := ({} : Scan).bare line.toList

/-- Nothing is worked out for this character: it stands for itself, or parts or joins tokens, or quotes. -/
def isInert (c : Char) : Bool := isSafe c || [' ', '&', '\'', '"'].contains c

def IsInert (line : String) : Prop := ∀ c ∈ bare line, isInert c

/-- The same of a part of a line that begins where a token may begin. -/
def Guarded (source : String) : Prop :=
  ∀ done, ∀ c ∈ Scan.bare ⟨.bare, .nothing, done⟩ source.toList, isInert c

theorem bare_append (s : Scan) (a b : List Char) : s.bare (a ++ b) = s.bare a ++ (s.readAll a).bare b := by
  induction a generalizing s with
  | nil => rfl
  | cons c r ih =>
    simp only [List.cons_append, Scan.bare, readAll_cons, ih]
    split <;> rfl

theorem bare_subset (s : Scan) (cs : List Char) : s.bare cs ⊆ cs := by
  induction cs generalizing s with
  | nil => exact List.Subset.refl _
  | cons c r ih =>
    rw [Scan.bare]
    split
    · exact List.cons_subset_cons c (ih _)
    · exact List.subset_cons_of_subset c (ih _)

theorem isInert_of_isSafe {c : Char} (h : isSafe c) : isInert c := by rw [isInert, h, Bool.true_or]

theorem guarded_of_isInert {source : String} (h : source.toList.all isInert) : Guarded source :=
  fun _ c mem => List.all_eq_true.mp h c (bare_subset _ _ mem)

theorem bare_quotedChars (cs : List Char) (e : Bool) (seen : List Char) (done : List Token) :
    ∀ c ∈ Scan.bare ⟨.single, .word e seen, done⟩ (cs.flatMap quotedChar), isInert c := by
  induction cs generalizing seen with
  | nil => simp [Scan.bare]
  | cons d r ih =>
    have first := readAll_quotedChars [d] e seen done
    rw [List.flatMap_singleton] at first
    rw [List.flatMap_cons, bare_append, List.forall_mem_append, first]
    refine ⟨?_, ih _⟩
    by_cases quote : d = '\''
    · -- The text is left for a moment to write a quote, within quotes of the other kind.
      subst quote
      have outside : Scan.bare ⟨.single, .word e seen, done⟩ (quotedChar '\'') = ['"', '\''] := by
        cases e <;> rfl
      rw [outside]
      exact List.all_eq_true.mp (by decide)
    · simp [quotedChar, quote, Scan.bare]

theorem next_quote (part : Part) (done : List Token) :
    ∃ e seen before, next ⟨.bare, part, done⟩ '\'' = ⟨.single, .word e seen, before⟩ := by
  have goesOn := extend?_of_notMem (c := '\'') (by decide) (by decide) part
  cases part with
  | nothing => exact ⟨false, [], done, rfl⟩
  | word e cs => exact ⟨e, cs, done, rfl⟩
  | operator cs =>
    refine ⟨false, [], .operator (String.ofList cs) :: done, ?_⟩
    simp [next, readBare, goesOn, openWord, Part.isWord, finish, Part.token?]

theorem bare_quoteChars (cs : List Char) (part : Part) (done : List Token) :
    ∀ c ∈ Scan.bare ⟨.bare, part, done⟩ (quoteChars cs), isInert c := by
  unfold quoteChars
  split
  · next safe =>
    rw [Bool.and_eq_true, List.all_eq_true] at safe
    exact fun c mem => isInert_of_isSafe (safe.2 c (bare_subset _ _ mem))
  · obtain ⟨e, seen, before, opened⟩ := next_quote part done
    rw [Scan.bare, if_pos rfl, opened, bare_append, readAll_quotedChars, List.forall_mem_cons,
      List.forall_mem_append]
    exact ⟨by decide, bare_quotedChars cs e seen before, by simp [Scan.bare]⟩

theorem guarded_quote (s : String) : Guarded (quote s) := fun done => by
  rw [quote, String.toList_ofList]
  exact bare_quoteChars s.toList .nothing done

theorem guarded_assignment {name : String} (plain : IsPlainWord name) (inert : name.toList.all isInert)
    (value : String) : Guarded (name ++ quote value) := fun done => by
  rw [String.toList_append, bare_append, readAll_plain plain, List.forall_mem_append, quote,
    String.toList_ofList]
  exact ⟨guarded_of_isInert inert done, bare_quoteChars value.toList _ done⟩

namespace Spelling

theorem guarded_text {ps : Spelling} (right : ps.IsRight) (guarded : ∀ p ∈ ps, Guarded p.1) :
    Guarded ps.text := by
  induction ps with
  | nil => exact fun _ _ mem => absurd mem List.not_mem_nil
  | cons p r ih =>
    cases r with
    | nil => exact guarded p List.mem_cons_self
    | cons q r =>
      intro done
      obtain ⟨part, first, -⟩ := right p List.mem_cons_self done
      have rest := ih (fun o ho => right o (List.mem_cons_of_mem p ho))
        (fun o ho => guarded o (List.mem_cons_of_mem p ho)) (part.token?.toList ++ done)
      have whole : (text (p :: q :: r)).toList = p.1.toList ++ ' ' :: (text (q :: r)).toList := by
        simp [text, Text.joinWith]
      rw [whole, bare_append, first, List.forall_mem_append, Scan.bare, if_pos rfl, next_blank,
        List.forall_mem_cons]
      exact ⟨guarded p List.mem_cons_self done, by decide, rest⟩

theorem guarded_chain {cs : List Spelling} (guarded : ∀ c ∈ cs, ∀ p ∈ c, Guarded p.1) :
    ∀ p ∈ chain cs, Guarded p.1 := by
  induction cs using chain.induct with
  | case1 => simp [chain]
  | case2 c => exact guarded c List.mem_cons_self
  | case3 c d r ih =>
    have rest := ih fun o ho => guarded o (List.mem_cons_of_mem c ho)
    rw [chain, List.forall_mem_append, List.forall_mem_cons]
    exact ⟨guarded c List.mem_cons_self, guarded_of_isInert (by decide), rest⟩

theorem tokens_chain_eq (cs : List Spelling) :
    (chain cs).tokens = [Token.operator "&&"].intercalate (cs.map tokens) := by
  induction cs using chain.induct with
  | case1 => rfl
  | case2 c => simp [chain]
  | case3 c d r ih =>
    rw [tokens_chain_cons, ih, List.map_cons, List.map_cons, List.map_cons, List.intercalate_cons_cons]
    simp

end Spelling

def exportsSpelling (env : List (String × String)) : Spelling :=
  .chain ((sortByName env).map exportSpelling)

theorem text_exportsSpelling (env : List (String × String)) :
    (exportsSpelling env).text = exportLine env := by
  have begun : ∀ c ∈ (sortByName env).map exportSpelling, c ≠ [] :=
    List.forall_mem_map.mpr fun v _ => List.cons_ne_nil _ _
  rw [exportsSpelling, Spelling.text_chain begun, List.map_map, exportLine]
  exact congrArg _ (List.map_congr_left fun v _ => text_exportSpelling v)

section
variable {env : List (String × String)} (names : ∀ v ∈ env, IsPlainWord (v.1 ++ "="))
include names

theorem isRight_exportsSpelling : (exportsSpelling env).IsRight :=
  Spelling.isRight_chain <| List.forall_mem_map.mpr fun v hv =>
    isRight_exportSpelling (names v ((List.mergeSort_perm env _).mem_iff.mp hv))

theorem tokens_exportLine : tokens (exportLine env) = some ([.operator "&&"].intercalate
    ((sortByName env).map fun v => [.word "export", .word (v.1 ++ "=" ++ v.2)])) := by
  rw [← text_exportsSpelling, Spelling.tokens_text (isRight_exportsSpelling names), exportsSpelling,
    Spelling.tokens_chain_eq, List.map_map]
  rfl

theorem isInert_exportLine (inert : ∀ v ∈ env, (v.1 ++ "=").toList.all isInert) :
    IsInert (exportLine env) := by
  have guarded : ∀ p ∈ exportsSpelling env, Guarded p.1 := by
    refine Spelling.guarded_chain (List.forall_mem_map.mpr fun v hv => ?_)
    have known := (List.mergeSort_perm env _).mem_iff.mp hv
    simp only [exportSpelling, List.forall_mem_cons]
    exact ⟨guarded_of_isInert (by decide),
      guarded_assignment (names v known) (inert v known) v.2, by simp⟩
  rw [← text_exportsSpelling]
  exact Spelling.guarded_text (isRight_exportsSpelling names) guarded []

end

theorem isInert_script (s : String) {arguments : Spelling} (right : arguments.IsRight)
    (guarded : ∀ p ∈ arguments, Guarded p.1) : IsInert (callSpelling s ++ arguments).text := by
  have called : ∀ p ∈ callSpelling s, Guarded p.1 := by
    simp only [callSpelling, List.forall_mem_cons]
    exact ⟨guarded_of_isInert (by decide), guarded_of_isInert (by decide), guarded_quote s, by simp⟩
  exact Spelling.guarded_text (List.forall_mem_append.mpr ⟨isRight_callSpelling s, right⟩)
    (List.forall_mem_append.mpr ⟨called, guarded⟩) []

/-- Within double quotes no character is met bare but the quote that opens. -/
theorem guarded_doubled {s : String} (bare : s.toList.all fun c => c != '"' && c != '\\') :
    Guarded (doubled s).1 := by
  have inside (cs : List Char) (plain : ∀ c ∈ cs, c ≠ '"' ∧ c ≠ '\\') (e : Bool) (seen : List Char)
      (done : List Token) : Scan.bare ⟨.double, .word e seen, done⟩ cs = [] := by
    induction cs generalizing e seen with
    | nil => rfl
    | cons c r ih =>
      obtain ⟨⟨quote, backslash⟩, rest⟩ := List.forall_mem_cons.mp plain
      simp [Scan.bare, next, quote, backslash, add, ih rest]
  have plain : ∀ c ∈ s.toList, c ≠ '"' ∧ c ≠ '\\' := by simpa [List.all_eq_true] using bare
  have chars : (doubled s).1.toList = '"' :: (s.toList ++ ['"']) := by simp [doubled]
  intro done
  have opened : next ⟨.bare, .nothing, done⟩ '"' = ⟨.double, .word false [], done⟩ := rfl
  rw [chars, Scan.bare, if_pos rfl, opened, bare_append, readAll_doubled plain, inside _ plain]
  simp [Scan.bare, isInert]

/-- What texts become on their way to a shell. Whatever the bindings of an instance are, the line that
exports them comes apart into the assignments of their texts, in the order of the names. Whatever a
script says, the line that has it run comes apart into the call, the script and its arguments, of which
the installing steps have the one kind or the other. In neither does the shell meet a character outside
of quotes for which it works anything out. -/
theorem texts_untouched (b : Bindings) (script : String) :
    let env := b.helperEnvironment.map fun v => (v.1, v.2.shown)
    let call : List Token := [.word "sh", .word "-c", .word script]
    ((env.map (·.1)).Pairwise (· < ·) ∧
      tokens (exportLine env) = some ([.operator "&&"].intercalate
        (env.map fun v => [.word "export", .word (v.1 ++ "=" ++ v.2)])) ∧
      IsInert (exportLine env)) ∧
    (tokens (privileged script "").line = some call ∧ IsInert (privileged script "").line ∧
      tokens (privileged script Unit.loginArguments).line =
        some (call ++ [.word "sh", .expanded "$HOME", .expanded "$(id -un)"]) ∧
      IsInert (privileged script Unit.loginArguments).line) ∧
    ∀ (p : Plan) (n : Node) (c : Command),
      (p.installUnits n = some c → ∃ s, c.line = (privileged s Unit.loginArguments).line) ∧
      (p.installOverrides n = some c → ∃ s, c.line = (privileged s "").line) := by
  intro env call
  refine ⟨?_, ?_, fun p n c => ⟨fun sent => ⟨_, (of_installCommand sent).1⟩,
    fun sent => ⟨_, (of_installCommand sent).1⟩⟩⟩
  · have names : ∀ v ∈ env, IsPlainWord (v.1 ++ "=") ∧ (v.1 ++ "=").toList.all isInert := by
      simp only [env, Bindings.helperEnvironment, List.map_cons, List.map_nil, List.forall_mem_cons]
      decide
    have whole := tokens_exportLine fun v hv => (names v hv).1
    rw [sortByName_helperEnvironment] at whole
    refine ⟨?_, whole, isInert_exportLine (fun v hv => (names v hv).1) fun v hv => (names v hv).2⟩
    simp only [env, Bindings.helperEnvironment, List.map_cons, List.map_nil]
    decide
  · have none : ∀ p ∈ ([] : Spelling), Guarded p.1 := by simp
    have login : ∀ p ∈ loginSpelling, Guarded p.1 := by
      simp only [loginSpelling, List.forall_mem_cons]
      exact ⟨guarded_of_isInert (by decide), guarded_doubled (by decide), guarded_doubled (by decide),
        by simp⟩
    have nothing : Spelling.IsRight [] := by simp [Spelling.IsRight]
    have alone := isInert_script script nothing none
    rw [List.append_nil, text_callSpelling] at alone
    have whole := isInert_script script isRight_loginSpelling login
    rw [text_callSpelling_login] at whole
    refine ⟨?_, alone, ?_, whole⟩
    · rw [← text_callSpelling, Spelling.tokens_text (isRight_callSpelling script)]
      rfl
    · rw [← text_callSpelling_login, Spelling.tokens_text
        (List.forall_mem_append.mpr ⟨isRight_callSpelling script, isRight_loginSpelling⟩)]
      rfl

/-- Texts that would do harm if they were read as part of a line. -/
theorem hostile_texts_untouched :
    let b : Bindings := ⟨"a:27736", 1, 27736, 27736, "it's; $(reboot) ~/*", 10, .text ""⟩
    let n : Node := ⟨0, "a"⟩
    let p : Plan := ⟨⟨[n], ⟨"a:27736", 1⟩, ⟨.standard, 10, 100, .text ""⟩,
      [⟨"daemon", n, .primary, b⟩]⟩, "~/block_chat", none⟩
    let env := b.helperEnvironment.map fun v => (v.1, v.2.shown)
    tokens (exportLine env) = some [
        .word "export", .word "DAEMON_SOCKET=it's; $(reboot) ~/*", .operator "&&",
        .word "export", .word "FIXED_STAKING=10", .operator "&&", .word "export", .word "INPUT_FOLDER="] ∧
      IsInert (exportLine env) ∧
      tokens (privileged "echo 'it''s' |\n\tcat" "").line =
        some [.word "sh", .word "-c", .word "echo 'it''s' |\n\tcat"] ∧
      ∃ c s, p.installUnits n = some c ∧ c.line = (privileged s Unit.loginArguments).line := by
  intro b n p env
  obtain ⟨⟨-, exported, inert⟩, ⟨called, -⟩, steps⟩ := texts_untouched b "echo 'it''s' |\n\tcat"
  obtain ⟨s, line⟩ := (steps p n _).1 rfl
  exact ⟨exported.trans (by decide), inert, called, _, s, rfl, line⟩

end Flotilla.Shell
