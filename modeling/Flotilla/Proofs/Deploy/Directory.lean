import Flotilla.Deploy.Step
import Flotilla.Proofs.Shell.Plain

/-! The directory on the hosts, as it stands in the lines the hosts are sent. It is written out as it was
given, without quotes, so a shell finds it there again exactly if it is a word that needs none. -/
namespace Flotilla.Deploy

/-- A piece of a line: what the line always says, or the directory with something below it. -/
inductive Piece
  | fixed (source : String) (t : Shell.Token)
  | path (below : String)

namespace Piece

def source (directory : String) : Piece → String
  | fixed source _ => source
  | path below => directory ++ below

def token (directory : String) : Piece → Shell.Token
  | fixed _ t => t
  | path below => .word (directory ++ below)

def word (w : String) : Piece := fixed w (.word w)

def andThen : Piece := fixed "&&" (.operator "&&")

def line (directory : String) (pieces : List Piece) : String :=
  Text.joinWith " " (pieces.map (·.source directory))

section
variable (d : String)

@[simp] theorem source_fixed (s : String) (t : Shell.Token) : (fixed s t).source d = s := rfl
@[simp] theorem source_path (below : String) : (path below).source d = d ++ below := rfl
@[simp] theorem source_word (w : String) : (word w).source d = w := rfl
@[simp] theorem source_andThen : andThen.source d = "&&" := rfl
@[simp] theorem token_fixed (s : String) (t : Shell.Token) : (fixed s t).token d = t := rfl
@[simp] theorem token_path (below : String) : (path below).token d = .word (d ++ below) := rfl
@[simp] theorem token_word (w : String) : (word w).token d = .word w := rfl
@[simp] theorem token_andThen : andThen.token d = .operator "&&" := rfl

@[simp] theorem line_singleton (q : Piece) : line d [q] = q.source d := rfl

@[simp] theorem line_cons (q r : Piece) (qs : List Piece) :
    line d (q :: r :: qs) = q.source d ++ " " ++ line d (r :: qs) := rfl

end

def clean : List Piece := [word "rm", word "-rf", path "", andThen, word "mkdir", path ""]

def unpack (archive : String) : List Piece :=
  [word "tar", word "-xzf", path ("/" ++ archive), word "-C", path "", andThen, word "rm",
    path ("/" ++ archive)]

def build : List Piece :=
  [word ".", word "~/.cargo/env", andThen, word "cd", path "", andThen, word "cargo", word "build",
    word "--release"]

/-- What the steps say that name the directory outside of privileged scripts. -/
def ofStep? : Step → Option (List Piece)
  | .clean => some clean
  | .distributeSource => some (unpack sourceArchive)
  | .build => some build
  | .distributeInputs => some (unpack inputsArchive)
  | _ => none

def setting (name value : String) : List Piece :=
  [word "export", fixed (name ++ "=" ++ Shell.quote value) (.word (name ++ "=" ++ value)), andThen]

def helper (i : Instance) : List Piece :=
  word "cd" :: path "" :: andThen ::
    ((i.bindings.helperEnvironment.flatMap fun v => setting v.1 v.2.shown) ++
      [word "./target/release/helper"])

end Piece

/-- A line is read as its pieces say, and no option comes out of the directory. -/
structure Reads (directory line : String) (pieces : List Piece) : Prop where
  tokens : Shell.tokens line = some (pieces.map (·.token directory))
  operands : ∀ below, .path below ∈ pieces → ¬ Shell.isOption (directory ++ below)

/-- Wherever the directory stands in a line for the hosts, it is a word of its own. -/
structure Plan.OneWord (p : Plan) (directory : String) : Prop where
  steps : ∀ s pieces, Piece.ofStep? s = some pieces → ∀ built n,
    ∃ c, p.command built n s = some c ∧ Reads directory c.line pieces
  helper : ∀ i, Reads directory (Unit.helper i p.directory).line (Piece.helper i)

theorem line_cleanCommand (p : Plan) : p.cleanCommand.line = Piece.line p.directory Piece.clean := by
  unfold Plan.cleanCommand Piece.clean
  simp [← String.toList_inj, toString]

theorem line_shipCommand (p : Plan) (archive : String) (file : Option String) :
    (p.shipCommand archive file).line = Piece.line p.directory (Piece.unpack archive) := by
  unfold Plan.shipCommand unpack Piece.unpack
  simp [← String.toList_inj, toString]

theorem line_buildCommand (p : Plan) : p.buildCommand.line = Piece.line p.directory Piece.build := by
  unfold Plan.buildCommand Piece.build
  simp [← String.toList_inj, toString]

theorem line_command (p : Plan) {s : Step} {pieces : List Piece} (h : Piece.ofStep? s = some pieces)
    (built : Archives) (n : Node) :
    ∃ c, p.command built n s = some c ∧ c.line = Piece.line p.directory pieces := by
  cases s with
  | clean =>
    cases h
    exact ⟨_, rfl, line_cleanCommand p⟩
  | distributeSource =>
    cases h
    exact ⟨_, rfl, line_shipCommand p sourceArchive built.source⟩
  | build =>
    cases h
    exact ⟨_, rfl, line_buildCommand p⟩
  | distributeInputs =>
    cases h
    exact ⟨_, rfl, line_shipCommand p inputsArchive built.inputs⟩
  | installUnits => cases h
  | installOverrides => cases h
  | reload => cases h

theorem sortByName_helperEnvironment (b : Bindings) :
    Shell.sortByName (b.helperEnvironment.map fun v => (v.1, v.2.shown)) =
      b.helperEnvironment.map fun v => (v.1, v.2.shown) := by
  refine List.mergeSort_of_pairwise ?_
  simp [Bindings.helperEnvironment]

theorem line_helper (i : Instance) (directory : String) :
    (Unit.helper i directory).line = Piece.line directory (Piece.helper i) := by
  simp only [Unit.helper, Shell.exportLine, sortByName_helperEnvironment]
  unfold Piece.helper Piece.setting Bindings.helperEnvironment
  simp [Text.joinWith, ← String.toList_inj, toString]

open Shell

namespace Piece

def Fits : Piece → Prop
  | fixed source t => Spells source t
  | path below => below.toList.all isPlain

theorem fits_word {w : String} (h : IsPlainWord w) : (word w).Fits := spells_word h

theorem tokens_line {directory : String} (h : IsPlainWord directory) {pieces : List Piece}
    (fits : ∀ q ∈ pieces, q.Fits) :
    tokens (line directory pieces) = some (pieces.map (·.token directory)) := by
  have spells : ∀ p ∈ pieces.map fun q => (q.source directory, q.token directory), Spells p.1 p.2 := by
    intro p hp
    obtain ⟨q, hq, rfl⟩ := List.mem_map.mp hp
    cases q with
    | fixed source t => exact fits _ hq
    | path below => exact spells_word (h.append (fits _ hq))
  have reads := tokens_joinWith spells
  rwa [List.map_map, List.map_map] at reads

theorem fits_clean : ∀ q ∈ clean, q.Fits := by
  simp only [clean, List.forall_mem_cons]
  exact ⟨fits_word (by decide), fits_word (by decide), by simp [Fits], spells_and,
    fits_word (by decide), by simp [Fits], by simp⟩

theorem fits_unpack {archive : String} (h : ("/" ++ archive).toList.all isPlain) :
    ∀ q ∈ unpack archive, q.Fits := by
  simp only [unpack, List.forall_mem_cons]
  exact ⟨fits_word (by decide), fits_word (by decide), h, fits_word (by decide), by simp [Fits],
    spells_and, fits_word (by decide), h, by simp⟩

theorem fits_build : ∀ q ∈ build, q.Fits := by
  simp only [build, List.forall_mem_cons]
  exact ⟨fits_word (by decide), fits_word (by decide), spells_and, fits_word (by decide),
    by simp [Fits], spells_and, fits_word (by decide), fits_word (by decide), fits_word (by decide),
    by simp⟩

theorem fits_ofStep {s : Step} {pieces : List Piece} (h : ofStep? s = some pieces) :
    ∀ q ∈ pieces, q.Fits := by
  cases s with
  | clean =>
    cases h
    exact fits_clean
  | distributeSource =>
    cases h
    exact fits_unpack (by decide)
  | build =>
    cases h
    exact fits_build
  | distributeInputs =>
    cases h
    exact fits_unpack (by decide)
  | installUnits => cases h
  | installOverrides => cases h
  | reload => cases h

theorem fits_setting {name : String} (h : IsPlainWord (name ++ "=")) (value : String) :
    ∀ q ∈ setting name value, q.Fits := by
  simp only [setting, List.forall_mem_cons]
  exact ⟨fits_word (by decide), spells_assignment h value, spells_and, by simp⟩

theorem fits_helper (i : Instance) : ∀ q ∈ helper i, q.Fits := by
  intro q hq
  simp only [helper, List.mem_cons, List.mem_append, List.mem_flatMap, List.not_mem_nil, or_false] at hq
  obtain rfl | rfl | rfl | ⟨v, hv, mem⟩ | rfl := hq
  · exact fits_word (by decide)
  · simp [Fits]
  · exact spells_and
  · have names : ∀ v ∈ i.bindings.helperEnvironment, IsPlainWord (v.1 ++ "=") := by
      simp only [Bindings.helperEnvironment, List.forall_mem_cons]
      decide
    exact fits_setting (names v hv) v.2.shown q mem
  · exact fits_word (by decide)

end Piece

theorem reads_line {directory : String} (plain : IsPlainWord directory) (operand : ¬ isOption directory)
    {pieces : List Piece} (fits : ∀ q ∈ pieces, q.Fits) :
    Reads directory (Piece.line directory pieces) pieces :=
  ⟨Piece.tokens_line plain fits, fun below _ => by rwa [isOption_append plain.1]⟩

/-- A directory that is found again in the line that clears it is a word that needs no quotes. -/
theorem isPlainWord_of_clean {directory : String}
    (h : tokens (Piece.line directory Piece.clean) = some (Piece.clean.map (·.token directory))) :
    IsPlainWord directory := by
  refine isPlainWord_of_tokens h ?_ (by simp [Piece.clean, Piece.token, Piece.word])
  have fixed : quotes "rm".toList = 0 ∧ quotes "-rf".toList = 0 ∧ quotes "&&".toList = 0 ∧
    quotes "mkdir".toList = 0 ∧ quotes " ".toList = 0 := by decide
  simp only [Piece.line, Piece.clean, Piece.source, Piece.token, Piece.word, Piece.andThen, List.map,
    Text.joinWith, Token.text, List.flatMap_cons, List.flatMap_nil, String.toList_append, quotes_append,
    fixed]
  omega

/-- The lines of all steps that name the directory, and of every helper, take it for one word and for an
operand exactly if it is a plain word that does not begin with a hyphen. -/
theorem Plan.oneWord_iff {p : Plan} {remote : String}
    (given : Unit.readDirectory (.text remote) = .ok p.directory) :
    p.OneWord (Text.dropTrailing '/' remote) ↔
      IsPlainWord (Text.dropTrailing '/' remote) ∧ ¬ isOption (Text.dropTrailing '/' remote) := by
  have stripped : Text.dropTrailing '/' remote = p.directory := Except.ok.inj given
  rw [stripped]
  constructor
  · intro h
    obtain ⟨c, sent, reads⟩ := h.steps .clean Piece.clean rfl ⟨none, none⟩ ⟨0, ""⟩
    cases sent
    have operand := reads.operands "" (by simp [Piece.clean])
    rw [String.append_empty] at operand
    refine ⟨isPlainWord_of_clean ?_, operand⟩
    rw [← line_cleanCommand]
    exact reads.tokens
  · rintro ⟨plain, operand⟩
    refine ⟨fun s pieces names built n => ?_, fun i => ?_⟩
    · obtain ⟨c, sent, line⟩ := line_command p names built n
      refine ⟨c, sent, ?_⟩
      rw [line]
      exact reads_line plain operand (Piece.fits_ofStep names)
    · rw [line_helper]
      exact reads_line plain operand (Piece.fits_helper i)

theorem Plan.oneWord_home :
    let p : Plan := ⟨⟨[⟨0, "a"⟩], ⟨"a:27736", 1⟩, ⟨.standard, 10, 100, .text "inputs"⟩, []⟩,
      "~/block_chat", none⟩
    Unit.readDirectory (.text "~/block_chat/") = .ok p.directory ∧
      p.OneWord (Text.dropTrailing '/' "~/block_chat/") :=
  ⟨rfl, (Plan.oneWord_iff rfl).mpr (by decide)⟩

/-- A directory with a blank in it is two words, and what is cleared are two other directories. -/
theorem Plan.not_oneWord_blank :
    let p : Plan := ⟨⟨[⟨0, "a"⟩], ⟨"a:27736", 1⟩, ⟨.standard, 10, 100, .text "inputs"⟩, []⟩,
      "my dir", none⟩
    Unit.readDirectory (.text "my dir") = .ok p.directory ∧ ¬ p.OneWord "my dir" ∧
      tokens p.cleanCommand.line = some [.word "rm", .word "-rf", .word "my", .word "dir",
        .operator "&&", .word "mkdir", .word "my", .word "dir"] := by
  refine ⟨rfl, fun h => ?_, by decide⟩
  obtain ⟨c, sent, reads⟩ := h.steps .clean Piece.clean rfl ⟨none, none⟩ ⟨0, "a"⟩
  cases sent
  exact absurd reads.tokens (by decide)

end Flotilla.Deploy
