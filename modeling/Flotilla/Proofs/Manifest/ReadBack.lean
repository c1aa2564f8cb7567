import Flotilla.Proofs.Manifest.Closed
import Flotilla.Proofs.Yaml.ReadBack
import Flotilla.Proofs.Yaml.Sixties
import Mathlib.Data.Nat.Digits.Defs

namespace Flotilla.Manifest
open Yaml

structure Service.IsWorded (s : Service) : Prop where
  build : ∀ b ∈ s.build, IsWord b.context.toList ∧ IsWord b.file.toList
  image : IsWord s.image.toList
  pullPolicy : ∀ policy ∈ s.pullPolicy, IsWord policy.toList
  exposes : s.expose ≠ []
  expose : ∀ port ∈ s.expose, IsWord port.toList
  configured : s.environment ≠ []
  environment : ∀ setting ∈ s.environment, IsWord setting.toList
  ports : ∀ pair ∈ s.ports, IsWord pair.toList
  dependsOn : ∀ name ∈ s.dependsOn, IsWord name.toList

def fieldNames : List String :=
  ["build", "image", "pull_policy", "expose", "environment", "ports", "depends_on"]

theorem isKeyWord_of_mem_fieldNames {k : String} (member : k ∈ fieldNames) : IsKeyWord k.toList := by
  have all : ∀ k ∈ fieldNames, IsKeyWord k.toList := by decide
  exact all k member

theorem sublist_fieldNames (s : Service) : (s.fields.map (·.1)).Sublist fieldNames := by
  have maybe (name : String) (ss : List String) :
      ((optionalTexts name ss).map (·.1)).Sublist [name] := by
    rw [optionalTexts]
    split
    · exact List.nil_sublist _
    · exact List.Sublist.refl _
  have tail : ((optionalTexts "ports" s.ports ++ optionalTexts "depends_on" s.dependsOn).map (·.1)).Sublist
      ["ports", "depends_on"] := by
    rw [List.map_append]
    exact (maybe "ports" s.ports).append (maybe "depends_on" s.dependsOn)
  have head : ∃ names, (s.fields.map (·.1)) =
      names ++ (optionalTexts "ports" s.ports ++ optionalTexts "depends_on" s.dependsOn).map (·.1) ∧
      names.Sublist ["build", "image", "pull_policy", "expose", "environment"] := by
    refine ⟨_, by rw [Service.fields, List.append_assoc, List.map_append], ?_⟩
    cases s.build <;> cases s.pullPolicy <;> exact List.isSublist_iff_sublist.mp rfl
  obtain ⟨names, split, front⟩ := head
  rw [split]
  exact front.append tail

theorem isTidy_texts {ss : List String} (given : ss ≠ []) (words : ∀ s ∈ ss, IsWord s.toList) :
    IsTidy (texts ss) := .list given words

theorem isTidy_of_mem_optionalTexts {name : String} {ss : List String} (words : ∀ s ∈ ss, IsWord s.toList)
    {f : String × Value} (member : f ∈ optionalTexts name ss) : IsTidy f.2 := by
  rw [optionalTexts] at member
  split at member
  · cases member
  · next given =>
    obtain rfl := List.mem_singleton.mp member
    exact isTidy_texts (by rintro rfl; exact given rfl) words

theorem isTidy_build {b : Build} (words : IsWord b.context.toList ∧ IsWord b.file.toList) :
    IsTidy (.map [("context", .text b.context), ("dockerfile", .text b.file)]) := by
  refine .map (List.cons_ne_nil _ _) (by simp) ?_ ?_
  · simp only [List.forall_mem_cons]
    exact ⟨by decide, by decide, fun _ member => absurd member List.not_mem_nil⟩
  · simp only [List.forall_mem_cons]
    exact ⟨.text words.1, .text words.2, fun _ member => absurd member List.not_mem_nil⟩

theorem isTidy_fields {s : Service} (worded : s.IsWorded) : IsTidy (.map s.fields) := by
  have names := sublist_fieldNames s
  refine .map ?_ ?_ ?_ ?_
  · simp [Service.fields]
  · exact names.nodup (by decide)
  · exact fun f member => isKeyWord_of_mem_fieldNames (names.subset (List.mem_map_of_mem member))
  · simp only [Service.fields, List.forall_mem_append, List.forall_mem_cons]
    have none (f : String × Value) (member : f ∈ []) : IsTidy f.2 := absurd member List.not_mem_nil
    refine ⟨⟨⟨⟨⟨?_, .text worded.image, none⟩, ?_⟩, ?_⟩, ?_⟩, ?_⟩
    case refine_1 =>
      cases given : s.build with
      | none => exact none
      | some b => exact List.forall_mem_singleton.mpr (isTidy_build (worded.build b given))
    case refine_2 =>
      cases given : s.pullPolicy with
      | none => exact none
      | some policy => exact List.forall_mem_singleton.mpr (.text (worded.pullPolicy policy given))
    case refine_3 =>
      exact ⟨isTidy_texts worded.exposes worded.expose,
        isTidy_texts worded.configured worded.environment, none⟩
    case refine_4 => exact fun f => isTidy_of_mem_optionalTexts worded.ports
    case refine_5 => exact fun f => isTidy_of_mem_optionalTexts worded.dependsOn

theorem isTidy_document {ss : List Service} (given : ss ≠ []) (distinct : (ss.map (·.name)).Nodup)
    (keys : ∀ s ∈ ss, IsKeyWord s.name.toList) (worded : ∀ s ∈ ss, s.IsWorded) :
    IsTidy (document ss) := by
  have services : IsTidy (.map (ss.map fun s => (s.name, .map s.fields))) := by
    refine .map (by simpa using given) (by simpa [Function.comp_def] using distinct) ?_ ?_
    · simpa using keys
    · simpa using fun s member => isTidy_fields (worded s member)
  refine .map (List.cons_ne_nil _ _) (by simp) ?_ ?_
  · have key : IsKeyWord "services".toList := by decide
    exact List.forall_mem_singleton.mpr key
  · exact List.forall_mem_singleton.mpr services

theorem isVisible_of_mem_toString_int {i : Int} {c : Char} (member : c ∈ (toString i).toList) :
    isVisible c := by
  by_cases minus : c = '-'
  · subst minus
    exact isVisible_dash
  · refine isVisible_of_isDigit ?_
    by_contra other
    exact Text.notMem_toString_int other minus i member

theorem isWord_append {a b : String} (word : IsWord a.toList) (visible : ∀ c ∈ b.toList, isVisible c) :
    IsWord (a ++ b).toList := by
  rw [String.toList_append]
  exact word.append visible

theorem isWord_int (i : Int) : IsWord (toString i).toList := by
  refine ⟨?_, fun c => isVisible_of_mem_toString_int⟩
  cases i with
  | ofNat n =>
    obtain ⟨c, r, written, -⟩ := Text.toDigits_cases n
    have whole : (toString (Int.ofNat n)).toList = c :: r := Nat.toList_repr.trans written
    exact whole ▸ List.cons_ne_nil c r
  | negSucc n => simp [toString, Int.repr]

theorem isWord_nodeName (i : Nat) : IsWord (nodeName i).toList :=
  isWord_append (by decide) fun _ => isVisible_of_mem_toString_int (i := i)

theorem isWord_sized (size : Nat) : IsWord s!"BLOCK_CHAT_NETWORK_SIZE={size}".toList :=
  isWord_append (by decide) fun _ => isVisible_of_mem_toString_int (i := size)

theorem isWord_exposed (port : Int) : IsWord (exposed (.num (.int port))).toList :=
  isWord_append (isWord_int port) (List.all_eq_true.mp (by decide))

section
variable (size i : Nat) (bootstrap port base host : Int)

theorem isWorded_daemon :
    (daemon (integers size bootstrap port base) size i (toString host)).IsWorded := by
  have socket : IsWord (s!"BLOCK_CHAT_BOOTSTRAP_PEER_SOCKET={nodeName 0}:" ++ toString bootstrap).toList :=
    isWord_append (by decide) fun _ => isVisible_of_mem_toString_int
  have pair : IsWord (toString host ++ ":" ++ toString port).toList :=
    isWord_append (isWord_append (isWord_int host) (List.all_eq_true.mp (by decide)))
      fun _ => isVisible_of_mem_toString_int
  constructor
  case image => exact (by decide : IsWord nodeImage.toList)
  case exposes => exact List.cons_ne_nil _ _
  case expose =>
    exact List.forall_mem_cons.mpr
      ⟨isWord_exposed bootstrap, List.forall_mem_singleton.mpr (isWord_exposed port)⟩
  case configured => exact List.cons_ne_nil _ _
  case ports => exact List.forall_mem_singleton.mpr pair
  case environment =>
    refine List.forall_mem_cons.mpr ⟨socket, ?_⟩
    split
    · exact List.forall_mem_singleton.mpr (isWord_sized size)
    · exact fun _ member => absurd member List.not_mem_nil
  case build =>
    intro b given
    obtain ⟨-, rfl⟩ : i = 0 ∧ ⟨".", "Dockerfile.node"⟩ = b := by simpa [daemon] using given
    decide
  case pullPolicy =>
    intro policy given
    obtain ⟨-, rfl⟩ : i = 0 ∧ "never" = policy := by simpa [daemon] using given
    decide
  case dependsOn =>
    intro name waits
    obtain ⟨-, rfl⟩ := (mem_dependsOn_daemon i _).mp waits
    exact isWord_nodeName 0

theorem isWorded_helper : (helper (integers size bootstrap port base) size i).IsWorded := by
  have socket : IsWord (s!"BLOCK_CHAT_DAEMON_SOCKET={nodeName i}:" ++ toString port).toList := by
    refine isWord_append (isWord_append (isWord_append (by decide) ?_) (List.all_eq_true.mp (by decide)))
      fun _ => isVisible_of_mem_toString_int
    exact (isWord_nodeName i).visible
  constructor
  case build =>
    intro b given
    obtain ⟨-, rfl⟩ : i = 0 ∧ ⟨".", "Dockerfile.helper"⟩ = b := by simpa [helper] using given
    decide
  case image => exact (by decide : IsWord helperImage.toList)
  case pullPolicy =>
    intro policy given
    cases given
  case exposes => exact List.cons_ne_nil _ _
  case expose => exact List.forall_mem_singleton.mpr (isWord_exposed port)
  case configured => exact List.cons_ne_nil _ _
  case environment =>
    exact List.forall_mem_cons.mpr ⟨socket, List.forall_mem_singleton.mpr (isWord_sized size)⟩
  case ports => exact fun _ member => absurd member List.not_mem_nil
  case dependsOn => exact List.forall_mem_singleton.mpr (isWord_nodeName i)

end

theorem length_toString_le {i : Nat} (digits : i < 10 ^ 100) : (toString i).toList.length ≤ 100 :=
  Nat.repr_length i 100 (by decide) digits

theorem isKeyWord_numbered {name : String} (word : IsWord name.toList) (short : name.toList.length ≤ 8)
    {i : Nat} (digits : i < 10 ^ 100) : IsKeyWord (name ++ toString i).toList := by
  have bound := length_toString_le digits
  have tag : "!!str".length = 5 := rfl
  refine ⟨isWord_append word fun _ => isVisible_of_mem_toString_int (i := i), ?_⟩
  rw [String.toList_append, List.length_append, tag, keyLimit]
  omega

theorem isTidy_pairs {size : Nat} (positive : 0 < size) (digits : size < 10 ^ 100)
    (bootstrap port base : Int) : IsTidy (document (pairs size bootstrap port base)) := by
  have given : pairs size bootstrap port base ≠ [] := List.ne_nil_of_mem (daemon_mem_pairs positive)
  refine isTidy_document given (isClosed_pairs size bootstrap port base).distinct ?_ ?_
  · refine forall_pairs_iff.mpr ⟨fun i within => ?_, fun i within => ?_⟩
    · exact isKeyWord_numbered (by decide) (by decide) (Nat.lt_trans within digits)
    · exact isKeyWord_numbered (by decide) (by decide) (Nat.lt_trans within digits)
  · refine forall_pairs_iff.mpr ⟨fun i _ => ?_, fun i _ => ?_⟩
    · exact isWorded_daemon size i bootstrap port base (base + i)
    · exact isWorded_helper size i bootstrap port base

theorem toList_portPair (host port : Nat) :
    (toString (host : Int) ++ ":" ++ toString (port : Int)).toList = twoPlaces host port := by
  have written (n : Nat) : (toString (n : Int)).toList = Nat.toDigits 10 n := Nat.toList_repr
  rw [String.toList_append, String.toList_append, written, written]
  simp [twoPlaces]

/-- The manifest of any number of nodes that has at most a hundred digits is read back as its document,
where ports are short enough to be written. Each pair of ports is a text there, though some of them,
standing plainly, would be a number. -/
theorem document_reads_back {size : Nat} (positive : 0 < size) (digits : size < 10 ^ 100)
    (bootstrap port base : Nat) (short : isShort size bootstrap port base) :
    ∃ ss, services (integers size bootstrap port base) = .ok ss ∧
      Yaml.read (print ss) = some (document ss) ∧
      ∀ i < size, ∃ d pair, ss[i]? = some d ∧ d.name = nodeName i ∧ d.ports = [pair] ∧
        readScalar pair.toList = some
          (if 0 < base + i ∧ port < 60 then .num (.int (60 * (base + i) + port : Nat)) else .text pair) := by
  have made := (services_integers positive bootstrap port base).trans (if_pos short)
  refine ⟨_, made, read_print (isTidy_pairs positive digits _ _ _), ?_⟩
  intro i within
  refine ⟨_, _, getElem?_pairs_daemon size _ _ _ within, rfl, rfl, ?_⟩
  have pair : (toString ((base : Int) + i) ++ ":" ++ toString (port : Int)).toList =
      twoPlaces (base + i) port := toList_portPair (base + i) port
  have read := readScalar_twoPlaces (base + i) port
  rw [← pair, String.ofList_toList] at read
  exact read

theorem document_reads_back_below_sixty : 0 < 2 ∧ 2 < 10 ^ 100 ∧ isShort 2 27736 30 8080 ∧
    ∃ ss, services (integers 2 27736 30 8080) = .ok ss ∧ Yaml.read (print ss) = some (document ss) ∧
      ∀ i < 2, ∃ d pair, ss[i]? = some d ∧ d.name = nodeName i ∧ d.ports = [pair] ∧
        readScalar pair.toList = some
          (if 0 < 8080 + i ∧ 30 < 60 then .num (.int (60 * (8080 + i) + 30 : Nat)) else .text pair) := by
  have short : isShort 2 27736 30 8080 := by decide +kernel
  exact ⟨by decide, by decide, short, document_reads_back (by decide) (by decide) 27736 30 8080 short⟩

/-- The host port of the second node has a digit too many to be written. -/
theorem not_document_reads_back_long : 0 < 2 ∧ 2 < 10 ^ 100 ∧
    ¬ ∃ ss, services (integers 2 27736 27737 Number.greatest) = .ok ss ∧
      Yaml.read (print ss) = some (document ss) := by
  refine ⟨by decide, by decide, ?_⟩
  rintro ⟨ss, made, -⟩
  rw [services_long] at made
  cases made

end Flotilla.Manifest
