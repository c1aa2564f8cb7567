import Flotilla.Proofs.Fleet.Listed
import Flotilla.Proofs.Fleet.Resolved

/-! Which scenarios can be resolved. The checks that a fleet goes through, one after the other, let
through exactly the sound scenarios; of all others the settings are to blame. Both have to be told, which
takes numbers that are short enough. The nodes that a roster lists pass the checks on nodes. -/
namespace Flotilla

theorem Variant.parse_eq_ok_iff {given : Value} {v : Variant} :
    parse given = .ok v ↔ given = .text v.name := by
  have found {s : String} : ofName? s = some v ↔ s = v.name := by
    constructor
    · intro named
      have same := List.find?_some named
      exact (eq_of_beq same).symm
    · rintro rfl
      exact ofName?_name v
  cases given with
  | text s =>
    rw [parse, ofValue?, Value.text.injEq, ← found]
    cases ofName? s <;> simp
  | _ => simp [parse, ofValue?]

theorem Variant.blames_parse {given : Value} {long : Prop} (h : ¬ given.isWritable → long) :
    BlamesUnless long (parse given) := by
  unfold parse
  split
  · exact .ok _
  · exact .refused h

namespace Fleet

/-- A scenario on nodes that can be told apart, of a known variant, with stakes, room for all its
instances, and an input folder or none. -/
structure Sound (nodes : List Node) (r : Request) : Prop where
  apart : Roster.Apart nodes
  staking : ∃ n : Int, r.staking.Denotes n ∧ 0 < n
  elevatedStaking : ∃ n : Int, r.elevatedStaking.Denotes n ∧ 0 < n
  variant : ∃ v : Variant, r.variant = .text v.name ∧ (r.networkSize = .null ∨
    ∃ n : Int, r.networkSize.Denotes n ∧ ((layout v).length * nodes.length : Nat) ≤ n)
  inputFolder : r.inputFolder ≠ .text ""

namespace Request

/-- Amounts of kinds that may stand for an integer, and texts, where there is anything. -/
structure IsPlain (r : Request) : Prop where
  staking : r.staking.IsCount
  elevatedStaking : r.elevatedStaking.IsCount
  networkSize : r.networkSize = .null ∨ r.networkSize.IsCount
  inputFolder : r.inputFolder = .null ∨ ∃ s, r.inputFolder = .text s
  bootstrapHost : r.bootstrapHost = .null ∨ ∃ s, r.bootstrapHost = .text s

/-- What may have to be told has too many digits. -/
inductive IsLong (nodes : List Node) (r : Request) : Prop
  | variant : ¬ r.variant.isWritable → IsLong nodes r
  | amount {v : Value} {n : Int} : v ∈ [r.staking, r.elevatedStaking, r.networkSize] → v.Denotes n →
    ¬ Number.fits n → IsLong nodes r
  | nodes (v : Variant) : ¬ Number.fits ((layout v).length * nodes.length : Nat) → IsLong nodes r

/-- An input folder that is not given can go by the network size. -/
def NamesFolder (nodes : List Node) (r : Request) : Prop :=
  r.inputFolder = .null → ∀ v : Variant, r.variant = .text v.name → ∀ n : Int,
    r.networkSize = .null ∧ n = ((layout v).length * nodes.length : Nat) ∨ r.networkSize.Denotes n →
      Number.fits n

theorem namesFolder_of_short {nodes : List Node} {r : Request} (short : ¬ r.IsLong nodes) :
    r.NamesFolder nodes := by
  intro _ v _ n size
  by_contra long
  rcases size with ⟨-, rfl⟩ | denotes
  · exact short (.nodes v long)
  · exact short (.amount (by simp) denotes long)

end Request

theorem checkNodes_eq_ok_iff {nodes : List Node} : checkNodes nodes = .ok () ↔ Roster.Apart nodes := by
  have ordered : hasOrdinals nodes = true ↔
      nodes.map (·.id) = (List.range nodes.length).map Int.ofNat := beq_iff_eq
  have addressed : nodes.any (·.address.isEmpty) = false ↔ ∀ n ∈ nodes, n.address ≠ "" := by simp
  have distinct : Roster.isDistinct (nodes.map (·.address)) = true ↔
      (nodes.map (·.address)).Nodup := decide_eq_true_iff
  unfold checkNodes
  constructor
  · intro checked
    split_ifs at checked with none disordered nameless shared
    exact ⟨by simpa using none, ordered.mp (by simpa using disordered),
      addressed.mp (by simpa using nameless), distinct.mp (by simpa using shared)⟩
  · intro apart
    rw [if_neg (by simpa using apart.inhabited), ordered.mpr apart.ordinals,
      addressed.mpr apart.addressed, distinct.mpr apart.distinct]
    rfl

theorem blames_checkNodes (nodes : List Node) (long : Prop) : BlamesUnless long (checkNodes nodes) :=
  .ite (fun _ => .error _) fun _ => .ite (fun _ => .error _) fun _ => .ite (fun _ => .error _) fun _ =>
    .ite (fun _ => .error _) fun _ => .ok _

theorem readPositive_eq_ok_iff {what : Quantity} {v : Value} (h : v.IsCount) {n : Nat} :
    readPositive what v = .ok n ↔ v.Denotes n ∧ 0 < n := by
  rw [← Value.toInt_eq_ok_iff h, readPositive]
  cases read : v.toInt with
  | ok i =>
    dsimp only
    split
    · next small =>
      simp only [reduceCtorEq, Except.ok.injEq, false_iff, not_and]
      omega
    · next positive =>
      simp only [Except.ok.injEq]
      omega
  | error why =>
    obtain ⟨⟨unreadable, rfl⟩, -⟩ := Value.of_toInt_eq_error h read
    simp

theorem blames_readPositive (what : Quantity) {v : Value} (h : v.IsCount) {long : Prop}
    (short : ∀ n, v.Denotes n → ¬ Number.fits n → long) : BlamesUnless long (readPositive what v) := by
  rw [readPositive]
  cases read : v.toInt with
  | ok i => exact .ite (fun _ => .refused (short i ((Value.toInt_eq_ok_iff h).mp read))) fun _ => .ok _
  | error why =>
    obtain ⟨⟨unreadable, rfl⟩, told⟩ := Value.of_toInt_eq_error h read
    exact .refused (absurd told)

theorem exists_readPositive_iff {what : Quantity} {v : Value} (h : v.IsCount) :
    (∃ n, readPositive what v = .ok n) ↔ ∃ n : Int, v.Denotes n ∧ 0 < n := by
  simp only [readPositive_eq_ok_iff h]
  constructor
  · rintro ⟨n, denotes, positive⟩
    exact ⟨n, denotes, by omega⟩
  · rintro ⟨n, denotes, positive⟩
    obtain ⟨k, rfl⟩ := Int.eq_ofNat_of_zero_le (Int.le_of_lt positive)
    exact ⟨k, denotes, by omega⟩

section
variable {v : Value} (h : v = .null ∨ v.IsCount) (instances : Nat)
include h

theorem readNetworkSize_of_count (given : v ≠ .null) : v.IsCount ∧
    readNetworkSize v instances = readPositive .networkSize v >>= fun n =>
      if n < instances then .error (.ofMisconfigured (.networkTooSmall n instances)) else .ok n := by
  refine ⟨h.resolve_left given, ?_⟩
  cases v with
  | null => exact absurd rfl given
  | _ => rfl

theorem readNetworkSize_eq_ok_iff (some : 0 < instances) {n : Nat} :
    readNetworkSize v instances = .ok n ↔ v = .null ∧ n = instances ∨ v.Denotes n ∧ instances ≤ n := by
  by_cases given : v = .null
  · subst given
    rw [readNetworkSize, Except.ok.injEq]
    constructor
    · rintro rfl
      exact .inl ⟨rfl, rfl⟩
    · rintro (⟨-, rfl⟩ | ⟨denotes, -⟩)
      · rfl
      · cases denotes
  · obtain ⟨count, reads⟩ := readNetworkSize_of_count h instances given
    rw [reads, bind_eq_ok_iff]
    simp only [given, false_and, false_or, readPositive_eq_ok_iff count]
    constructor
    · rintro ⟨m, ⟨denotes, -⟩, large⟩
      split_ifs at large with small
      obtain rfl := Except.ok.inj large
      exact ⟨denotes, by omega⟩
    · rintro ⟨denotes, large⟩
      exact ⟨n, ⟨denotes, by omega⟩, if_neg (by omega)⟩

theorem blames_readNetworkSize {long : Prop} (short : ∀ n, v.Denotes n → ¬ Number.fits n → long)
    (few : ¬ Number.fits instances → long) : BlamesUnless long (readNetworkSize v instances) := by
  by_cases given : v = .null
  · subst given
    exact .ok _
  · obtain ⟨count, reads⟩ := readNetworkSize_of_count h instances given
    rw [reads]
    refine (blames_readPositive _ count short).bind fun n read => .ite (fun _ => ?_) fun _ => .ok _
    refine .refused fun untold => ?_
    by_cases told : Number.fits n
    · exact few fun enough => untold (Bool.and_eq_true_iff.mpr ⟨told, enough⟩)
    · exact short n ((readPositive_eq_ok_iff count).mp read).1 told

end

section
variable {v : Value} (h : v = .null ∨ ∃ s, v = .text s)
include h

theorem exists_readInputFolder_iff (networkSize : Nat) :
    (∃ folder, readInputFolder v networkSize = .ok folder) ↔
      v ≠ .text "" ∧ (v = .null → Number.fits networkSize) := by
  rcases h with rfl | ⟨s, rfl⟩
  · by_cases short : Number.fits networkSize <;> simp [readInputFolder, short]
  · by_cases empty : s = "" <;> simp [readInputFolder, Value.isTruthy, empty]

theorem blames_readInputFolder {networkSize : Nat} {long : Prop} (short : ¬ Number.fits networkSize → long) :
    BlamesUnless long (readInputFolder v networkSize) := by
  rcases h with rfl | ⟨s, rfl⟩
  · exact .ite (fun _ => .ok _) fun untold => .unwritable (short untold)
  · exact .ite (fun _ => .ok _) fun _ => .error _

theorem exists_write_bootstrapHost (nodes : List Node) :
    ∃ host, (bootstrapHost v nodes).write = .ok host := by
  rcases h with rfl | ⟨s, rfl⟩
  · exact ⟨_, rfl⟩
  · rw [bootstrapHost]
    split <;> exact ⟨_, rfl⟩

end

theorem exists_resolve_iff (nodes : List Node) {r : Request} (plain : r.IsPlain) :
    (∃ f, resolve nodes r = .ok f) ↔ checkNodes nodes = .ok () ∧ ∃ v, Variant.parse r.variant = .ok v ∧
      (∃ n, readPositive .staking r.staking = .ok n) ∧
      (∃ n, readPositive .elevatedStaking r.elevatedStaking = .ok n) ∧
      ∃ size, readNetworkSize r.networkSize (v.perNode * nodes.length) = .ok size ∧
        ∃ folder, readInputFolder r.inputFolder size = .ok folder := by
  constructor
  · rintro ⟨f, resolved⟩
    have resolves := resolvesTo_of_resolve resolved
    exact ⟨resolves.checked, _, resolves.variant, ⟨_, resolves.staking⟩, ⟨_, resolves.elevatedStaking⟩,
      _, resolves.networkSize, _, resolves.inputFolder⟩
  · rintro ⟨checked, v, variant, ⟨n, staking⟩, ⟨m, elevated⟩, size, room, folder, input⟩
    obtain ⟨host, written⟩ := exists_write_bootstrapHost plain.bootstrapHost nodes
    exact ⟨_, bind_eq_ok_iff.mpr ⟨_, checked, bind_eq_ok_iff.mpr ⟨v, variant, bind_eq_ok_iff.mpr
      ⟨n, staking, bind_eq_ok_iff.mpr ⟨m, elevated, bind_eq_ok_iff.mpr ⟨size, room,
        bind_eq_ok_iff.mpr ⟨folder, input, bind_eq_ok_iff.mpr ⟨host, written, rfl⟩⟩⟩⟩⟩⟩⟩⟩

theorem blames_resolve (nodes : List Node) {r : Request} (plain : r.IsPlain) :
    BlamesUnless (r.IsLong nodes) (resolve nodes r) := by
  have amount {v : Value} (given : v ∈ [r.staking, r.elevatedStaking, r.networkSize]) (n : Int)
      (denotes : v.Denotes n) (long : ¬ Number.fits n) : r.IsLong nodes := .amount given denotes long
  refine (blames_checkNodes nodes _).bind fun _ _ => ?_
  refine (Variant.blames_parse .variant).bind fun v _ => ?_
  refine (blames_readPositive _ plain.staking (amount (by simp))).bind fun _ _ => ?_
  refine (blames_readPositive _ plain.elevatedStaking (amount (by simp))).bind fun _ _ => ?_
  have few (long : ¬ Number.fits (v.perNode * nodes.length : Nat)) : r.IsLong nodes :=
    .nodes v (length_layout v ▸ long)
  refine (blames_readNetworkSize plain.networkSize _ (amount (by simp)) few).bind fun size read => ?_
  have short (long : ¬ Number.fits size) : r.IsLong nodes := by
    by_cases given : r.networkSize = .null
    · rw [given] at read
      obtain rfl := Except.ok.inj read
      exact few long
    · obtain ⟨count, reads⟩ := readNetworkSize_of_count plain.networkSize _ given
      obtain ⟨n, positive, large⟩ := bind_eq_ok_iff.mp (reads.symm.trans read)
      split_ifs at large
      obtain rfl := Except.ok.inj large
      exact amount (by simp) n ((readPositive_eq_ok_iff count).mp positive).1 long
  refine (blames_readInputFolder plain.inputFolder short).bind fun _ _ => ?_
  obtain ⟨host, written⟩ := exists_write_bootstrapHost plain.bootstrapHost nodes
  rw [written]
  exact .ok _

end Fleet
end Flotilla
