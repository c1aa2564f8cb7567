import Flotilla.Proofs.CommandLine.Ending
import Flotilla.Proofs.Fleet.Resolved
import Flotilla.Proofs.Manifest.Closed

namespace Flotilla.CommandLine.Program
open Executor Manifest

theorem networkSize_of_fleet {o : Options} {w : Template.Objects} {f : Fleet}
    (described : fleet o w = .ok f) :
    f.topology.networkSize = f.instances.length ∧ 0 < f.instances.length := by
  obtain ⟨v, -, described⟩ := ok_of_bind described
  obtain ⟨nodes, -, described⟩ := ok_of_bind described
  have resolves := Fleet.resolvesTo_of_resolve described
  have size := Except.ok.inj resolves.networkSize
  obtain ⟨i, first, -⟩ := resolves.head?_instances
  refine ⟨?_, List.length_pos_of_mem (List.mem_of_mem_head? first)⟩
  rw [← size, resolves.length_instances, resolves.kept]

theorem exec_compose {o : Options} {f : Fleet} {ss : List Service}
    (made : services { size := .num (.int f.topology.networkSize) } = .ok ss) (s : Session) :
    exec (compose o f) s = match file? o.output with
      | none => (.ok ⟨⟩, { s with printed := s.printed ++ Manifest.print ss })
      | some path => match s.disk.write path (.file (Manifest.print ss)) with
        | .ok d => (.ok ⟨⟩, told { s with disk := d } [Log.info s!"Compose manifest written to {path}"])
        | .error why => (.error (.file why), s) := by
  rw [compose, made, exec_bind_ok (exec_lift _ s)]
  dsimp only
  cases file? o.output with
  | none => rfl
  | some path =>
    dsimp only
    rw [exec_bind, Deploy.exec_writeFile]
    cases s.disk.write path (.file (Manifest.print ss)) <;> rfl

/-- The manifest of a request for integers is closed, whatever its size and its ports are, and there is one
if all of them can be written. The one that the program writes, or prints, for a fleet is closed too, and
has one daemon for each instance. -/
theorem manifest_closed {size : Int} (positive : 1 ≤ size) (bootstrap port base : Int) :
    (isShort size.toNat bootstrap port base →
      ∃ ss, services (integers size bootstrap port base) = .ok ss ∧
        Manifest.IsClosed ss size.toNat port base) ∧
    (¬ isShort size.toNat bootstrap port base →
      services (integers size bootstrap port base) = .error (.value .unwritable)) ∧
    ∀ (o : Options) (w : Template.Objects) (f : Fleet), fleet o w = .ok f →
      isShort f.instances.length Defaults.bootstrapPort Defaults.networkPort Defaults.hostPortBase →
      ∃ ss, services { size := .num (.int f.topology.networkSize) } = .ok ss ∧
        Manifest.IsClosed ss f.instances.length Defaults.networkPort Defaults.hostPortBase ∧
        (ss.filter (·.isDaemon)).length = f.instances.length ∧
        (file? o.output = none → ∀ s, exec (compose o f) s =
          (.ok ⟨⟩, { s with printed := s.printed ++ Manifest.print ss })) ∧
        ∀ path, file? o.output = some path →
          ∀ s d, s.disk.write path (.file (Manifest.print ss)) = .ok d →
            ∃ s', exec (compose o f) s = (.ok ⟨⟩, s') ∧ s'.disk = d := by
  obtain ⟨n, rfl⟩ := Int.eq_ofNat_of_zero_le (Int.le_trans (by decide) positive)
  have made := services_integers (show 0 < n by omega) bootstrap port base
  refine ⟨fun short => ?_, fun long => made.trans (if_neg long), fun o w f described short => ?_⟩
  · exact ⟨_, made.trans (if_pos short), isClosed_pairs n bootstrap port base⟩
  · obtain ⟨size, positive⟩ := networkSize_of_fleet described
    have made := (services_integers positive Defaults.bootstrapPort Defaults.networkPort
      Defaults.hostPortBase).trans (if_pos short)
    have closed := isClosed_pairs f.instances.length Defaults.bootstrapPort Defaults.networkPort
      Defaults.hostPortBase
    rw [← size] at made
    refine ⟨_, made, size ▸ closed, ?_, fun printed s => ?_, fun path asked s d wrote => ?_⟩
    · simpa [size] using congrArg List.length closed.daemons
    · rw [exec_compose made, printed]
    · rw [exec_compose made, asked]
      dsimp only
      rw [wrote]
      exact ⟨_, rfl, rfl⟩

/-- Three nodes with two instances each, and ports that are no ports. -/
theorem manifest_closed_doubled :
    let o : Options := { fleetSize := .num (.int 3), tenNodes := true }
    (1 : Int) ≤ 2 ∧
      (∃ ss, services (integers 2 (-1) 30 (-1)) = .ok ss ∧ ss.map (·.ports) = [["-1:30"], ["0:30"], [], []] ∧
        Manifest.IsClosed ss 2 30 (-1)) ∧
      ∃ f ss, fleet o .types = .ok f ∧ services { size := .num (.int f.topology.networkSize) } = .ok ss ∧
        Manifest.IsClosed ss 6 Defaults.networkPort Defaults.hostPortBase ∧
        (ss.filter (·.isDaemon)).length = 6 := by
  intro o
  have positive : (1 : Int) ≤ 2 := by decide
  obtain ⟨closed, -, composed⟩ := manifest_closed positive (-1) 30 (-1)
  refine ⟨positive, ?_, ?_⟩
  · obtain ⟨ss, made, closed⟩ := closed (by decide +kernel)
    have ports : (services (integers 2 (-1) 30 (-1))).map (·.map (·.ports)) =
        .ok [["-1:30"], ["0:30"], [], []] := by rfl
    rw [made] at ports
    exact ⟨ss, made, Except.ok.inj ports, closed⟩
  · obtain ⟨f, described, count⟩ : ∃ f, fleet o .types = .ok f ∧ f.instances.length = 6 :=
      ⟨_, by with_unfolding_all rfl, by rfl⟩
    have short : isShort f.instances.length Defaults.bootstrapPort Defaults.networkPort
        Defaults.hostPortBase := count ▸ by decide +kernel
    obtain ⟨ss, made, closed, daemons, -⟩ := composed o .types f described short
    exact ⟨f, ss, described, made, count ▸ closed, daemons.trans count⟩

/-- The greatest number that can be written is the host port of the first daemon, so the second has none. -/
theorem not_manifest_closed_long : (1 : Int) ≤ 2 ∧
    ¬ ∃ ss, services (integers 2 27736 27737 Number.greatest) = .ok ss ∧
      Manifest.IsClosed ss 2 27737 Number.greatest := by
  refine ⟨by decide, ?_⟩
  rintro ⟨ss, made, -⟩
  rw [services_long] at made
  cases made

end Flotilla.CommandLine.Program
