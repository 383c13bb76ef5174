/-
The fields in which two vectors of accepted bounds differ (`redteam/policies.py`, `ParameterBounds.changed_field_count`
and `ParameterBounds.mutations`).

Both methods validate the vectors they are given again, and look every field up by name. On vectors of the bounds none
of this raises: the bounds hold the vectors as they were built, each with exactly the names of the domains.

- `changedFieldCount_eq`: the number of fields that differ.
- `mutations_eq`: the vectors that differ from one of the bounds in one to three fields.
-/
import Apar.Core.Selection
import Apar.Redteam.FeasibleVectors

namespace Apar

open Exec

namespace Redteam

variable [Sha256]

namespace ParameterBounds

/-- `changed_field_count` -/
def changedFieldCount (b : ParameterBounds) (left right : AdaptiveVector) : Except PolicyError ℕ := do
  let first ← b.validateVector left
  let second ← b.validateVector right
  let changed ← b.names.mapM fun name => do
    let old ← first.get name
    let new ← second.get name
    pure (!AdaptiveValue.sameValue old new)
  pure (changed.count true)

/-- `mutations` -/
def mutations (b : ParameterBounds) (base : AdaptiveVector) : Except PolicyError (List AdaptiveVector) := do
  let checked ← b.validateVector base
  Selection.keepM (fun vector => do
    let changed ← b.changedFieldCount checked vector
    pure (decide (1 ≤ changed ∧ changed ≤ 3))) b.feasibleVectors

/-- the fields in which two vectors differ -/
def differing (b : ParameterBounds) (left right : AdaptiveVector) : List PyStr :=
  b.names.filter fun name => left.lookup name ≠ right.lookup name

variable {b : ParameterBounds}

/-- **The number of fields that differ** between two valid vectors -/
theorem changedFieldCount_eq {left right : AdaptiveVector} (hleft : b.validateVector left = .ok left)
    (hright : b.validateVector right = .ok right) :
    b.changedFieldCount left right = .ok (b.differing left right).length := by
  have hfields : b.names.mapM (fun name => do
      let old ← left.get name
      let new ← right.get name
      pure (!AdaptiveValue.sameValue old new) : PyStr → Except PolicyError Bool) =
      .ok (b.names.map fun name => decide (left.lookup name ≠ right.lookup name)) := by
    rw [mapM_eq_ok, List.forall₂_map_right_iff, List.forall₂_same]
    intro name hname
    obtain ⟨old, hold⟩ := AdaptiveVector.lookup_of_mem_names ((names_of_validateVector hleft).2 ▸ hname)
    obtain ⟨new, hnew⟩ := AdaptiveVector.lookup_of_mem_names ((names_of_validateVector hright).2 ▸ hname)
    simp only [except_bind_eq_ok, except_pure_eq_ok]
    refine ⟨old, AdaptiveVector.get_eq_ok.2 hold, new, AdaptiveVector.get_eq_ok.2 hnew, ?_⟩
    simp [hold, hnew, AdaptiveValue.sameValue]
  rw [changedFieldCount, hleft, hright, except_ok_bind, except_ok_bind, hfields, except_ok_bind]
  refine congrArg Except.ok ?_
  rw [differing, List.count, List.countP_map, List.countP_eq_length_filter]
  refine congrArg List.length (List.filter_congr fun name _ => ?_)
  exact beq_true _

omit [Sha256] in
theorem mem_differing {left right : AdaptiveVector} {name : PyStr} :
    name ∈ b.differing left right ↔ name ∈ b.names ∧ left.lookup name ≠ right.lookup name := by
  rw [differing, List.mem_filter, decide_eq_true_eq]

/-- **The mutations** of a valid vector: the feasible vectors that differ from it in one to three fields -/
theorem mutations_eq (hb : b.Built) {base : AdaptiveVector} (hbase : b.validateVector base = .ok base) :
    b.mutations base = .ok (b.feasibleVectors.filter fun v =>
      1 ≤ (b.differing base v).length ∧ (b.differing base v).length ≤ 3) := by
  rw [mutations, hbase, except_ok_bind]
  refine Selection.keepM_eq fun v hv => ?_
  rw [changedFieldCount_eq hbase (hb.validateVector hv)]
  rfl

end ParameterBounds

end Redteam

end Apar
